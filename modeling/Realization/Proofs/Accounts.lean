import Realization.Proofs.Prescription

/-!
Work gives account of what it made. What a list of duties comes to can be told from the elements
that are stored at the end, in one pass and without a graph that changes; and for the duties of a
type it is what the rules prescribe for it.
-/
namespace Realization

/- The inputs are looked up where a rule is run, so on their own they come to nothing. -/
def Duty.outcome (blank read : TypeRef → Option Element) :
    List Duty → Option Element → Option (Except Failure (Option Element))
  | [], own => some (.ok own)
  | .synthesize subject :: rest, _ => (blank subject).bind fun e => outcome blank read rest (some e)
  | .input _ _ :: rest, own => outcome blank read rest own
  | .run _ _ rule :: rest, own =>
    match rule.effect read own with
    | some (.ok e) => outcome blank read rest (some e)
    | other => other.map (·.map some)
  | .lack _ _ _ :: _, _ => none

namespace Duty

variable {blank read : TypeRef → Option Element}

theorem outcomeAppend (first second : List Duty) (own : Option Element) :
    outcome blank read (first ++ second) own =
      match outcome blank read first own with
      | some (.ok own) => outcome blank read second own
      | other => other := by
  induction first generalizing own with
  | nil => rfl
  | cons duty rest ih =>
    cases duty with
    | synthesize subject =>
      simp only [List.cons_append, outcome]
      cases blank subject with
      | none => rfl
      | some e => exact ih _
    | input via t => exact ih own
    | run subject id rule =>
      simp only [List.cons_append, outcome]
      rcases rule.effect read own with _ | failure | e
      · rfl
      · rfl
      · exact ih _
    | lack => rfl

theorem outcomeRule (subject : TypeRef) (id : RuleId) (rule : Rule) (own : Option Element) :
    outcome blank read (rule.duties subject id) own = (rule.effect read own).map (·.map some) := by
  have skip : ∀ types : List TypeRef,
      outcome blank read (types.map (.input (some rule.locator)) ++ [.run subject id rule]) own =
        outcome blank read [.run subject id rule] own := by
    intro types
    induction types with
    | nil => rfl
    | cons t rest ih => exact ih
  unfold Rule.duties
  rw [skip]
  simp only [outcome]
  rcases rule.effect read own with _ | failure | e <;> rfl

theorem outcomeRules (subject : TypeRef) (rules : List (RuleId × Rule)) (e : Element) :
    outcome blank read (rules.flatMap fun (id, rule) => rule.duties subject id) (some e) =
      (Rule.effects read (rules.map (·.2)) e).map (·.map some) := by
  induction rules generalizing e with
  | nil => rfl
  | cons p rest ih =>
    rw [List.flatMap_cons, outcomeAppend, outcomeRule]
    simp only [List.map_cons, Rule.effects]
    rcases p.2.effect read (some e) with _ | failure | e'
    · rfl
    · rfl
    · exact ih e'

end Duty

namespace Graph

theorem outcomeCreated {g : Graph} (indexed : g.registry.Indexed) {below : List TypeRef}
    {via : Option Locator} {s : TypeRef} {read : TypeRef → Option Element}
    {x : Except Failure (Option Element)}
    (made : Duty.outcome g.blank? read (g.registry.creationDuties below via s) none = some x) :
    ∃ y, g.created read s = some y ∧ x = y.map some := by
  unfold Registry.creationDuties at made
  unfold created
  rw [indexed.creationRuleExact]
  cases listed : g.registry.creator? s with
  | none =>
    rw [listed] at made
    dsimp only [Option.map_none] at made ⊢
    cases managed : s.isManaged with
    | false => simp [managed, Duty.outcome] at made
    | true =>
      simp only [managed, if_true, Duty.outcome, Option.bind_eq_some_iff] at made
      obtain ⟨e, found, made⟩ := made
      cases made
      exact ⟨.ok e, by rw [found]; rfl, rfl⟩
  | some p =>
    rw [listed] at made
    dsimp only [Option.map_some] at made ⊢
    cases initializer : p.2.isInitializer with
    | false =>
      simp only [initializer, Bool.false_eq_true, if_false, List.nil_append, Duty.outcomeRule,
        Option.map_eq_some_iff] at made
      obtain ⟨y, effect, rfl⟩ := made
      exact ⟨y, by simpa using effect, rfl⟩
    | true =>
      simp only [initializer, if_true, List.singleton_append, Duty.outcome, Duty.outcomeRule,
        Option.bind_eq_some_iff, Option.map_eq_some_iff] at made
      obtain ⟨e, found, y, effect, rfl⟩ := made
      exact ⟨y, by simpa [found] using effect, rfl⟩

theorem outcomePrescribed {g : Graph} (indexed : g.registry.Indexed) {below : List TypeRef}
    {via : Option Locator} {s : TypeRef} {read : TypeRef → Option Element}
    {x : Except Failure (Option Element)}
    (made : Duty.outcome g.blank? read (g.registry.duties below via s) none = some x) :
    ∃ y, g.prescribed read s = some y ∧ x = y.map some := by
  unfold Registry.duties at made
  rw [Duty.outcomeAppend] at made
  unfold prescribed
  cases created : Duty.outcome g.blank? read (g.registry.creationDuties below via s) none with
  | none => rw [created] at made; contradiction
  | some z =>
    obtain ⟨y, found, rfl⟩ := outcomeCreated indexed created
    rw [created] at made
    rw [found]
    cases y with
    | error failure =>
      cases made
      exact ⟨.error failure, rfl, rfl⟩
    | ok e =>
      dsimp only [Except.map] at made ⊢
      rw [Registry.mutationDuties, Duty.outcomeRules, ← indexed.mutationRulesExact] at made
      obtain ⟨y, effects, rfl⟩ := Option.map_eq_some_iff.mp made
      exact ⟨y, effects, rfl⟩

def Placed (g : Graph) (s : TypeRef) : Prop :=
  s.isManaged = true → ∃ n, g.node? s = some n ∧ n.subject = s

variable {limit : Nat} {stack : List TypeRef} {own : Option Element} {g g' : Graph} {s : TypeRef}

theorem Placed.grow (placed : g.Placed s) (grows : g.Grows g') : g'.Placed s := by
  intro managed
  obtain ⟨n, found, same⟩ := placed managed
  obtain ⟨n', found', kept⟩ := grows.form s n found
  exact ⟨n', found', by rw [kept (by rw [same]; exact managed), same]⟩

theorem Placed.resolve (placed : g.Placed s) (managed : s.isManaged = true) :
    g.resolve (.plain s.name) = s := by
  obtain ⟨n, found, same⟩ := placed managed
  have found' : g.node? (.plain s.name) = some n := (nodeCongr rfl g).trans found
  exact (resolveForm found' (by rw [same]; exact managed)).trans same

theorem Placed.blank {d : Declaration} (placed : g.Placed (.managed d)) {contract : Contract}
    (known : g.registry.verdicts.find? d.fingerprint = some (.ok contract)) :
    g.blank? (.managed d) = some (.managed (.blank contract)) := by
  have same : g.resolve (.plain d.name) = .managed d := placed.resolve rfl
  simp [blank?, TypeRef.name, same, TypeRef.declaration?, known]

theorem effectGiven (grows : g.Grows g') {rule : Rule} {body : Inputs → Outcome Element}
    (starts : rule.body.start? own = some body) {inputs : Inputs}
    (given : g.inputsFor rule.inputs = .ok inputs) :
    rule.effect g'.stored own = some (body inputs).result := by
  have supplied := inputsForExact g rule.inputs
  rw [given] at supplied
  have now : rule.effect g.stored own = some (body inputs).result := by
    simp [Rule.effect, ← supplied, starts, Except.toOption]
  exact Rule.effectMono (fun _ _ _ found => grows.stored found) now

theorem Work.accounts {duties : List Duty} {own' : Option Element}
    (work : Work limit stack duties own g (.ok own') g')
    (placed : ∀ s, .synthesize s ∈ duties → g.Placed s) :
    Duty.outcome g'.blank? g'.stored duties own = some (.ok own') := by
  generalize answer : Except.ok own' = result at work
  induction work with
  | done => cases answer; rfl
  | @synthesized _ s _ _ _ contract verdicts _ g' made later ih =>
    have grows := (growsContract made).trans later.grows
    have rest := ih (fun u member => (placed u (List.mem_cons_of_mem _ member)).grow (growsContract made))
      answer
    obtain ⟨d, rfl, found⟩ := contractForDeclared made
    have known : g'.registry.verdicts.find? d.fingerprint = some (.ok contract) :=
      later.grows.verdicts _ _ found
    have blank := ((placed _ List.mem_cons_self).grow grows).blank known
    simpa only [Duty.outcome, blank, Option.bind_some] using rest
  | @ran _ _ id rule _ _ g body inputs e _ g' _ _ starts given result later ih =>
    have grows := (growsRecord g (.started id rule.locator :: (body inputs).notes.map .noted)).trans
      later.grows
    have rest := ih (fun u member => (placed u (List.mem_cons_of_mem _ member)).grow (growsRecord _ _))
      answer
    have effect := effectGiven grows starts given
    rw [result] at effect
    simpa only [Duty.outcome, effect] using rest
  | present _ _ _ ih =>
    exact ih (fun u member => (placed u (List.mem_cons_of_mem _ member)).grow (growsTrack _ _)) answer
  | built _ fresh _ inner _ _ ih =>
    refine ih (fun u member => (placed u (List.mem_cons_of_mem _ member)).grow ?_) answer
    exact inner.grows.settle fresh (.inr ⟨_, rfl⟩)
  | unsynthesized | lacking | broke | failed | cyclic | deep | unbuilt => contradiction

end Graph

end Realization
