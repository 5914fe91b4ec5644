import Realization.Proofs.Admission
import Realization.Proofs.Work

/-!
What the rules say about a type, read off the list of rules: the outcome of its creation source and
then of every mutation rule in the order of registration, with the elements of the declared inputs
taken from `read`. There is no outcome where a source or an input is missing. The graph enters only
with the form in which it knows the type and with its verdict on that form.
-/
namespace Realization

def Registry.creationRule? (r : Registry) (t : TypeRef) : Option Rule :=
  r.rules.find? fun rule => rule.creates && rule.subject.same t

def Registry.mutationRules (r : Registry) (t : TypeRef) : List Rule :=
  r.rules.filter fun rule => !rule.creates && rule.subject.same t

def Registry.Requires (r : Registry) (t i : TypeRef) : Prop :=
  ∃ rule ∈ r.rules, rule.subject.same t = true ∧ i ∈ rule.inputs

namespace Rule

/- What the body of a rule makes of `own`, once every input can be read. -/
def effect (read : TypeRef → Option Element) (rule : Rule) (own : Option Element) :
    Option (Except Failure Element) :=
  (Graph.inputsOf? read rule.inputs).bind fun inputs =>
    (rule.body.start? own).map fun run => (run inputs).result

def effects (read : TypeRef → Option Element) : List Rule → Element → Option (Except Failure Element)
  | [], e => some (.ok e)
  | rule :: rest, e =>
    match rule.effect read (some e) with
    | some (.ok e) => effects read rest e
    | other => other

end Rule

namespace Graph

def blank? (g : Graph) (t : TypeRef) : Option Element :=
  (g.resolve (.plain t.name)).declaration?.bind fun d =>
    (g.registry.verdicts.find? d.fingerprint).bind fun
      | .ok contract => some (.managed (.blank contract))
      | .error _ => none

def created (g : Graph) (read : TypeRef → Option Element) (t : TypeRef) :
    Option (Except Failure Element) :=
  match g.registry.creationRule? t with
  | some rule => rule.effect read (if rule.isInitializer then g.blank? t else none)
  | none => (g.blank? t).map .ok

def prescribed (g : Graph) (read : TypeRef → Option Element) (t : TypeRef) :
    Option (Except Failure Element) :=
  match g.created read t with
  | some (.ok e) => Rule.effects read (g.registry.mutationRules t) e
  | other => other

end Graph

namespace Rule

variable {read read' : TypeRef → Option Element} {rule : Rule}

theorem effectInputs {own : Option Element} {x : Except Failure Element}
    (known : rule.effect read own = some x) : ∀ i ∈ rule.inputs, ∃ e, read i = some e := by
  obtain ⟨inputs, supplied, _⟩ := Option.bind_eq_some_iff.mp known
  exact Graph.inputsOfRead supplied

theorem effectMono (grows : ∀ i ∈ rule.inputs, ∀ e, read i = some e → read' i = some e)
    {own : Option Element} {x : Except Failure Element} (known : rule.effect read own = some x) :
    rule.effect read' own = some x := by
  have complete := effectInputs known
  have agree : ∀ i ∈ rule.inputs, read i = read' i := by
    intro i declared
    obtain ⟨e, found⟩ := complete i declared
    rw [found, grows i declared e found]
  unfold effect at known ⊢
  rw [← Graph.inputsOfAgree agree]
  exact known

theorem effectsMono {rules : List Rule}
    (grows : ∀ rule ∈ rules, ∀ i ∈ rule.inputs, ∀ e, read i = some e → read' i = some e)
    {e : Element} {x : Except Failure Element} (known : effects read rules e = some x) :
    effects read' rules e = some x := by
  induction rules generalizing e with
  | nil => exact known
  | cons rule rest ih =>
    unfold effects at known ⊢
    cases first : rule.effect read (some e) with
    | none =>
      rw [first] at known
      contradiction
    | some outcome =>
      rw [first] at known
      rw [effectMono (grows rule List.mem_cons_self) first]
      cases outcome with
      | error failure => exact known
      | ok e => exact ih (fun other member => grows other (List.mem_cons_of_mem _ member)) known

theorem effectsInputs {rules : List Rule} {e result : Element}
    (known : effects read rules e = some (.ok result)) :
    ∀ rule ∈ rules, ∀ i ∈ rule.inputs, ∃ e, read i = some e := by
  induction rules generalizing e with
  | nil => simp
  | cons first rest ih =>
    unfold effects at known
    intro rule member
    cases outcome : first.effect read (some e) with
    | none =>
      rw [outcome] at known
      contradiction
    | some x =>
      rw [outcome] at known
      rcases List.mem_cons.mp member with rfl | member
      · exact effectInputs outcome
      · cases x with
        | error failure => simp at known
        | ok e => exact ih known rule member

end Rule

namespace Registry

theorem rulesNumbered (r : Registry) : r.numbered.map (·.2) = r.rules := by
  unfold numbered
  rw [List.map_map]
  exact List.zipIdx_map_fst 0 r.rules

theorem Indexed.creationRuleExact {r : Registry} (indexed : r.Indexed) (t : TypeRef) :
    r.creationRule? t = (r.creator? t).map (·.2) := by
  have exact := congrArg List.head? (indexed.creatorExact t)
  have only : (r.creator? t).toList.head? = r.creator? t := by cases r.creator? t <;> rfl
  unfold creationRule?
  rw [← only, exact, creatorsOf, ← rulesNumbered, List.find?_map, List.head?_filter]
  rfl

theorem Indexed.mutationRulesExact {r : Registry} (indexed : r.Indexed) (t : TypeRef) :
    r.mutationRules t = (r.mutators t).map (·.2) := by
  unfold mutationRules
  rw [indexed.mutatorsExact, mutatorsOf, ← rulesNumbered, List.filter_map]
  rfl

theorem Sound.ruleCases {r : Registry} (sound : r.Sound) {t : TypeRef} {rule : Rule}
    (member : rule ∈ r.rules) (own : rule.subject.same t = true) :
    r.creationRule? t = some rule ∨ rule ∈ r.mutationRules t := by
  cases creates : rule.creates with
  | false => exact .inr (List.mem_filter.mpr ⟨member, by simp [creates, own]⟩)
  | true =>
    left
    obtain ⟨id, numbered⟩ := ruleNumbered member
    have listed : (id, rule) ∈ r.creatorsOf t :=
      List.mem_filter.mpr ⟨numbered, by simp [creates, own]⟩
    have few := sound.sole t
    rw [sound.indexed.creationRuleExact]
    rw [← sound.indexed.creatorExact] at listed few
    cases found : r.creator? t with
    | none => simp [found] at listed
    | some p =>
      simp only [found, Option.toList_some, List.mem_singleton] at listed
      rw [← listed]
      rfl

end Registry

namespace Graph

theorem blankCongr {t u : TypeRef} (named : t.name = u.name) (g : Graph) : g.blank? t = g.blank? u := by
  simp only [blank?, named]

theorem prescribedCongr {t u : TypeRef} (named : t.name = u.name) (g : Graph)
    (read : TypeRef → Option Element) : g.prescribed read t = g.prescribed read u := by
  simp only [prescribed, created, Registry.creationRule?, Registry.mutationRules,
    TypeRef.sameCongr named, blankCongr named]

theorem prescribedInputs {g : Graph} (sound : g.registry.Sound) {read : TypeRef → Option Element}
    {t : TypeRef} {e : Element} (known : g.prescribed read t = some (.ok e)) :
    ∀ i, g.registry.Requires t i → ∃ e, read i = some e := by
  rintro i ⟨rule, member, own, declared⟩
  unfold prescribed at known
  cases outcome : g.created read t with
  | none =>
    rw [outcome] at known
    contradiction
  | some x =>
    rw [outcome] at known
    cases x with
    | error failure => simp at known
    | ok first =>
      rcases sound.ruleCases member own with creates | mutates
      · unfold created at outcome
        rw [creates] at outcome
        exact Rule.effectInputs outcome i declared
      · exact Rule.effectsInputs known rule mutates i declared

theorem createdMono {g g' : Graph} {t : TypeRef} {read read' : TypeRef → Option Element}
    (creation : g'.registry.creationRule? t = g.registry.creationRule? t)
    (blank : ∀ e, g.blank? t = some e → g'.blank? t = some e)
    (grows : ∀ i, g.registry.Requires t i → ∀ e, read i = some e → read' i = some e)
    {x : Except Failure Element} (made : g.created read t = some x) : g'.created read' t = some x := by
  unfold created at made ⊢
  rw [creation]
  cases listed : g.registry.creationRule? t with
  | none =>
    rw [listed] at made
    obtain ⟨e, found, rfl⟩ := Option.map_eq_some_iff.mp made
    simp [blank e found]
  | some rule =>
    rw [listed] at made
    have here : ∀ i ∈ rule.inputs, ∀ e, read i = some e → read' i = some e := by
      have holds := List.find?_some listed
      simp only [Bool.and_eq_true] at holds
      exact fun i declared => grows i ⟨rule, List.mem_of_find?_eq_some listed, holds.2, declared⟩
    dsimp only at made ⊢
    cases initializer : rule.isInitializer with
    | false =>
      rw [initializer] at made
      exact Rule.effectMono here made
    | true =>
      rw [initializer, if_pos rfl] at made
      rw [if_pos rfl]
      cases empty : g.blank? t with
      | some e =>
        rw [empty] at made
        rw [blank e empty]
        exact Rule.effectMono here made
      | none =>
        -- an initializer has no effect without an instance
        rw [empty] at made
        unfold Rule.isInitializer at initializer
        split at initializer
        · rename_i body
          simp [Rule.effect, body, Body.start?] at made
        · contradiction

theorem prescribedMono {g g' : Graph} {t : TypeRef} {read read' : TypeRef → Option Element}
    (creation : g'.registry.creationRule? t = g.registry.creationRule? t)
    (mutation : g'.registry.mutationRules t = g.registry.mutationRules t)
    (blank : ∀ e, g.blank? t = some e → g'.blank? t = some e)
    (grows : ∀ i, g.registry.Requires t i → ∀ e, read i = some e → read' i = some e)
    {x : Except Failure Element} (known : g.prescribed read t = some x) :
    g'.prescribed read' t = some x := by
  unfold prescribed at known ⊢
  rw [mutation]
  cases outcome : g.created read t with
  | none =>
    rw [outcome] at known
    contradiction
  | some y =>
    rw [outcome] at known
    rw [createdMono creation blank grows outcome]
    cases y with
    | error failure => exact known
    | ok e =>
      refine Rule.effectsMono (fun rule member i declared => grows i ?_) known
      obtain ⟨inside, holds⟩ := List.mem_filter.mp member
      simp only [Bool.and_eq_true] at holds
      exact ⟨rule, inside, holds.2, declared⟩

end Graph

end Realization
