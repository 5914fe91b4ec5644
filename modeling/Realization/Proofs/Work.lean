import Realization.Proofs.Growth

/-!
Realizing as work on a list of duties. A type is built by the duties that the registry sets for it:
to synthesize an instance, to obtain an input, to run a rule. `Work` relates a list of duties, the
element so far and the graph to what comes of them; it has one constructor for each turn that
realizing can take, and proofs about realizing go by induction on it. The limit bounds the stack.
-/
namespace Realization

inductive Duty where
  | synthesize (subject : TypeRef)
  | input (via : Option Locator) (type : TypeRef)
  | run (subject : TypeRef) (id : RuleId) (rule : Rule)
  | lack (subject : TypeRef) (requiredBy : Option TypeRef) (via : Option Locator)

def Duty.owner? : Duty → Option TypeRef
  | .synthesize s | .lack s _ _ | .run s _ _ => some s
  | .input _ _ => none

def Body.start? : Body → Option Element → Option (Inputs → Outcome Element)
  | .producer run, _ => some run
  | .initializer run, some e | .mutator run, some e => some (run e)
  | .initializer _, none | .mutator _, none => none

def Rule.duties (subject : TypeRef) (id : RuleId) (rule : Rule) : List Duty :=
  rule.inputs.map (.input (some rule.locator)) ++ [.run subject id rule]

namespace Registry

def creationDuties (r : Registry) (below : List TypeRef) (via : Option Locator)
    (subject : TypeRef) : List Duty :=
  match r.creator? subject with
  | some (id, rule) =>
    (if rule.isInitializer then [.synthesize subject] else []) ++ rule.duties subject id
  | none => if subject.isManaged then [.synthesize subject] else [.lack subject below.getLast? via]

def mutationDuties (r : Registry) (subject : TypeRef) : List Duty :=
  (r.mutators subject).flatMap fun (id, rule) => rule.duties subject id

def duties (r : Registry) (below : List TypeRef) (via : Option Locator) (subject : TypeRef) :
    List Duty :=
  r.creationDuties below via subject ++ r.mutationDuties subject

theorem dutiesKept {r r' : Registry} {below : List TypeRef} {via : Option Locator} {s : TypeRef}
    (rules : r'.rules = r.rules) (entries : r'.entries = r.entries) :
    r'.duties below via s = r.duties below via s := by
  simp only [duties, creationDuties, mutationDuties, creatorKept rules entries,
    mutatorsKept rules entries (rfl : s.name = s.name)]

theorem ruleDuties {s : TypeRef} {id : RuleId} {rule : Rule} {duty : Duty}
    (member : duty ∈ rule.duties s id) :
    (∃ i ∈ rule.inputs, duty = .input (some rule.locator) i) ∨ duty = .run s id rule := by
  rcases List.mem_append.mp member with input | run
  · obtain ⟨i, declared, rfl⟩ := List.mem_map.mp input
    exact .inl ⟨i, declared, rfl⟩
  · exact .inr (List.mem_singleton.mp run)

theorem Indexed.dutyCases {r : Registry} (indexed : r.Indexed) {below : List TypeRef}
    {via : Option Locator} {s : TypeRef} {duty : Duty} (member : duty ∈ r.duties below via s) :
    (duty = .synthesize s ∧ ((∃ p, r.creator? s = some p ∧ p.2.isInitializer = true) ∨
        r.creator? s = none ∧ s.isManaged = true)) ∨
      (duty = .lack s below.getLast? via ∧ r.creator? s = none ∧ s.isManaged = false) ∨
      ∃ id rule, r.rule? id = some rule ∧ rule ∈ r.rules ∧ rule.subject.same s = true ∧
        ((∃ i ∈ rule.inputs, duty = .input (some rule.locator) i) ∨ duty = .run s id rule) := by
  rcases List.mem_append.mp member with creation | mutation
  · unfold creationDuties at creation
    cases found : r.creator? s with
    | none =>
      rw [found] at creation
      dsimp only at creation
      cases managed : s.isManaged with
      | true =>
        rw [managed, if_pos rfl] at creation
        exact .inl ⟨List.mem_singleton.mp creation, .inr ⟨rfl, rfl⟩⟩
      | false =>
        rw [managed] at creation
        exact .inr (.inl ⟨List.mem_singleton.mp creation, rfl, rfl⟩)
    | some p =>
      obtain ⟨id, rule⟩ := p
      rw [found] at creation
      dsimp only at creation
      rcases List.mem_append.mp creation with synthesis | own
      · cases initializer : rule.isInitializer with
        | false => simp [initializer] at synthesis
        | true =>
          rw [initializer, if_pos rfl] at synthesis
          exact .inl ⟨List.mem_singleton.mp synthesis, .inl ⟨_, rfl, initializer⟩⟩
      · obtain ⟨known, inside, _, applies⟩ := indexed.creatorFound found
        exact .inr (.inr ⟨id, rule, known, inside, applies, ruleDuties own⟩)
  · obtain ⟨⟨id, rule⟩, listed, own⟩ := List.mem_flatMap.mp mutation
    obtain ⟨known, inside, _, applies⟩ := indexed.mutatorFound listed
    exact .inr (.inr ⟨id, rule, known, inside, applies, ruleDuties own⟩)

theorem Indexed.dutyOwner {r : Registry} (indexed : r.Indexed) {below : List TypeRef}
    {via : Option Locator} {s u : TypeRef} {duty : Duty} (member : duty ∈ r.duties below via s)
    (owned : duty.owner? = some u) : u = s := by
  rcases indexed.dutyCases member with ⟨rfl, _⟩ | ⟨rfl, _⟩ | ⟨id, rule, _, _, _, ⟨i, _, rfl⟩ | rfl⟩
  · exact (Option.some.inj owned).symm
  · exact (Option.some.inj owned).symm
  · contradiction
  · exact (Option.some.inj owned).symm

/- Who may ask for a type: whoever uses the graph, or a rule of the type being realized. -/
inductive Asks (r : Registry) : List TypeRef → Option Locator → TypeRef → Prop where
  | request (t : TypeRef) : Asks r [] none t
  | input {below subject rule t} (member : rule ∈ r.rules)
      (own : rule.subject.same subject = true) (declared : t ∈ rule.inputs) :
      Asks r (below ++ [subject]) (some rule.locator) t

end Registry

namespace Graph

def ran (g : Graph) (id : RuleId) (rule : Rule) (outcome : Outcome Element) : Graph :=
  g.record (.started id rule.locator :: outcome.notes.map .noted)

inductive Work (limit : Nat) : List TypeRef → List Duty → Option Element → Graph →
    Except Fault (Option Element) → Graph → Prop where
  | done {stack own g} : Work limit stack [] own g (.ok own) g
  | synthesized {stack subject rest own g contract verdicts result g'}
      (answer : contractFor subject g.registry.verdicts = (.ok contract, verdicts))
      (later : Work limit stack rest (some (.managed (.blank contract))) (g.withVerdicts verdicts)
        result g') :
      Work limit stack (.synthesize subject :: rest) own g result g'
  | unsynthesized {stack subject rest own g fault verdicts}
      (answer : contractFor subject g.registry.verdicts = (.error fault, verdicts)) :
      Work limit stack (.synthesize subject :: rest) own g (.error fault) (g.withVerdicts verdicts)
  | lacking {stack subject requiredBy via rest own g} :
      Work limit stack (.lack subject requiredBy via :: rest) own g
        (.error (.noCreator subject requiredBy via)) g
  | ran {stack subject id rule rest own g body inputs e result g'}
      (known : g.registry.rule? id = some rule) (applies : rule.subject.same subject = true)
      (starts : rule.body.start? own = some body) (given : g.inputsFor rule.inputs = .ok inputs)
      (outcome : (body inputs).result = .ok e)
      (later : Work limit stack rest (some e) (g.ran id rule (body inputs)) result g') :
      Work limit stack (.run subject id rule :: rest) own g result g'
  | broke {stack subject id rule rest own g body inputs failure}
      (known : g.registry.rule? id = some rule) (applies : rule.subject.same subject = true)
      (starts : rule.body.start? own = some body) (given : g.inputsFor rule.inputs = .ok inputs)
      (outcome : (body inputs).result = .error failure) :
      Work limit stack (.run subject id rule :: rest) own g
        (.error (.ruleFailed subject rule.locator failure)) (g.ran id rule (body inputs))
  | present {stack via t rest own g e result g'} (asks : g.registry.Asks stack via t)
      (settled : g.standing (g.resolve t) = .realized e)
      (later : Work limit stack rest own (g.track (g.resolve t)) result g') :
      Work limit stack (.input via t :: rest) own g result g'
  | failed {stack via t rest own g} (asks : g.registry.Asks stack via t)
      (settled : g.standing (g.resolve t) = .failed) :
      Work limit stack (.input via t :: rest) own g (.error (.previouslyFailed (g.resolve t)))
        (g.track (g.resolve t))
  | cyclic {stack via t rest own g} (asks : g.registry.Asks stack via t)
      (busy : g.standing (g.resolve t) = .realizing) :
      Work limit stack (.input via t :: rest) own g
        (.error (.cyclic (chainTo stack (g.resolve t)) via)) (g.track (g.resolve t))
  | deep {stack via t rest own g} (asks : g.registry.Asks stack via t)
      (fresh : g.standing (g.resolve t) = .unrealized) (full : limit ≤ stack.length) :
      Work limit stack (.input via t :: rest) own g
        (.error (.depthExceeded (g.resolve t) limit)) (g.track (g.resolve t))
  | built {stack via t rest own g e g₁ result g'} (asks : g.registry.Asks stack via t)
      (fresh : g.standing (g.resolve t) = .unrealized) (room : stack.length < limit)
      (inner : Work limit (stack ++ [g.resolve t]) (g.registry.duties stack via (g.resolve t)) none
        (g.enter (g.resolve t)) (.ok (some e)) g₁)
      (later : Work limit stack rest own (g₁.mark (g.resolve t) (.realized e)) result g') :
      Work limit stack (.input via t :: rest) own g result g'
  | unbuilt {stack via t rest own g fault g₁} (asks : g.registry.Asks stack via t)
      (fresh : g.standing (g.resolve t) = .unrealized) (room : stack.length < limit)
      (inner : Work limit (stack ++ [g.resolve t]) (g.registry.duties stack via (g.resolve t)) none
        (g.enter (g.resolve t)) (.error fault) g₁) :
      Work limit stack (.input via t :: rest) own g (.error fault)
        (g₁.mark (g.resolve t) .failed)

variable {limit : Nat} {stack : List TypeRef} {own own₁ : Option Element} {g g₁ g' : Graph}
  {result : Except Fault (Option Element)}

theorem contractForKeeps {P : Verdicts → Prop} (kept : Verdicts.Kept P) (t : TypeRef) {v : Verdicts}
    (holds : P v) : P (contractFor t v).2 := by
  unfold contractFor
  cases t.declaration? with
  | none => exact holds
  | some d =>
    have learnt := kept v d holds
    dsimp only
    split <;> rename_i answer <;> rw [answer] at learnt <;> exact learnt

theorem contractForWithin (t : TypeRef) (v : Verdicts) : v.Within (contractFor t v).2 :=
  contractForKeeps v.withinKept t v.withinRefl

theorem contractForGenuine (t : TypeRef) {v : Verdicts} (genuine : v.Genuine) : (contractFor t v).2.Genuine :=
  contractForKeeps Verdicts.genuineKept t genuine

theorem contractForMade {s : TypeRef} {v w : Verdicts} {contract : Contract} :
    contractFor s v = (.ok contract, w) ↔ ∃ d, s = .managed d ∧ v.validate d = (.ok contract, w) := by
  cases s with
  | plain name => simp [contractFor, TypeRef.declaration?]
  | managed d =>
    simp only [contractFor, TypeRef.declaration?]
    rcases answer : v.validate d with ⟨violation | passed, learnt⟩ <;> simp [answer]

theorem contractForNoHarsher {s : TypeRef} {v w : Verdicts} {contract : Contract}
    (made : contractFor s v = (.ok contract, w)) : v.NoHarsher w := by
  obtain ⟨_, _, passed⟩ := contractForMade.mp made
  exact Verdicts.validateNoHarsher passed

theorem contractForKept {s : TypeRef} {v v' w : Verdicts} {contract : Contract} (within : v.Within w)
    (noHarsher : v.NoHarsher w) (made : contractFor s v = (.ok contract, v')) :
    ∃ contract' w', contractFor s w = (.ok contract', w') := by
  obtain ⟨d, rfl, passed⟩ := contractForMade.mp made
  obtain ⟨contract', w', again⟩ := Verdicts.validateKept within noHarsher passed
  exact ⟨contract', w', contractForMade.mpr ⟨d, rfl, again⟩⟩

theorem contractForDeclared {t : TypeRef} {v v' : Verdicts} {contract : Contract}
    (answer : contractFor t v = (.ok contract, v')) :
    ∃ d, t = .managed d ∧ v'.find? d.fingerprint = some (.ok contract) := by
  obtain ⟨d, form, passed⟩ := contractForMade.mp answer
  have found := v.validateFound d
  rw [passed] at found
  exact ⟨d, form, found⟩

theorem growsContract {t : TypeRef} {answer : Except Fault Contract} {verdicts : Verdicts}
    (made : contractFor t g.registry.verdicts = (answer, verdicts)) :
    g.Grows (g.withVerdicts verdicts) := by
  have within := contractForWithin t g.registry.verdicts
  rw [made] at within
  exact growsVerdicts g within

theorem Work.grows {duties : List Duty} (work : Work limit stack duties own g result g') :
    g.Grows g' := by
  induction work with
  | done => exact growsRefl _
  | synthesized answer _ ih => exact (growsContract answer).trans ih
  | unsynthesized answer => exact growsContract answer
  | lacking => exact growsRefl _
  | ran _ _ _ _ _ _ ih => exact (growsRecord _ _).trans ih
  | broke => exact growsRecord _ _
  | present _ _ _ ih => exact (growsTrack _ _).trans ih
  | failed => exact growsTrack _ _
  | cyclic => exact growsTrack _ _
  | deep => exact growsTrack _ _
  | @built _ _ _ _ _ _ e _ _ _ _ fresh _ _ _ inner later =>
    exact (inner.settle fresh (.inr ⟨e, rfl⟩)).trans later
  | unbuilt _ fresh _ _ inner => exact inner.settle fresh (.inl rfl)

theorem Work.andThen {first second : List Duty}
    (work : Work limit stack first own g (.ok own₁) g₁)
    (next : Work limit stack second own₁ g₁ result g') :
    Work limit stack (first ++ second) own g result g' := by
  generalize answer : Except.ok own₁ = middle at work
  induction work with
  | done => cases answer; exact next
  | synthesized made _ ih => exact .synthesized made (ih next answer)
  | ran known applies starts given outcome _ ih => exact .ran known applies starts given outcome (ih next answer)
  | present asks settled _ ih => exact .present asks settled (ih next answer)
  | built asks fresh room inner _ _ ih => exact .built asks fresh room inner (ih next answer)
  | unsynthesized | lacking | broke | failed | cyclic | deep | unbuilt => contradiction

theorem Work.stop {first : List Duty} {fault : Fault}
    (work : Work limit stack first own g (.error fault) g') (second : List Duty) :
    Work limit stack (first ++ second) own g (.error fault) g' := by
  generalize answer : Except.error fault = outcome at work
  induction work with
  | done => contradiction
  | synthesized made _ ih => exact .synthesized made (ih answer)
  | unsynthesized made => cases answer; exact .unsynthesized made
  | lacking => cases answer; exact .lacking
  | ran known applies starts given outcome _ ih => exact .ran known applies starts given outcome (ih answer)
  | broke known applies starts given outcome => cases answer; exact .broke known applies starts given outcome
  | present asks settled _ ih => exact .present asks settled (ih answer)
  | failed asks settled => cases answer; exact .failed asks settled
  | cyclic asks busy => cases answer; exact .cyclic asks busy
  | deep asks fresh full => cases answer; exact .deep asks fresh full
  | built asks fresh room inner _ _ ih => exact .built asks fresh room inner (ih answer)
  | unbuilt asks fresh room inner _ => cases answer; exact .unbuilt asks fresh room inner

structure Ready (limit : Nat) (g : Graph) : Prop where
  indexed : g.registry.Indexed
  limit : g.settings.maxDepth = limit

theorem Ready.grow (ready : Ready limit g) (grows : g.Grows g') : Ready limit g' where
  indexed := ready.indexed.congr grows.rules grows.entries
  limit := by rw [grows.settings, ready.limit]

theorem Work.obtained {duties : List Duty} (work : Work limit stack duties own g (.ok own₁) g')
    (indexed : g.registry.Indexed) {via : Option Locator} {t : TypeRef} (member : .input via t ∈ duties) :
    ∃ e, g'.stored t = some e := by
  generalize answer : Except.ok own₁ = outcome at work
  induction work with
  | done => contradiction
  | synthesized made later ih =>
    rcases List.mem_cons.mp member with impossible | member
    · contradiction
    · exact ih (indexed.congr rfl rfl) member answer
  | ran known applies starts given outcome later ih =>
    rcases List.mem_cons.mp member with impossible | member
    · contradiction
    · exact ih indexed member answer
  | @present _ _ u _ _ g e _ _ asks settled later ih =>
    rcases List.mem_cons.mp member with same | member
    · cases same
      rw [standingCongr (resolveName indexed t)] at settled
      exact ⟨e, ((growsTrack g _).trans later.grows).stored (storedIff.mpr settled)⟩
    · exact ih indexed member answer
  | @built _ _ u _ _ g e g₁ _ _ asks fresh room inner later _ ih =>
    have settled := inner.grows.settle fresh (.inr ⟨e, rfl⟩)
    rcases List.mem_cons.mp member with same | member
    · cases same
      have here : (g₁.mark (g.resolve t) (.realized e)).standing t = .realized e := by
        simp [standingSettle inner.grows, indexed]
      exact ⟨e, later.grows.stored (storedIff.mpr here)⟩
    · exact ih (indexed.congr settled.rules settled.entries) member answer
  | unsynthesized | lacking | broke | failed | cyclic | deep | unbuilt => contradiction

end Graph

end Realization
