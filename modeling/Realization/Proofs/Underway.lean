import Realization.Proofs.Dependency

/-!
Realizing under way. As long as only known types are asked for, the table of names stays as it is,
exactly the types on the stack are under way, and they form a chain of needs.
-/
namespace Realization.Graph

structure Underway (limit : Nat) (stack : List TypeRef) (g : Graph) : Prop where
  coherent : g.Coherent
  bounded : g.settings.maxDepth = limit
  small : g.nodes.length ≤ limit
  chained : g.Chained stack
  busy : ∀ t, g.standing t = .realizing ↔ ∃ s ∈ stack, s.name = t.name

def Knows (g : Graph) (duties : List Duty) : Prop :=
  ∀ via t, .input via t ∈ duties → t.name ∈ g.names

variable {limit : Nat} {stack : List TypeRef} {via : Option Locator} {own : Option Element}
  {g g₁ g' : Graph} {s t : TypeRef} {duties : List Duty} {result : Except Fault (Option Element)}

@[simp] theorem trackKnownNames (known : s.name ∈ g.names) : (g.track s).names = g.names := by
  unfold names track
  rw [Node.trackNames, if_pos]
  obtain ⟨n, member, named⟩ := List.mem_map.mp known
  exact List.any_eq_true.mpr ⟨n, member, TypeRef.sameIff.mpr named⟩

@[simp] theorem markedNames (g : Graph) (s : TypeRef) (outcome : Progress) :
    (g.mark s outcome).names = g.names := Node.markNames s outcome g.nodes

@[simp] theorem markedSubjects (g : Graph) (s : TypeRef) (outcome : Progress) :
    (g.mark s outcome).subjects = g.subjects := by
  unfold subjects mark Node.mark
  rw [List.map_map]
  congr 1
  funext n
  simp only [Function.comp_apply]
  split <;> rfl

@[simp] theorem enteredNames (known : s.name ∈ g.names) : (g.enter s).names = g.names := by
  simp [enter, known]

theorem namesLength (same : g'.names = g.names) : g'.nodes.length = g.nodes.length := by
  have lengths := congrArg List.length same
  simpa only [names, List.length_map] using lengths

theorem Knows.rest {duty : Duty} (knows : g.Knows (duty :: duties)) (names : g'.names = g.names) :
    g'.Knows duties := by
  intro via t member
  rw [names]
  exact knows via t (List.mem_cons_of_mem _ member)

theorem Grows.tracked (grows : g.Grows g') (tracked : g.Tracked) : g'.Tracked :=
  tracked.kept (by simp only [Registry.mentions, grows.rules]) grows.extends

theorem Tracked.enter (tracked : g.Tracked) (fresh : g.standing s = .unrealized) : (g.enter s).Tracked :=
  tracked.kept rfl (enterExtends fresh)

theorem Tracked.knows (tracked : g.Tracked) (indexed : g.registry.Indexed) (below : List TypeRef)
    (via : Option Locator) (s : TypeRef) : g.Knows (g.registry.duties below via s) :=
  fun _ _ member => tracked.known (indexed.dutyMentioned member)

namespace Underway

theorem resolveKnown (underway : Underway limit stack g) (knows : g.Knows (.input via t :: duties)) :
    (g.resolve t).name ∈ g.names := by
  simpa [underway.coherent.sound.indexed] using knows via t List.mem_cons_self

/- A turn that takes up or ends no realization. -/
theorem step (underway : Underway limit stack g) (grows : g.Grows g') (coherent : g'.Coherent)
    (names : g'.names = g.names) : Underway limit stack g' where
  coherent := coherent
  bounded := by rw [grows.settings, underway.bounded]
  small := by rw [namesLength names]; exact underway.small
  chained := underway.chained.congr names grows.rules
  busy t := (grows.realizing t).trans (underway.busy t)

theorem remember (underway : Underway limit stack g) {verdicts : Verdicts}
    {answer : Except Fault Contract} (made : contractFor s g.registry.verdicts = (answer, verdicts)) :
    Underway limit stack (g.withVerdicts verdicts) :=
  underway.step (growsContract made) (underway.coherent.told made) rfl

theorem ran (underway : Underway limit stack g) (id : RuleId) (rule : Rule)
    (outcome : Outcome Element) : Underway limit stack (g.ran id rule outcome) :=
  underway.step (growsRecord g _) (underway.coherent.record _) rfl

theorem track (underway : Underway limit stack g) (started : g.standing s ≠ .unrealized)
    (known : s.name ∈ g.names) : Underway limit stack (g.track s) :=
  underway.step (growsTrack g s) (underway.coherent.track started) (trackKnownNames known)

theorem apart (underway : Underway limit stack g) (fresh : g.standing t = .unrealized) :
    ∀ s ∈ stack, s.name ≠ t.name := by
  intro s member same
  have busy := (underway.busy t).mpr ⟨s, member, same⟩
  rw [fresh] at busy
  contradiction

theorem enter (underway : Underway limit stack g) (asks : g.registry.Asks stack via t)
    (fresh : g.standing (g.resolve t) = .unrealized) (known : t.name ∈ g.names) :
    Underway limit (stack ++ [g.resolve t]) (g.enter (g.resolve t)) := by
  have named := resolveName underway.coherent.sound.indexed t
  have here : g.standing t = .unrealized := (standingCongr named g).symm.trans fresh
  have names : (g.enter (g.resolve t)).names = g.names := enteredNames (by rw [named]; exact known)
  refine ⟨underway.coherent.enter fresh, underway.bounded, ?_, ?_, fun u => ?_⟩
  · rw [namesLength names]
    exact underway.small
  · exact (underway.chained.push asks named known (underway.apart here)).congr names rfl
  · rw [standingEnter]
    by_cases same : (g.resolve t).same u
    · simp only [if_pos same, true_iff]
      exact ⟨g.resolve t, by simp, TypeRef.sameIff.mp same⟩
    · rw [if_neg same, underway.busy]
      constructor
      · rintro ⟨s, member, same⟩
        exact ⟨s, List.mem_append_left _ member, same⟩
      · rintro ⟨s, member, named⟩
        rcases List.mem_append.mp member with member | member
        · exact ⟨s, member, named⟩
        · cases List.mem_singleton.mp member
          exact absurd (TypeRef.sameIff.mpr named) same

theorem free (underway : Underway limit stack g) (knows : g.Knows (.input via t :: duties))
    (fresh : g.standing (g.resolve t) = .unrealized) : stack.length < limit := by
  have named := resolveName underway.coherent.sound.indexed t
  have room := underway.chained.room (knows via t List.mem_cons_self)
    (underway.apart ((standingCongr named g).symm.trans fresh))
  exact Nat.lt_of_lt_of_le room underway.small

theorem cycle (underway : Underway limit stack g) (asks : g.registry.Asks stack via t)
    (busy : g.standing (g.resolve t) = .realizing) :
    Relation.TransGen g.registry.Needs t.name t.name := by
  obtain ⟨s, member, same⟩ := (underway.busy (g.resolve t)).mp busy
  rw [resolveName underway.coherent.sound.indexed] at same
  have path := underway.chained.reach asks member
  rwa [same] at path

theorem settle (underway : Underway limit stack g) (fresh : g.standing s = .unrealized)
    (grows : (g.enter s).Grows g₁) (names : g₁.names = g.names) {outcome : Progress}
    (ended : outcome = .failed ∨ ∃ e, outcome = .realized e)
    (coherent : (g₁.mark s outcome).Coherent) : Underway limit stack (g₁.mark s outcome) :=
  underway.step (grows.settle fresh ended) coherent ((markedNames g₁ s outcome).trans names)

theorem knows (underway : Underway limit stack g) (below : List TypeRef) (via : Option Locator)
    (s : TypeRef) : g.Knows (g.registry.duties below via s) :=
  underway.coherent.tracked.knows underway.coherent.sound.indexed below via s

end Underway

theorem Work.knownSubjects (work : Work limit stack duties own g result g') (indexed : g.registry.Indexed)
    (tracked : g.Tracked) (mentioned : ∀ via t, .input via t ∈ duties → t ∈ g.registry.mentions) :
    g'.subjects = g.subjects := by
  have here : ∀ {k : Graph} {via t} {rest : List Duty}, k.registry.Indexed → k.Tracked →
      (∀ via' u, .input via' u ∈ .input via t :: rest → u ∈ k.registry.mentions) →
      k.track (k.resolve t) = k := fun indexed tracked mentioned =>
    (tracked.admits indexed (mentioned _ _ List.mem_cons_self)).track indexed
  induction work with
  | done | lacking | unsynthesized | broke => rfl
  | synthesized made _ ih =>
    exact ih (indexed.congr rfl rfl) ((growsContract made).tracked tracked)
      fun via t member => mentioned via t (List.mem_cons_of_mem _ member)
  | ran _ _ _ _ _ _ ih =>
    exact ih indexed tracked fun via t member => mentioned via t (List.mem_cons_of_mem _ member)
  | present _ _ _ ih =>
    rw [here indexed tracked mentioned] at ih
    exact ih indexed tracked fun via t member => mentioned via t (List.mem_cons_of_mem _ member)
  | failed | cyclic | deep => rw [here indexed tracked mentioned]
  | @built _ _ t _ _ g e g₁ _ _ _ fresh _ inner _ ih ih' =>
    have grows := inner.grows.settle fresh (.inr ⟨e, rfl⟩)
    have entered := ih indexed (tracked.enter fresh) fun _ _ => indexed.dutyMentioned
    have later := ih' (indexed.congr grows.rules grows.entries) (grows.tracked tracked) fun via i member => by
      unfold Registry.mentions
      rw [grows.rules]
      exact mentioned via i (List.mem_cons_of_mem _ member)
    rw [later, markedSubjects, entered, enter, markedSubjects, here indexed tracked mentioned]
  | unbuilt _ fresh _ _ ih =>
    have entered := ih indexed (tracked.enter fresh) fun _ _ => indexed.dutyMentioned
    rw [markedSubjects, entered, enter, markedSubjects, here indexed tracked mentioned]

theorem Work.innerSubjects {below : List TypeRef} {h : Graph}
    (inner : Work limit below (g.registry.duties stack via s) own (g.enter s) result h)
    (indexed : g.registry.Indexed) (tracked : g.Tracked) (fresh : g.standing s = .unrealized) :
    h.subjects = (g.track s).subjects := by
  calc
    h.subjects = (g.enter s).subjects :=
      inner.knownSubjects indexed (tracked.enter fresh) fun _ _ => indexed.dutyMentioned
    _ = (g.track s).subjects := markedSubjects _ _ _

theorem Work.requestSubjects (work : Work limit stack [.input via t] own g result g')
    (indexed : g.registry.Indexed) (tracked : g.Tracked) : g'.subjects = (g.track (g.resolve t)).subjects := by
  cases work with
  | present _ _ later =>
    cases later
    rfl
  | failed | cyclic | deep => rfl
  | built _ fresh _ inner later =>
    cases later
    exact (markedSubjects _ _ _).trans (inner.innerSubjects indexed tracked fresh)
  | unbuilt _ fresh _ inner => exact (markedSubjects _ _ _).trans (inner.innerSubjects indexed tracked fresh)

theorem Work.innerNames {below : List TypeRef} {h : Graph}
    (inner : Work limit below (g.registry.duties stack via s) own (g.enter s) result h)
    (indexed : g.registry.Indexed) (tracked : g.Tracked) (fresh : g.standing s = .unrealized) :
    h.names = (g.track s).names := by
  rw [subjectNames, subjectNames, inner.innerSubjects indexed tracked fresh]

theorem Work.requestNames (work : Work limit stack [.input via t] own g result g')
    (indexed : g.registry.Indexed) (tracked : g.Tracked) : g'.names = (g.track (g.resolve t)).names := by
  rw [subjectNames, subjectNames, work.requestSubjects indexed tracked]

theorem Work.knownNames (work : Work limit stack duties own g result g') (indexed : g.registry.Indexed)
    (tracked : g.Tracked) (knows : g.Knows duties) : g'.names = g.names := by
  have resolved : ∀ {h : Graph} {via t} {rest : List Duty}, h.registry.Indexed →
      h.Knows (.input via t :: rest) → (h.resolve t).name ∈ h.names := by
    intro h via t rest indexed knows
    simpa [indexed] using knows via t List.mem_cons_self
  induction work with
  | done | lacking | unsynthesized | broke => rfl
  | synthesized made _ ih =>
    exact ih (indexed.congr rfl rfl) ((growsContract made).tracked tracked) (knows.rest rfl)
  | ran _ _ _ _ _ _ ih => exact ih indexed tracked (knows.rest rfl)
  | present _ _ _ ih =>
    have names := trackKnownNames (resolved indexed knows)
    exact (ih indexed ((growsTrack _ _).tracked tracked) (knows.rest names)).trans names
  | failed | cyclic | deep => exact trackKnownNames (resolved indexed knows)
  | @built _ _ t _ _ g e g₁ _ _ _ fresh _ inner _ _ ih' =>
    have grows := inner.grows.settle fresh (.inr ⟨e, rfl⟩)
    have names : (g₁.mark (g.resolve t) (.realized e)).names = g.names := by
      rw [markedNames, inner.innerNames indexed tracked fresh, trackKnownNames (resolved indexed knows)]
    exact (ih' (indexed.congr grows.rules grows.entries) (grows.tracked tracked) (knows.rest names)).trans names
  | unbuilt _ fresh _ inner =>
    rw [markedNames, inner.innerNames indexed tracked fresh, trackKnownNames (resolved indexed knows)]

theorem Underway.opened (underway : Underway limit stack g) (knows : g.Knows (.input via t :: duties))
    (asks : g.registry.Asks stack via t) (fresh : g.standing (g.resolve t) = .unrealized) :
    Underway limit (stack ++ [g.resolve t]) (g.enter (g.resolve t)) ∧
      (g.enter (g.resolve t)).Knows (g.registry.duties stack via (g.resolve t)) := by
  have entered := underway.enter asks fresh (knows _ _ List.mem_cons_self)
  exact ⟨entered, entered.knows _ _ _⟩

theorem Underway.innerNames (underway : Underway limit stack g) (knows : g.Knows (.input via t :: duties))
    {below : List TypeRef}
    (inner : Work limit below (g.registry.duties stack via (g.resolve t)) own (g.enter (g.resolve t)) result g₁)
    (fresh : g.standing (g.resolve t) = .unrealized) : g₁.names = g.names := by
  calc
    g₁.names = (g.track (g.resolve t)).names :=
      inner.innerNames underway.coherent.sound.indexed underway.coherent.tracked fresh
    _ = g.names := trackKnownNames (underway.resolveKnown knows)

theorem Work.underway (work : Work limit stack duties own g result g')
    (underway : Underway limit stack g) (knows : g.Knows duties) :
    Underway limit stack g' ∧ g'.names = g.names := by
  refine ⟨?_, work.knownNames underway.coherent.sound.indexed underway.coherent.tracked knows⟩
  induction work with
  | done | lacking => exact underway
  | synthesized made _ ih => exact ih (underway.remember made) (knows.rest rfl)
  | unsynthesized made => exact underway.remember made
  | ran _ _ _ _ _ _ ih => exact ih (underway.ran _ _ _) (knows.rest rfl)
  | broke => exact underway.ran _ _ _
  | present _ settled _ ih =>
    have known := underway.resolveKnown knows
    exact ih (underway.track (by simp [settled]) known) (knows.rest (trackKnownNames known))
  | failed _ settled => exact underway.track (by simp [settled]) (underway.resolveKnown knows)
  | cyclic _ busy => exact underway.track (by simp [busy]) (underway.resolveKnown knows)
  | deep _ fresh full => exact absurd (underway.free knows fresh) (Nat.not_lt.mpr full)
  | built asks fresh free inner _ ih ih' =>
    obtain ⟨entered, known⟩ := underway.opened knows asks fresh
    have inside := ih entered known
    have names := underway.innerNames knows inner fresh
    exact ih' (underway.settle fresh inner.grows names (.inr ⟨_, rfl⟩)
        (inner.builtCoherent underway.coherent.sound.indexed inside.coherent))
      (knows.rest ((markedNames _ _ _).trans names))
  | unbuilt asks fresh _ inner ih =>
    obtain ⟨entered, known⟩ := underway.opened knows asks fresh
    have inside := ih entered known
    have names := underway.innerNames knows inner fresh
    exact underway.settle fresh inner.grows names (.inl rfl) (inner.unbuiltCoherent inside.coherent)

theorem Underway.built {e : Element} (underway : Underway limit stack g)
    (knows : g.Knows (.input via t :: duties)) (asks : g.registry.Asks stack via t)
    (fresh : g.standing (g.resolve t) = .unrealized) (free : stack.length < limit)
    (inner : Work limit (stack ++ [g.resolve t]) (g.registry.duties stack via (g.resolve t)) none
      (g.enter (g.resolve t)) (.ok (some e)) g₁) :
    Underway limit stack (g₁.mark (g.resolve t) (.realized e)) ∧
      (g₁.mark (g.resolve t) (.realized e)).names = g.names := by
  have turn : Work limit stack [.input via t] none g (.ok none) (g₁.mark (g.resolve t) (.realized e)) :=
    .built asks fresh free inner .done
  exact turn.underway underway fun via t member =>
    knows via t (by rw [List.mem_singleton.mp member]; exact List.mem_cons_self)

end Realization.Graph
