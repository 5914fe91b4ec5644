import Realization.Graph.Session
import Realization.Proofs.RuleIndex

/-!
What a registry holds after any registrations. A rule gets in only past the checks, so in every
reachable registry the index is exact, every managed type that a rule mentions has a verdict of
acceptance in memory, and every initializer works on a type with a managed form.
-/
namespace Realization

theorem Verdicts.genuineAfter (declarations : List Declaration) : (after declarations).Genuine :=
  genuineKept.fold declarations genuineEmpty

namespace Registry

theorem checkContractsKeeps {P : Verdicts → Prop} (kept : Verdicts.Kept P) (locator : Locator)
    (ts : List TypeRef) {v : Verdicts} (holds : P v) : P (checkContracts locator ts v).2 := by
  induction ts generalizing v with
  | nil => exact holds
  | cons t rest ih =>
    unfold checkContracts
    cases t.declaration? with
    | none => exact ih holds
    | some d =>
      have learnt := kept v d holds
      dsimp only
      split <;> rename_i answer <;> rw [answer] at learnt
      · exact ih learnt
      · exact learnt

theorem checkContractsWithin (locator : Locator) (ts : List TypeRef) (v : Verdicts) :
    v.Within (checkContracts locator ts v).2 := checkContractsKeeps v.withinKept locator ts v.withinRefl

theorem checkContractsAccepts {locator : Locator} {ts : List TypeRef} {v : Verdicts}
    (passed : (checkContracts locator ts v).1 = .ok ()) {t : TypeRef} (member : t ∈ ts)
    {d : Declaration} (declared : t.declaration? = some d) :
    (checkContracts locator ts v).2.Accepts d := by
  induction ts generalizing v with
  | nil => contradiction
  | cons head rest ih =>
    unfold checkContracts at passed ⊢
    rcases List.mem_cons.mp member with rfl | later
    · rw [declared] at passed ⊢
      have found := v.validateFound d
      dsimp only at passed ⊢
      split at passed
      · rename_i contract w answer
        rw [answer] at found
        exact Verdicts.Accepts.within ⟨contract, found⟩ (checkContractsWithin locator rest w)
      · contradiction
    · cases other : head.declaration? with
      | none =>
        rw [other] at passed
        exact ih passed later
      | some d' =>
        rw [other] at passed
        dsimp only at passed ⊢
        split at passed
        · exact ih passed later
        · contradiction

structure Sound (r : Registry) : Prop where
  indexed : r.Indexed
  sole : ∀ t, (r.creatorsOf t).length ≤ 1
  genuine : r.verdicts.Genuine
  accepted : ∀ t ∈ r.mentions, ∀ d, t.declaration? = some d → r.verdicts.Accepts d
  initializers : ∀ rule ∈ r.rules, rule.isInitializer = true →
    ∃ t ∈ r.mentions, t.same rule.subject = true ∧ t.isManaged = true
  listed : ∀ e ∈ r.entries, e.Within r.mentions

theorem soundEmpty {verdicts : Verdicts} (genuine : verdicts.Genuine) :
    Sound { verdicts } where
  indexed := indexedEmpty verdicts
  sole _ := by simp [creatorsOf, numbered]
  genuine := genuine
  accepted t member := by simp [mentions] at member
  initializers rule member := by simp at member
  listed e member := by simp at member

theorem Sound.grow {r : Registry} (sound : r.Sound) {verdicts : Verdicts}
    (within : r.verdicts.Within verdicts) (genuine : verdicts.Genuine) :
    Sound { r with verdicts } where
  indexed := sound.indexed.congr rfl rfl
  sole := sound.sole
  genuine := genuine
  accepted t member d declared := (sound.accepted t member d declared).within within
  initializers := sound.initializers
  listed := sound.listed

theorem insertIndexed {r : Registry} (indexed : r.Indexed) {rule : Rule}
    (first : rule.creates = true → r.creatorsOf rule.subject = []) : (r.insert rule).Indexed where
  creator t := by
    have noted := (entryInsert r rule t).creator
    have before := indexed.creator t
    rw [noted, creatorsInsert, List.map_append, before]
    by_cases same : rule.subject.same t
    · by_cases creates : rule.creates
      · have none : (r.entry? t).bind (·.creator) = none := by
          have empty := first creates
          simp only [creatorsOf, TypeRef.sameCongr (TypeRef.sameIff.mp same)] at empty
          simpa [creatorsOf, empty] using before
        simp [same, creates, none]
      · cases entry : r.entry? t <;> simp [same, creates]
    · simp [same]
  mutators t := by
    have noted := (entryInsert r rule t).mutators
    have before := indexed.mutators t
    rw [noted, mutatorsInsert, List.map_append, before]
    by_cases same : rule.subject.same t
    · cases entry : r.entry? t <;> cases creates : rule.creates <;> simp [same, creates]
    · simp [same]
  managed t := by
    have noted := (entryInsert r rule t).managed
    have before := indexed.managed t
    rw [noted, mentionsInsert, List.find?_append, ← before]
    by_cases same : rule.subject.same t
    · cases entry : r.entry? t <;> cases managed : rule.subject.isManaged <;> simp [same, managed, Rule.mentions]
    · simp [same, Rule.mentions]
  type t := by
    have noted := (entryInsert r rule t).type
    have before := indexed.type t
    rw [noted, mentionsInsert, List.find?_append, ← before]
    by_cases same : rule.subject.same t
    · cases entry : r.entry? t <;> simp [same, Rule.mentions]
    · simp [same, Rule.mentions]

theorem openFirst {r : Registry} (indexed : r.Indexed) {rule : Rule}
    (passed : r.checkOpen rule = .ok ()) (creates : rule.creates = true) :
    r.creatorsOf rule.subject = [] := by
  unfold checkOpen at passed
  split at passed
  · contradiction
  · rw [← indexed.creatorExact]
    cases existing : r.creator? rule.subject with
    | none => rfl
    | some p =>
      rw [existing] at passed
      contradiction

/- The subject is known as managed: a rule before this one declared it, or this one does and is the first to mention
its name. -/
def KnownManaged (r : Registry) (rule : Rule) : Prop :=
  (∃ m ∈ r.mentions, m.name = rule.subject.name ∧ m.isManaged = true) ∨
    rule.subject.isManaged = true ∧ ∀ m ∈ r.mentions, m.name ≠ rule.subject.name

theorem Indexed.subjectExact {r : Registry} {rule : Rule} (indexed : r.Indexed) :
    ((r.resolve? rule.subject).getD rule.subject).isManaged = true ↔ r.KnownManaged rule := by
  rw [indexed.resolveExact]
  constructor
  · intro managed
    cases first : r.mentions.find? fun m => m.same rule.subject && m.isManaged with
    | some m =>
      have holds := List.find?_some first
      simp only [Bool.and_eq_true, TypeRef.sameIff] at holds
      exact .inl ⟨m, List.mem_of_find?_eq_some first, holds⟩
    | none =>
      cases known : r.mentions.find? (·.same rule.subject) with
      | some m =>
        -- a type known only in its plain form is not resolved to a managed one
        rw [first, known] at managed
        have same := List.find?_some (p := fun m : TypeRef => m.same rule.subject) known
        have absent := List.find?_eq_none.mp first m (List.mem_of_find?_eq_some known)
        exact absurd (Bool.and_eq_true_iff.mpr ⟨same, managed⟩) absent
      | none =>
        rw [first, known] at managed
        refine .inr ⟨managed, fun m member named => ?_⟩
        exact List.find?_eq_none.mp known m member (TypeRef.sameIff.mpr named)
  · rintro (⟨m, member, named, managed⟩ | ⟨managed, unknown⟩)
    · cases first : r.mentions.find? fun m => m.same rule.subject && m.isManaged with
      | some m' =>
        have holds := List.find?_some first
        exact (Bool.and_eq_true_iff.mp holds).2
      | none =>
        have absent := List.find?_eq_none.mp first m member
        exact absurd (Bool.and_eq_true_iff.mpr ⟨TypeRef.sameIff.mpr named, managed⟩) absent
    · have nobody : r.mentions.find? (·.same rule.subject) = none :=
        List.find?_eq_none.mpr fun m member same => unknown m member (TypeRef.sameIff.mp same)
      have nobody' : (r.mentions.find? fun m => m.same rule.subject && m.isManaged) = none :=
        List.find?_eq_none.mpr fun m member both =>
          unknown m member (TypeRef.sameIff.mp (Bool.and_eq_true_iff.mp both).1)
      rw [nobody, nobody']
      exact managed

theorem Indexed.subjectPass {r : Registry} {rule : Rule} (indexed : r.Indexed) :
    r.checkSubject rule = .ok () ↔ (rule.isInitializer = true → r.KnownManaged rule) := by
  unfold checkSubject
  rw [← indexed.subjectExact]
  cases rule.isInitializer <;> cases ((r.resolve? rule.subject).getD rule.subject).isManaged <;> simp

theorem checkedInitializer {r : Registry} (indexed : r.Indexed) {rule : Rule}
    (passed : r.checkSubject rule = .ok ()) (initializer : rule.isInitializer = true) :
    ∃ t ∈ r.mentions ++ rule.mentions, t.same rule.subject = true ∧ t.isManaged = true := by
  rcases indexed.subjectPass.mp passed initializer with ⟨m, member, named, managed⟩ | ⟨managed, _⟩
  · exact ⟨m, List.mem_append_left _ member, TypeRef.sameIff.mpr named, managed⟩
  · exact ⟨rule.subject, List.mem_append_right _ List.mem_cons_self, by simp [TypeRef.same], managed⟩

theorem insertListed {r : Registry} (listed : ∀ e ∈ r.entries, e.Within r.mentions) (rule : Rule) :
    ∀ e ∈ (r.insert rule).entries, e.Within (r.insert rule).mentions := by
  have wider : ∀ e ∈ r.entries, e.Within (r.insert rule).mentions := by
    intro e member
    obtain ⟨type, managed⟩ := listed e member
    rw [mentionsInsert]
    exact ⟨List.mem_append_left _ type, fun m same => List.mem_append_left _ (managed m same)⟩
  have fresh : ∀ t ∈ rule.mentions, t ∈ (r.insert rule).mentions := by
    intro t member
    rw [mentionsInsert]
    exact List.mem_append_right _ member
  have keeps : ∀ e : Entry, e.Within (r.insert rule).mentions →
      (Entry.enlist rule r.rules.length e).Within (r.insert rule).mentions := by
    intro e within
    unfold Entry.Within
    rw [Entry.enlistType, Entry.enlistManaged]
    exact within
  have enlisted := Entry.updateWithin (fresh rule.subject List.mem_cons_self) keeps wider
  have inputs : ∀ (ts : List TypeRef) (entries : List Entry),
      (∀ t ∈ ts, t ∈ (r.insert rule).mentions) → (∀ e ∈ entries, e.Within (r.insert rule).mentions) →
      ∀ e ∈ ts.foldl (fun entries t => Entry.update t id entries) entries,
        e.Within (r.insert rule).mentions := by
    intro ts
    induction ts with
    | nil => exact fun entries _ within => within
    | cons t rest ih =>
      intro entries known within
      exact ih _ (fun u member => known u (List.mem_cons_of_mem _ member))
        (Entry.updateWithin (known t List.mem_cons_self) (fun e within => within) within)
  exact inputs rule.inputs _ (fun t member => fresh t (List.mem_cons_of_mem _ member)) enlisted

theorem insertSound {r : Registry} (sound : r.Sound) {rule : Rule}
    (opened : r.checkOpen rule = .ok ()) (subject : r.checkSubject rule = .ok ())
    (contracts : ∀ t ∈ rule.mentions, ∀ d, t.declaration? = some d → r.verdicts.Accepts d) :
    (r.insert rule).Sound where
  indexed := insertIndexed sound.indexed (openFirst sound.indexed opened)
  sole t := by
    rw [creatorsInsert]
    by_cases creates : rule.creates = true
    · by_cases same : rule.subject.same t = true
      · have empty := openFirst sound.indexed opened creates
        simp only [creatorsOf, TypeRef.sameCongr (TypeRef.sameIff.mp same)] at empty
        simp [creatorsOf, empty, creates, same]
      · simpa [same] using sound.sole t
    · simpa [creates] using sound.sole t
  genuine := sound.genuine
  accepted t member d declared := by
    rw [mentionsInsert] at member
    rcases List.mem_append.mp member with old | new
    · exact sound.accepted t old d declared
    · exact contracts t new d declared
  initializers other member initializer := by
    rw [mentionsInsert]
    rcases List.mem_append.mp member with old | new
    · obtain ⟨t, mentioned, same⟩ := sound.initializers other old initializer
      exact ⟨t, List.mem_append_left _ mentioned, same⟩
    · cases List.mem_singleton.mp new
      exact checkedInitializer sound.indexed subject initializer
  listed := insertListed sound.listed rule

theorem registerCases {r : Registry} (sound : r.Sound) (rule : Rule) :
    ∃ verdicts, r.verdicts.Within verdicts ∧ verdicts.Genuine ∧
      ((∃ refusal, r.register rule = (.error refusal, { r with verdicts })) ∨
        r.register rule = (.ok r.rules.length, insert { r with verdicts } rule) ∧
          (insert { r with verdicts } rule).Sound) := by
  unfold register
  cases opened : r.checkOpen rule with
  | error refusal => exact ⟨r.verdicts, r.verdicts.withinRefl, sound.genuine, .inl ⟨refusal, rfl⟩⟩
  | ok =>
    have within := checkContractsWithin rule.locator rule.mentions r.verdicts
    have genuine := checkContractsKeeps Verdicts.genuineKept rule.locator rule.mentions sound.genuine
    dsimp only
    split
    · rename_i refusal verdicts answer
      rw [answer] at within genuine
      exact ⟨verdicts, within, genuine, .inl ⟨refusal, rfl⟩⟩
    · rename_i verdicts answer
      have accepts := @checkContractsAccepts rule.locator rule.mentions r.verdicts (by rw [answer])
      rw [answer] at within genuine accepts
      refine ⟨verdicts, within, genuine, ?_⟩
      cases conflicts : checkConflicts { r with verdicts } rule.locator [] rule.mentions with
      | error refusal => exact .inl ⟨refusal, rfl⟩
      | ok =>
        cases subject : checkSubject { r with verdicts } rule with
        | error refusal => exact .inl ⟨refusal, rfl⟩
        | ok =>
          have grown := sound.grow within genuine
          have stillOpen : checkOpen { r with verdicts } rule = .ok () := opened
          exact .inr ⟨rfl, insertSound grown stillOpen subject fun t member d => accepts member⟩

theorem registerSound {r : Registry} (sound : r.Sound) (rule : Rule) :
    (r.register rule).2.Sound := by
  obtain ⟨verdicts, within, genuine, ⟨refusal, answer⟩ | ⟨answer, inserted⟩⟩ := registerCases sound rule
  · rw [answer]
    exact sound.grow within genuine
  · rw [answer]
    exact inserted

theorem freezeSound {r : Registry} (sound : r.Sound) : r.freeze.Sound :=
  ⟨sound.indexed.congr rfl rfl, sound.sole, sound.genuine, sound.accepted, sound.initializers, sound.listed⟩

theorem Sound.run {P : Registry → Prop} {r : Registry} (sound : r.Sound) (start : P r)
    (registers : ∀ r rule, r.Sound → P r → P (r.register rule).2) (freezes : ∀ r, P r → P r.freeze)
    (operations : List Operation) : (r.run operations).Sound ∧ P (r.run operations) := by
  induction operations generalizing r with
  | nil => exact ⟨sound, start⟩
  | cons operation rest ih =>
    cases operation with
    | register rule => exact ih (registerSound sound rule) (registers r rule sound start)
    | freeze => exact ih (freezeSound sound) (freezes r start)

theorem Reachable.sound {r : Registry} (reachable : r.Reachable) : r.Sound := by
  obtain ⟨declarations, operations, rfl⟩ := reachable
  exact ((soundEmpty (Verdicts.genuineAfter declarations)).run (P := fun _ => True) trivial
    (fun _ _ _ kept => kept) (fun _ kept => kept) operations).1

end Registry

end Realization
