import Realization.Proofs.Agreement
import Realization.Proofs.Construction
import Realization.Proofs.Contracts

/-!
Which rules are refused, and what is said of them. The checks are made in an order, and the first one that stands
against a rule is reported, at the first type of the rule of which it is so.
-/
namespace Realization.Registry

open Verdicts (Passes)

/- The declaration that stands for a name: the first one under it, by a rule before this one or by this one. -/
def Stands (r : Registry) (rule : Rule) (name : String) (known : Declaration) : Prop :=
  First (fun m : TypeRef => m.isManaged = true ∧ m.name = name) (r.mentions ++ rule.mentions) (.managed known)

def Conflicts (r : Registry) (rule : Rule) (t : TypeRef) : Prop :=
  ∃ d known, t = .managed d ∧ r.Stands rule d.name known ∧ known.fingerprint ≠ d.fingerprint

def Open (r : Registry) (rule : Rule) : Prop :=
  r.isFrozen = false ∧ (rule.creates = true →
    ∀ existing ∈ r.rules, existing.creates = true → existing.subject.name ≠ rule.subject.name)

structure Admits (r : Registry) (rule : Rule) : Prop where
  opened : r.Open rule
  passes : r.verdicts.Passes rule.mentions
  agrees : ∀ t ∈ rule.mentions, ¬ r.Conflicts rule t
  subject : rule.isInitializer = true → r.KnownManaged rule

inductive Refuses (r : Registry) (rule : Rule) : Refusal → Prop where
  | frozen (frozen : r.isFrozen = true) : Refuses r rule (.frozen rule.locator)
  | duplicate {existing} (thawed : r.isFrozen = false) (creates : rule.creates = true)
      (known : existing ∈ r.rules) (creates' : existing.creates = true)
      (named : existing.subject.name = rule.subject.name) :
      Refuses r rule (.duplicateCreator rule.subject existing.locator rule.locator)
  | contract {earlier d later violation} (opened : r.Open rule)
      (mentions : rule.mentions = earlier ++ .managed d :: later) (passes : r.verdicts.Passes earlier)
      (rejected : r.verdicts.verdict earlier d = .error violation) :
      Refuses r rule (.invalidContract rule.locator (.managed d) violation)
  | conflict {d known} (opened : r.Open rule) (passes : r.verdicts.Passes rule.mentions)
      (first : First (r.Conflicts rule) rule.mentions (.managed d)) (stands : r.Stands rule d.name known) :
      Refuses r rule (.conflictingContract (.managed d) rule.locator known.fingerprint d.fingerprint)
  | subject (opened : r.Open rule) (passes : r.verdicts.Passes rule.mentions)
      (agrees : ∀ t ∈ rule.mentions, ¬ r.Conflicts rule t) (initializer : rule.isInitializer = true)
      (unknown : ¬ r.KnownManaged rule) : Refuses r rule (.noCreator rule.subject rule.locator)

variable {r : Registry} {rule : Rule} {t : TypeRef} {refusal : Refusal}

theorem Indexed.creatorIs (indexed : r.Indexed) {existing : Rule} :
    (∃ id, r.creator? t = some (id, existing)) ↔
      existing ∈ r.rules ∧ existing.creates = true ∧ existing.subject.name = t.name := by
  constructor
  · rintro ⟨id, found⟩
    obtain ⟨_, member, creates, same⟩ := indexed.creatorFound found
    exact ⟨member, creates, TypeRef.sameIff.mp same⟩
  · rintro ⟨member, creates, named⟩
    obtain ⟨id, listed⟩ := ruleNumbered member
    have own : (id, existing) ∈ r.creatorsOf t :=
      List.mem_filter.mpr ⟨listed, Bool.and_eq_true_iff.mpr ⟨creates, TypeRef.sameIff.mpr named⟩⟩
    rw [← indexed.creatorExact] at own
    exact ⟨id, Option.mem_toList.mp own⟩

theorem Indexed.openExact (indexed : r.Indexed) : r.checkOpen rule = .ok () ↔ r.Open rule := by
  unfold checkOpen Open
  cases r.isFrozen with
  | true => simp
  | false =>
    cases creates : rule.creates with
    | false => simp
    | true =>
      cases found : r.creator? rule.subject with
      | none =>
        have nobody : ∀ existing ∈ r.rules, existing.creates = true →
            existing.subject.name ≠ rule.subject.name := fun existing member creates named => by
          obtain ⟨id, found'⟩ := indexed.creatorIs.mpr ⟨member, creates, named⟩
          rw [found] at found'
          contradiction
        simpa using nobody
      | some p =>
        obtain ⟨member, creates', named⟩ := indexed.creatorIs.mp ⟨p.1, found⟩
        have somebody : ¬ ∀ existing ∈ r.rules, existing.creates = true →
            existing.subject.name ≠ rule.subject.name := fun nobody => nobody p.2 member creates' named
        simpa using somebody

theorem Indexed.openStops (indexed : r.Indexed) : r.checkOpen rule = .error refusal ↔
    r.isFrozen = true ∧ refusal = .frozen rule.locator ∨
      r.isFrozen = false ∧ rule.creates = true ∧ ∃ existing ∈ r.rules, existing.creates = true ∧
        existing.subject.name = rule.subject.name ∧
        refusal = .duplicateCreator rule.subject existing.locator rule.locator := by
  unfold checkOpen
  cases r.isFrozen with
  | true => simpa using eq_comm
  | false =>
    cases creates : rule.creates with
    | false => simp
    | true =>
      simp only [Bool.false_eq_true, if_false, if_true, false_and, false_or, true_and]
      constructor
      · intro stopped
        split at stopped
        · rename_i found
          cases stopped
          obtain ⟨member, creates', named⟩ := indexed.creatorIs.mp ⟨_, found⟩
          exact ⟨_, member, creates', named, rfl⟩
        · contradiction
      · rintro ⟨existing, member, creates', named, rfl⟩
        obtain ⟨id, found⟩ := indexed.creatorIs.mpr ⟨member, creates', named⟩
        rw [found]

theorem Indexed.standsExact (indexed : r.Indexed) {earlier later : List TypeRef} {d known : Declaration}
    (mentions : rule.mentions = earlier ++ .managed d :: later) :
    r.Stands rule d.name known ↔ (r.knownDeclaration? earlier (.managed d)).getD d = known := by
  have exact : ∀ m : TypeRef, (m.same (.managed d) && m.isManaged) = true ↔ m.isManaged = true ∧ m.name = d.name :=
    fun m => by rw [Bool.and_eq_true, and_comm, TypeRef.sameIff]; rfl
  have own : ((TypeRef.managed d).same (.managed d) && (TypeRef.managed d).isManaged) = true :=
    (exact _).mpr ⟨rfl, rfl⟩
  unfold Stands
  rw [← firstFound exact, mentions, ← List.append_assoc, List.find?_append, List.find?_cons, own, indexed.knownExact]
  cases found : (r.mentions ++ earlier).find? fun m => m.same (.managed d) && m.isManaged with
  | none => simp
  | some m =>
    have holds := List.find?_some found
    have managed := ((exact m).mp holds).1
    cases m with
    | plain name => contradiction
    | managed a => simp [TypeRef.declaration?]

theorem Indexed.conflictsExact (indexed : r.Indexed) {earlier later : List TypeRef} {d : Declaration}
    (mentions : rule.mentions = earlier ++ .managed d :: later) :
    r.Conflicts rule (.managed d) ↔
      ((r.knownDeclaration? earlier (.managed d)).getD d).fingerprint ≠ d.fingerprint := by
  constructor
  · rintro ⟨a, known, same, stands, apart⟩
    cases same
    rwa [(indexed.standsExact mentions).mp stands]
  · intro apart
    exact ⟨d, _, rfl, (indexed.standsExact mentions).mpr rfl, apart⟩

theorem conflictsPlain {name : String} : ¬ r.Conflicts rule (.plain name) := by
  rintro ⟨d, known, same, _⟩
  contradiction

theorem conflictsNext (r : Registry) (locator : Locator) (earlier rest : List TypeRef) (d : Declaration) :
    r.checkConflicts locator earlier (.managed d :: rest) =
      let known := (r.knownDeclaration? earlier (.managed d)).getD d
      if known.fingerprint = d.fingerprint then r.checkConflicts locator (earlier ++ [.managed d]) rest
      else .error (.conflictingContract (.managed d) locator known.fingerprint d.fingerprint) := by
  rw [checkConflicts]
  cases r.knownDeclaration? earlier (.managed d) <;> simp [TypeRef.declaration?]

theorem Indexed.conflictsStop (indexed : r.Indexed) {earlier : List TypeRef}
    (mentions : rule.mentions = earlier ++ ts) : r.checkConflicts rule.locator earlier ts = .error refusal ↔
      ∃ d known, First (r.Conflicts rule) ts (.managed d) ∧ r.Stands rule d.name known ∧
        refusal = .conflictingContract (.managed d) rule.locator known.fingerprint d.fingerprint := by
  induction ts generalizing earlier with
  | nil => simp [checkConflicts, First]
  | cons t rest ih =>
    have later := @ih (earlier ++ [t]) (by rw [mentions, List.append_assoc, List.singleton_append])
    cases t with
    | plain name =>
      have skipped : r.checkConflicts rule.locator earlier (.plain name :: rest) =
          r.checkConflicts rule.locator (earlier ++ [.plain name]) rest := rfl
      rw [skipped, later]
      simp only [firstCons, conflictsPlain, false_and, false_or, not_false_eq_true, true_and]
    | managed a =>
      rw [conflictsNext]
      dsimp only
      by_cases agree : ((r.knownDeclaration? earlier (.managed a)).getD a).fingerprint = a.fingerprint
      · have fine : ¬ r.Conflicts rule (.managed a) := fun conflicts =>
          (indexed.conflictsExact mentions).mp conflicts agree
        rw [if_pos agree, later]
        simp only [firstCons, fine, false_and, false_or, not_false_eq_true, true_and]
      · have conflicts := (indexed.conflictsExact mentions).mpr agree
        rw [if_neg agree]
        simp only [firstCons, conflicts, true_and, not_true_eq_false, false_and, or_false]
        constructor
        · intro stopped
          cases stopped
          exact ⟨a, _, rfl, (indexed.standsExact mentions).mpr rfl, rfl⟩
        · rintro ⟨d, known, same, stands, rfl⟩
          cases same
          rw [(indexed.standsExact mentions).mp stands]

theorem Indexed.conflictsPass (indexed : r.Indexed) :
    r.checkConflicts rule.locator [] rule.mentions = .ok () ↔ ∀ t ∈ rule.mentions, ¬ r.Conflicts rule t := by
  constructor
  · intro passed t member conflicts
    obtain ⟨first, here⟩ := firstExists member conflicts
    obtain ⟨d, known, rfl, stands, -⟩ := here.1
    have stopped : r.checkConflicts rule.locator [] rule.mentions =
        .error (.conflictingContract (.managed d) rule.locator known.fingerprint d.fingerprint) :=
      (indexed.conflictsStop (List.nil_append _).symm).mpr ⟨d, known, here, stands, rfl⟩
    rw [passed] at stopped
    contradiction
  · intro agrees
    cases answer : r.checkConflicts rule.locator [] rule.mentions with
    | ok => rfl
    | error refusal =>
      obtain ⟨d, known, first, _, _⟩ := (indexed.conflictsStop (List.nil_append _).symm).mp answer
      exact (agrees _ first.member first.1).elim

theorem Indexed.subjectStops (indexed : r.Indexed) : r.checkSubject rule = .error refusal ↔
    rule.isInitializer = true ∧ ¬ r.KnownManaged rule ∧ refusal = .noCreator rule.subject rule.locator := by
  unfold checkSubject
  rw [← indexed.subjectExact]
  cases rule.isInitializer <;> cases ((r.resolve? rule.subject).getD rule.subject).isManaged <;> simp [eq_comm]

theorem registerChecks (r : Registry) (rule : Rule) :
    (r.register rule).1 = (do
      r.checkOpen rule
      (checkContracts rule.locator rule.mentions r.verdicts).1
      r.checkConflicts rule.locator [] rule.mentions
      r.checkSubject rule
      .ok r.rules.length) := by
  have conflicts := fun v => checkConflictsKept r v rule.locator [] rule.mentions
  have subject : ∀ v, checkSubject { r with verdicts := v } rule = r.checkSubject rule := fun _ => rfl
  unfold register
  cases r.checkOpen rule with
  | error refusal => rfl
  | ok =>
    rcases checkContracts rule.locator rule.mentions r.verdicts with ⟨refusal | _, w⟩
    · rfl
    · simp only [conflicts, subject]
      cases r.checkConflicts rule.locator [] rule.mentions with
      | error refusal => rfl
      | ok => cases r.checkSubject rule <;> rfl

theorem checkFails {α : Type} {check : Except Refusal Unit} {next : Unit → Except Refusal α} :
    (check >>= next) = .error refusal ↔ check = .error refusal ∨ check = .ok () ∧ next () = .error refusal := by
  rw [bindFails, Unique.exists_iff]

theorem checkAnswers {α : Type} {check : Except Refusal Unit} {next : Unit → Except Refusal α} {a : α} :
    (check >>= next) = .ok a ↔ check = .ok () ∧ next () = .ok a := by
  rw [bindAnswers, Unique.exists_iff]

theorem Indexed.refuses (indexed : r.Indexed) : (r.register rule).1 = .error refusal ↔ r.Refuses rule refusal := by
  simp only [registerChecks, checkFails, indexed.openExact, indexed.openStops, contractsPass, contractsStop,
    indexed.conflictsPass, indexed.conflictsStop (List.nil_append _).symm, indexed.subjectStops, reduceCtorEq,
    and_false, or_false]
  constructor
  · rintro ((⟨frozen, rfl⟩ | ⟨thawed, creates, existing, known, creates', named, rfl⟩) | ⟨opened, stopped⟩)
    · exact .frozen frozen
    · exact .duplicate thawed creates known creates' named
    obtain ⟨d, violation, ⟨earlier, later, mentions, passes, rejected⟩, rfl⟩ | ⟨passes, stopped⟩ := stopped
    · exact .contract opened mentions passes rejected
    obtain ⟨d, known, first, stands, rfl⟩ | ⟨agrees, initializer, unknown, rfl⟩ := stopped
    · exact .conflict opened passes first stands
    · exact .subject opened passes agrees initializer unknown
  · intro refuses
    cases refuses with
    | frozen frozen => exact .inl (.inl ⟨frozen, rfl⟩)
    | duplicate thawed creates known creates' named =>
      exact .inl (.inr ⟨thawed, creates, _, known, creates', named, rfl⟩)
    | contract opened mentions passes rejected =>
      exact .inr ⟨opened, .inl ⟨_, _, ⟨_, _, mentions, passes, rejected⟩, rfl⟩⟩
    | conflict opened passes first stands =>
      exact .inr ⟨opened, .inr ⟨passes, .inl ⟨_, _, first, stands, rfl⟩⟩⟩
    | subject opened passes agrees initializer unknown =>
      exact .inr ⟨opened, .inr ⟨passes, .inr ⟨agrees, initializer, unknown, rfl⟩⟩⟩

theorem Indexed.admits (indexed : r.Indexed) : (∃ id, (r.register rule).1 = .ok id) ↔ r.Admits rule := by
  simp only [registerChecks, checkAnswers, indexed.openExact, contractsPass, indexed.conflictsPass,
    indexed.subjectPass, exists_and_left]
  constructor
  · rintro ⟨opened, passes, agrees, subject, _⟩
    exact ⟨opened, passes, agrees, subject⟩
  · rintro ⟨opened, passes, agrees, subject⟩
    exact ⟨opened, passes, agrees, subject, _, rfl⟩

end Realization.Registry
