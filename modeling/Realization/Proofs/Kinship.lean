import Realization.Proofs.Agreement
import Realization.Proofs.Construction
import Realization.Proofs.Prescription

/-!
Registries that differ only in the order of their rules. If the mutation rules of every type stand in the
same order, each type has the same rules in both, whatever their numbers, and is known in the same form;
the latter takes that no two of the declarations share a fingerprint, for then one name has one
declaration, whichever rule brought it first.
-/
namespace Realization

def Apart (ts : List TypeRef) : Prop :=
  ∀ a b : Declaration, .managed a ∈ ts → .managed b ∈ ts → a.fingerprint = b.fingerprint → a = b

def Collides (ts : List TypeRef) : Prop :=
  ∃ a b : Declaration, .managed a ∈ ts ∧ .managed b ∈ ts ∧ a ≠ b ∧ a.fingerprint = b.fingerprint

theorem apartOr (ts : List TypeRef) : Apart ts ∨ Collides ts := by
  by_cases collides : Collides ts
  · exact .inr collides
  · exact .inl fun a b first second same =>
      Decidable.byContradiction fun differ => collides ⟨a, b, first, second, differ, same⟩

namespace Verdicts

/- On the declarations of these types, `v` answers as `origin` did. -/
def Like (forms : List TypeRef) (origin v : Verdicts) : Prop :=
  ∀ d : Declaration, .managed d ∈ forms → (v.validate d).1 = (origin.validate d).1

variable {forms : List TypeRef} {origin v : Verdicts} {d : Declaration}

theorem validateAnswer (v : Verdicts) (d : Declaration) :
    (v.validate d).1 = (v.find? d.fingerprint).getD (Contract.ofDeclaration d) := by
  unfold validate
  cases v.find? d.fingerprint <;> rfl

theorem Like.validate (like : Like forms origin v) (apart : Apart forms) (inside : .managed d ∈ forms) :
    Like forms origin (v.validate d).2 := by
  intro a member
  rw [← like a member]
  cases known : v.find? d.fingerprint with
  | some verdict => rw [validateKnown known]
  | none =>
    have learnt : (v.validate d).2 = ⟨v.known ++ [(d.fingerprint, Contract.ofDeclaration d)]⟩ := by
      simp only [Verdicts.validate, known]
    rw [learnt, validateAnswer, validateAnswer, findAppended]
    by_cases same : d.fingerprint = a.fingerprint
    · cases apart d a inside member same
      rw [known, if_pos rfl]
      rfl
    · rw [if_neg same, Option.or_none]

end Verdicts

namespace Registry

variable {forms : List TypeRef} {origin : Verdicts} {r r' : Registry} {t : TypeRef}

theorem checkContractsLike (locator : Locator) (apart : Apart forms) {ts : List TypeRef}
    (inside : ∀ t ∈ ts, t ∈ forms) {v : Verdicts} (like : Verdicts.Like forms origin v) :
    Verdicts.Like forms origin (checkContracts locator ts v).2 := by
  induction ts generalizing v with
  | nil => exact like
  | cons t rest ih =>
    obtain ⟨here, tail⟩ := List.forall_mem_cons.mp inside
    unfold checkContracts
    cases t with
    | plain name => exact ih tail like
    | managed d =>
      have learnt := like.validate apart here
      dsimp only [TypeRef.declaration?]
      rcases answer : v.validate d with ⟨violation | contract, w⟩ <;> rw [answer] at learnt
      · exact learnt
      · exact ih tail learnt

theorem registerLike (apart : Apart forms) {rule : Rule} (inside : ∀ t ∈ rule.mentions, t ∈ forms)
    (like : Verdicts.Like forms origin r.verdicts) :
    Verdicts.Like forms origin (r.register rule).2.verdicts := by
  have learnt := checkContractsLike rule.locator apart inside like
  unfold register
  split
  · exact like
  · split
    · rename_i answer
      rw [answer] at learnt
      exact learnt
    · rename_i answer
      rw [answer] at learnt
      dsimp only
      split
      · exact learnt
      · split <;> exact learnt

structure Holds (forms : List TypeRef) (origin : Verdicts) (rules : List Rule) (r : Registry) : Prop where
  rules : r.rules = rules
  sound : r.Sound
  tidy : r.Tidy
  agreed : Agreed r.mentions
  like : Verdicts.Like forms origin r.verdicts

theorem Holds.register {rules : List Rule} {rule : Rule} (holds : r.Holds forms origin rules)
    (apart : Apart forms) (inside : ∀ t ∈ rule.mentions, t ∈ forms) (accepted : (r.register rule).1.isOk) :
    (r.register rule).2.Holds forms origin (rules ++ [rule]) where
  rules := by
    obtain ⟨verdicts, _, _, ⟨refusal, answer⟩ | ⟨answer, _⟩⟩ := registerCases holds.sound rule
    · rw [answer] at accepted
      contradiction
    · rw [answer]
      exact congrArg (· ++ [rule]) holds.rules
  sound := registerSound holds.sound rule
  tidy := registerTidy holds.sound holds.tidy rule
  agreed := registerAgreed holds.sound.indexed holds.agreed rule
  like := registerLike apart inside holds.like

theorem Holds.registerEach {before rules : List Rule} (holds : r.Holds forms origin before)
    (apart : Apart forms) (inside : ∀ rule ∈ rules, ∀ t ∈ rule.mentions, t ∈ forms)
    (accepted : ∀ answer ∈ (Registry.registerEach rules r).1, answer.isOk) :
    (Registry.registerEach rules r).2.Holds forms origin (before ++ rules) := by
  induction rules generalizing r before with
  | nil =>
    rw [List.append_nil]
    exact holds
  | cons rule rest ih =>
    obtain ⟨here, tail⟩ := List.forall_mem_cons.mp inside
    obtain ⟨first, later⟩ := List.forall_mem_cons.mp accepted
    have whole := ih (holds.register apart here first) tail later
    rwa [List.append_assoc, List.singleton_append] at whole

structure Kin (forms : List TypeRef) (r r' : Registry) : Prop where
  indexed : r.Indexed
  indexed' : r'.Indexed
  creation : ∀ t, r.creationRule? t = r'.creationRule? t
  mutation : ∀ t, r.mutationRules t = r'.mutationRules t
  known : ∀ t, r.resolve? t = r'.resolve? t
  inside : ∀ m ∈ r.mentions, m ∈ forms
  apart : Apart forms

theorem Kin.creator (kin : Kin forms r r') (t : TypeRef) :
    (r.creator? t).map (·.2) = (r'.creator? t).map (·.2) := by
  rw [← kin.indexed.creationRuleExact, ← kin.indexed'.creationRuleExact, kin.creation]

theorem Kin.mutators (kin : Kin forms r r') (t : TypeRef) :
    (r.mutators t).map (·.2) = (r'.mutators t).map (·.2) := by
  rw [← kin.indexed.mutationRulesExact, ← kin.indexed'.mutationRulesExact, kin.mutation]

theorem creationPermuted (sound : r.Sound) (perm : r.rules.Perm r'.rules) (t : TypeRef) :
    r.creationRule? t = r'.creationRule? t := by
  let creates : Rule → Bool := fun rule => rule.creates && rule.subject.same t
  have few : (r.rules.filter creates).length ≤ 1 := by
    have creators : (r.creatorsOf t).map (·.2) = r.rules.filter creates := by
      rw [← rulesNumbered, List.filter_map]
      rfl
    rw [← creators, List.length_map]
    exact sound.sole t
  have same : r.rules.filter creates = r'.rules.filter creates := by
    have permuted := perm.filter creates
    match one : r.rules.filter creates with
    | [] => rw [one] at permuted; exact (List.nil_perm.mp permuted).symm
    | [rule] => rw [one] at permuted; exact List.singleton_perm.mp permuted
    | _ :: _ :: _ => simp [one] at few
  simp only [creationRule?, ← List.head?_filter]
  exact congrArg List.head? same

def Settled (r : Registry) : Prop :=
  ∀ a ∈ r.mentions, ∀ b ∈ r.mentions, a.isManaged = true → b.isManaged = true → a.name = b.name → a = b

theorem agreedSettled (apart : Apart forms) (inside : ∀ m ∈ r.mentions, m ∈ forms)
    (agreed : Agreed r.mentions) : r.Settled := by
  intro a first b second managed managed' named
  cases a with
  | plain name => contradiction
  | managed d =>
    cases b with
    | plain name => contradiction
    | managed d' => rw [apart d d' (inside _ first) (inside _ second) (agreed d d' first second named)]

theorem Settled.resolve {u : TypeRef} (settled : r.Settled) (indexed : r.Indexed) :
    r.resolve? t = some u ↔ u ∈ r.mentions ∧ u.name = t.name ∧
      (u.isManaged = false → ∀ m ∈ r.mentions, m.name = t.name → m.isManaged = false) := by
  rw [indexed.resolveExact]
  cases first : r.mentions.find? fun m => m.same t && m.isManaged with
  | some a =>
    have member := List.mem_of_find?_eq_some first
    have holds := List.find?_some first
    simp only [Bool.and_eq_true, TypeRef.sameIff] at holds
    rw [Option.some_or, Option.some.injEq]
    constructor
    · rintro rfl
      exact ⟨member, holds.1, fun plain => absurd (plain.symm.trans holds.2) Bool.false_ne_true⟩
    · rintro ⟨mentioned, named, plain⟩
      cases managed : u.isManaged with
      | true => exact settled a member u mentioned holds.2 managed (holds.1.trans named.symm)
      | false => exact absurd ((plain managed a member holds.1).symm.trans holds.2) Bool.false_ne_true
  | none =>
    have plain : ∀ m ∈ r.mentions, m.name = t.name → m.isManaged = false := by
      intro m member named
      simpa [TypeRef.sameIff.mpr named] using List.find?_eq_none.mp first m member
    rw [Option.none_or]
    constructor
    · intro found
      have same := List.find?_some (p := fun m : TypeRef => m.same t) found
      exact ⟨List.mem_of_find?_eq_some found, TypeRef.sameIff.mp same, fun _ => plain⟩
    · rintro ⟨mentioned, named, _⟩
      cases known : r.mentions.find? (·.same t) with
      | none => exact absurd (TypeRef.sameIff.mpr named) (List.find?_eq_none.mp known u mentioned)
      | some b =>
        have member := List.mem_of_find?_eq_some known
        have same := TypeRef.sameIff.mp (List.find?_some (p := fun m : TypeRef => m.same t) known)
        rw [TypeRef.plainExt (plain b member same) (plain u mentioned named) (same.trans named.symm)]

theorem Holds.kin {rules rules' : List Rule} (holds : r.Holds forms origin rules)
    (holds' : r'.Holds forms origin rules') (perm : rules.Perm rules')
    (ordered : ∀ t : TypeRef, (rules.filter fun rule => !rule.creates && rule.subject.same t) =
      rules'.filter fun rule => !rule.creates && rule.subject.same t)
    (apart : Apart forms) (inside : ∀ m ∈ r.mentions, m ∈ forms) : Kin forms r r' := by
  have perm : r.rules.Perm r'.rules := by rwa [holds.rules, holds'.rules]
  have same : ∀ m, m ∈ r'.mentions ↔ m ∈ r.mentions := fun m => (perm.flatMap_right _).mem_iff.symm
  have settled := agreedSettled apart inside holds.agreed
  have settled' := agreedSettled apart (fun m member => inside m ((same m).mp member)) holds'.agreed
  refine ⟨holds.sound.indexed, holds'.sound.indexed, creationPermuted holds.sound perm, fun t => ?_,
    fun t => ?_, inside, apart⟩
  · simp only [mutationRules, holds.rules, holds'.rules, ordered]
  · refine Option.ext fun u => ?_
    rw [settled.resolve holds.sound.indexed, settled'.resolve holds'.sound.indexed]
    simp only [same]

end Registry

end Realization
