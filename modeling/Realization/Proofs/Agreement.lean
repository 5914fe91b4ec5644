import Realization.Proofs.Admission

/-!
One name, one contract. A rule is accepted only if the declarations that it brings share their
fingerprints with those under the same names that rules brought before, so all rules of a registry
agree on what a name stands for. A contract carries the fingerprint of the declaration behind it.
-/
namespace Realization

theorem contractFingerprint {d : Declaration} {contract : Contract}
    (made : Contract.ofDeclaration d = .ok contract) : contract.fingerprint = d.fingerprint := by
  simp only [Contract.ofDeclaration, bind, Except.bind] at made
  split at made
  · contradiction
  · split at made
    · contradiction
    · split at made
      · contradiction
      · split at made
        · contradiction
        · cases made
          rfl

theorem Verdicts.Genuine.fingerprint {v : Verdicts} (genuine : v.Genuine) {f : Fingerprint}
    {contract : Contract} (found : v.find? f = some (.ok contract)) : contract.fingerprint = f := by
  obtain ⟨d, rfl, examined⟩ := genuine _ _ found
  exact contractFingerprint examined

def Agreed (ts : List TypeRef) : Prop :=
  ∀ a b : Declaration, .managed a ∈ ts → .managed b ∈ ts → a.name = b.name → a.fingerprint = b.fingerprint

namespace Registry

variable {r : Registry} {locator : Locator} {earlier ts : List TypeRef} {t : TypeRef}

theorem Indexed.knownExact (indexed : r.Indexed) (earlier : List TypeRef) (t : TypeRef) :
    r.knownDeclaration? earlier t =
      ((r.mentions ++ earlier).find? fun m => m.same t && m.isManaged).bind (·.declaration?) := by
  unfold knownDeclaration?
  rw [indexed.managed, List.find?_append]
  cases r.mentions.find? fun m => m.same t && m.isManaged <;> rfl

theorem knownFirst {known : Declaration}
    (found : (ts.find? fun m => m.same t && m.isManaged).bind (·.declaration?) = some known) :
    .managed known ∈ ts ∧ known.name = t.name := by
  obtain ⟨m, first, declared⟩ := Option.bind_eq_some_iff.mp found
  have holds := List.find?_some first
  simp only [Bool.and_eq_true, TypeRef.sameIff] at holds
  cases m with
  | plain name => cases declared
  | managed d =>
    cases declared
    exact ⟨List.mem_of_find?_eq_some first, holds.1⟩

theorem knownNone
    (missing : (ts.find? fun m => m.same t && m.isManaged).bind (·.declaration?) = none)
    {d : Declaration} (member : .managed d ∈ ts) : d.name ≠ t.name := by
  intro same
  cases first : ts.find? fun m => m.same t && m.isManaged with
  | none =>
    have absent := List.find?_eq_none.mp first _ member
    simp [TypeRef.same, TypeRef.name, TypeRef.isManaged, TypeRef.declaration?, same] at absent
  | some m =>
    have holds := List.find?_some first
    rw [first] at missing
    cases m with
    | plain name => simp [TypeRef.isManaged, TypeRef.declaration?] at holds
    | managed d => contradiction

theorem agreedPlain (agreed : Agreed ts) (plain : t.declaration? = none) : Agreed (ts ++ [t]) := by
  have old : ∀ d : Declaration, .managed d ∈ ts ++ [t] → .managed d ∈ ts := by
    intro d member
    rcases List.mem_append.mp member with before | here
    · exact before
    · cases List.mem_singleton.mp here
      contradiction
  exact fun a b member member' => agreed a b (old a member) (old b member')

theorem agreedDeclared {d : Declaration} (agreed : Agreed ts)
    (same : ∀ a : Declaration, .managed a ∈ ts → a.name = d.name → a.fingerprint = d.fingerprint) :
    Agreed (ts ++ [.managed d]) := by
  intro a b member member' named
  rcases List.mem_append.mp member with before | here <;> rcases List.mem_append.mp member' with before' | here'
  · exact agreed a b before before' named
  · cases List.mem_singleton.mp here'
    exact same a before named
  · cases List.mem_singleton.mp here
    exact (same b before' named.symm).symm
  · cases List.mem_singleton.mp here
    cases List.mem_singleton.mp here'
    rfl

theorem checkConflictsAgreed (indexed : r.Indexed) (agreed : Agreed (r.mentions ++ earlier))
    (passed : r.checkConflicts locator earlier ts = .ok ()) : Agreed (r.mentions ++ earlier ++ ts) := by
  induction ts generalizing earlier with
  | nil =>
    rw [List.append_nil]
    exact agreed
  | cons t rest ih =>
    have onward : Agreed (r.mentions ++ earlier ++ [t]) →
        r.checkConflicts locator (earlier ++ [t]) rest = .ok () →
          Agreed (r.mentions ++ earlier ++ t :: rest) := by
      intro first later
      rw [List.append_assoc] at first
      have whole := ih first later
      simpa only [List.append_assoc, List.singleton_append] using whole
    unfold checkConflicts at passed
    cases t with
    | plain name => exact onward (agreedPlain agreed rfl) passed
    | managed d =>
      rw [indexed.knownExact] at passed
      cases known : ((r.mentions ++ earlier).find? fun m => m.same (.managed d) && m.isManaged).bind
          (·.declaration?) with
      | none =>
        rw [known] at passed
        exact onward (agreedDeclared agreed fun a member same => absurd same (knownNone known member)) passed
      | some first =>
        rw [known] at passed
        obtain ⟨member, named⟩ := knownFirst known
        dsimp only [TypeRef.declaration?] at passed
        by_cases same : first.fingerprint = d.fingerprint
        · rw [if_pos same] at passed
          refine onward (agreedDeclared agreed fun a member' same' => ?_) passed
          exact (agreed a first member' member (same'.trans named.symm)).trans same
        · rw [if_neg same] at passed
          cases passed

theorem registerAgreed (indexed : r.Indexed) (agreed : Agreed r.mentions) (rule : Rule) :
    Agreed (r.register rule).2.mentions := by
  unfold register
  split
  · exact agreed
  · split
    · exact agreed
    · rename_i verdicts _
      dsimp only
      split
      · exact agreed
      · rename_i passed
        split
        · exact agreed
        · have checked := @checkConflictsAgreed { r with verdicts } rule.locator [] rule.mentions
            (indexed.congr rfl rfl) (by rw [List.append_nil]; exact agreed) passed
          rw [List.append_nil] at checked
          exact (mentionsInsert { r with verdicts } rule).symm ▸ checked

theorem Reachable.agreed (reachable : r.Reachable) : Agreed r.mentions := by
  obtain ⟨declarations, operations, rfl⟩ := reachable
  refine ((soundEmpty (Verdicts.genuineAfter declarations)).run (fun a b member => ?_)
    (fun _ rule sound agreed => registerAgreed sound.indexed agreed rule) (fun _ agreed => agreed) operations).2
  contradiction

end Registry

end Realization
