import Realization.Proofs.Admission
import Realization.Proofs.Conformity
import Realization.Proofs.FirstViolation

/-!
The contracts of a list of types, made one after another on one and the same memory. Each declaration is judged by
itself or by one with its fingerprint that was met before, and the first one refused stops the rest.
-/
namespace Realization

namespace Verdicts

def told (v : Verdicts) (ts : List TypeRef) : Verdicts :=
  (ts.filterMap (·.declaration?)).foldl (fun verdicts d => (verdicts.validate d).2) v

def verdict (v : Verdicts) (earlier : List TypeRef) (d : Declaration) : Verdict := ((v.told earlier).validate d).1

def Passes (v : Verdicts) (ts : List TypeRef) : Prop :=
  ∀ earlier d later, ts = earlier ++ .managed d :: later → ∃ contract, v.verdict earlier d = .ok contract

/- A verdict is found on the declaration itself, or on one with the same fingerprint that was met before it. -/
def Judges (v : Verdicts) (earlier : List TypeRef) (d : Declaration) : Prop :=
  ∃ a : Declaration, a.fingerprint = d.fingerprint ∧
    ((∃ contract, v.verdict earlier d = .ok contract) ↔ a.Conforms) ∧
    ∀ violation, v.verdict earlier d = .error violation ↔ a.FirstViolation violation

variable {v : Verdicts} {t : TypeRef} {ts : List TypeRef} {d : Declaration} {locator : Locator} {refusal : Refusal}

theorem toldGenuine (genuine : v.Genuine) (ts : List TypeRef) : (v.told ts).Genuine := genuineKept.fold _ genuine

theorem Genuine.judges (genuine : v.Genuine) (earlier : List TypeRef) (d : Declaration) : v.Judges earlier d := by
  obtain ⟨a, same, judged⟩ := validateGenuine (toldGenuine genuine earlier) d _ _ ((v.told earlier).validateFound d)
  refine ⟨a, same, ?_, fun violation => ?_⟩
  · unfold verdict
    rw [← judged]
    exact ⟨fun ⟨_, made⟩ => (ofDeclarationSound made).1, fun conforms => conforms.accepted⟩
  · unfold verdict
    rw [← judged]
    exact ofDeclarationStops

theorem passesNil : v.Passes [] := by
  intro earlier d later whole
  simp at whole

theorem verdictPlain (plain : t.declaration? = none) : v.verdict (t :: ts) d = v.verdict ts d := by
  simp only [verdict, told, List.filterMap_cons_none plain]

theorem passesPlain (plain : t.declaration? = none) : v.Passes (t :: ts) ↔ v.Passes ts := by
  constructor
  · intro passes earlier d later whole
    rw [← verdictPlain plain]
    exact passes (t :: earlier) d later (by rw [whole]; rfl)
  · intro passes earlier d later whole
    cases earlier with
    | nil =>
      cases whole
      contradiction
    | cons first earlier =>
      cases whole
      rw [verdictPlain plain]
      exact passes earlier d later rfl

theorem passesManaged : v.Passes (.managed d :: ts) ↔
    (∃ contract, (v.validate d).1 = .ok contract) ∧ (v.validate d).2.Passes ts := by
  constructor
  · intro passes
    exact ⟨passes [] d ts rfl, fun earlier a later whole =>
      passes (.managed d :: earlier) a later (by rw [whole]; rfl)⟩
  · rintro ⟨here, passes⟩ earlier a later whole
    cases earlier with
    | nil =>
      cases whole
      exact here
    | cons first earlier =>
      cases whole
      exact passes earlier a later rfl

def Rejects (v : Verdicts) (ts : List TypeRef) (d : Declaration) (violation : Violation) : Prop :=
  ∃ earlier later, ts = earlier ++ .managed d :: later ∧ v.Passes earlier ∧
    v.verdict earlier d = .error violation

theorem rejectsPlain {violation : Violation} (plain : t.declaration? = none) :
    v.Rejects (t :: ts) d violation ↔ v.Rejects ts d violation := by
  have other : t ≠ .managed d := by
    rintro rfl
    contradiction
  unfold Rejects
  rw [splitCons]
  simp only [other, false_and, false_or, passesPlain plain, verdictPlain plain]

theorem rejectsManaged {a : Declaration} {violation : Violation} : v.Rejects (.managed a :: ts) d violation ↔
    a = d ∧ (v.validate a).1 = .error violation ∨
      (∃ contract, (v.validate a).1 = .ok contract) ∧ (v.validate a).2.Rejects ts d violation := by
  unfold Rejects
  rw [splitCons]
  simp only [passesNil, passesManaged, true_and, TypeRef.managed.injEq]
  refine or_congr (and_congr_right fun same => ?_) ⟨?_, ?_⟩
  · rw [same]
    rfl
  · rintro ⟨earlier, later, whole, ⟨accepted, passes⟩, rejected⟩
    exact ⟨accepted, earlier, later, whole, passes, rejected⟩
  · rintro ⟨accepted, earlier, later, whole, passes, rejected⟩
    exact ⟨earlier, later, whole, ⟨accepted, passes⟩, rejected⟩

end Verdicts

namespace Registry

open Verdicts (Passes)

variable {v : Verdicts} {ts : List TypeRef} {locator : Locator} {refusal : Refusal}

theorem contractsPass : (checkContracts locator ts v).1 = .ok () ↔ v.Passes ts := by
  induction ts generalizing v with
  | nil => simp [checkContracts, Verdicts.passesNil]
  | cons t rest ih =>
    unfold checkContracts
    cases t with
    | plain name =>
      rw [Verdicts.passesPlain rfl, ← ih]
      rfl
    | managed d =>
      rw [Verdicts.passesManaged, ← ih]
      dsimp only [TypeRef.declaration?]
      rcases v.validate d with ⟨violation | contract, w⟩ <;> simp

theorem contractsStop : (checkContracts locator ts v).1 = .error refusal ↔
    ∃ d violation, v.Rejects ts d violation ∧ refusal = .invalidContract locator (.managed d) violation := by
  induction ts generalizing v with
  | nil => simp [checkContracts, Verdicts.Rejects]
  | cons t rest ih =>
    unfold checkContracts
    cases t with
    | plain name =>
      simp only [Verdicts.rejectsPlain (t := .plain name) rfl, ← ih]
      rfl
    | managed a =>
      simp only [Verdicts.rejectsManaged, TypeRef.declaration?]
      rcases v.validate a with ⟨violation | contract, w⟩
      · simp [eq_comm]
      · simp [ih]

end Registry

end Realization
