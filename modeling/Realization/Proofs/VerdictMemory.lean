import Realization.Contract.Verdicts

/-!
The memory of verdicts. It only grows, and a verdict that it holds is the verdict on some
declaration with that fingerprint. Two declarations may share a fingerprint, so nothing is said
about the declaration that asks.
-/
namespace Realization.Verdicts

def Within (v w : Verdicts) : Prop := ∀ f verdict, v.find? f = some verdict → w.find? f = some verdict

theorem withinRefl (v : Verdicts) : v.Within v := fun _ _ found => found

theorem Within.trans {u v w : Verdicts} (first : u.Within v) (second : v.Within w) : u.Within w :=
  fun f verdict found => second f verdict (first f verdict found)

theorem validateKnown {v : Verdicts} {d : Declaration} {verdict : Verdict}
    (known : v.find? d.fingerprint = some verdict) : v.validate d = (verdict, v) := by
  simp only [validate, known]

theorem findAppended (v : Verdicts) (f g : Fingerprint) (verdict : Verdict) :
    Verdicts.find? ⟨v.known ++ [(f, verdict)]⟩ g =
      (v.find? g).or (if f = g then some verdict else none) := by
  unfold find?
  rw [List.find?_append]
  cases v.known.find? (·.1 == g) with
  | some entry => rfl
  | none => by_cases same : f = g <;> simp [same]

theorem validateWithin (v : Verdicts) (d : Declaration) : v.Within (v.validate d).2 := by
  intro f verdict found
  unfold validate
  split
  · exact found
  · rw [findAppended, found]
    rfl

theorem validateFound (v : Verdicts) (d : Declaration) :
    (v.validate d).2.find? d.fingerprint = some (v.validate d).1 := by
  unfold validate
  split
  · assumption
  · rename_i unknown
    rw [findAppended, unknown]
    simp

def NoHarsher (v w : Verdicts) : Prop :=
  ∀ f violation, w.find? f = some (.error violation) → v.find? f = some (.error violation)

theorem noHarsherRefl (v : Verdicts) : v.NoHarsher v := fun _ _ found => found

theorem NoHarsher.trans {u v w : Verdicts} (first : u.NoHarsher v) (second : v.NoHarsher w) : u.NoHarsher w :=
  fun f violation found => first f violation (second f violation found)

theorem validateNoHarsher {v w : Verdicts} {d : Declaration} {contract : Contract}
    (passed : v.validate d = (.ok contract, w)) : v.NoHarsher w := by
  intro f violation found
  unfold validate at passed
  split at passed
  · cases passed
    exact found
  · obtain ⟨verdict, rfl⟩ := Prod.mk.inj passed
    rw [findAppended, verdict] at found
    rcases Option.or_eq_some_iff.mp found with before | ⟨_, learnt⟩
    · exact before
    · split at learnt <;> cases learnt

theorem validateKept {v v' w : Verdicts} {d : Declaration} {contract : Contract} (within : v.Within w)
    (noHarsher : v.NoHarsher w) (passed : v.validate d = (.ok contract, v')) :
    ∃ contract' w', w.validate d = (.ok contract', w') := by
  rcases known : w.find? d.fingerprint with _ | violation | contract'
  · have unknown : v.find? d.fingerprint = none := by
      rcases before : v.find? d.fingerprint with _ | verdict
      · rfl
      · rw [within _ _ before] at known
        cases known
    simp only [validate, unknown] at passed
    simp only [validate, known]
    obtain ⟨verdict, _⟩ := Prod.mk.inj passed
    exact ⟨contract, _, by rw [verdict]⟩
  · rw [validateKnown (noHarsher _ _ known)] at passed
    cases passed
  · exact ⟨contract', w, validateKnown known⟩

def Genuine (v : Verdicts) : Prop :=
  ∀ f verdict, v.find? f = some verdict →
    ∃ d : Declaration, d.fingerprint = f ∧ Contract.ofDeclaration d = verdict

theorem genuineEmpty : Genuine {} := by
  intro f verdict found
  contradiction

theorem validateGenuine {v : Verdicts} (genuine : v.Genuine) (d : Declaration) :
    (v.validate d).2.Genuine := by
  intro f verdict found
  unfold validate at found
  split at found
  · exact genuine f verdict found
  · rw [findAppended] at found
    cases known : v.find? f with
    | some other =>
      rw [known] at found
      exact genuine f verdict (known.trans found)
    | none =>
      rw [known] at found
      by_cases same : d.fingerprint = f
      · simp only [same, Option.none_or, if_pos, Option.some.injEq] at found
        exact ⟨d, same, found⟩
      · simp [same] at found

/- Validation keeps this of a memory, whatever it examines. -/
def Kept (P : Verdicts → Prop) : Prop := ∀ v d, P v → P (v.validate d).2

theorem withinKept (v : Verdicts) : Kept v.Within := fun w d within => within.trans (w.validateWithin d)

theorem genuineKept : Kept Genuine := fun _ d genuine => validateGenuine genuine d

theorem Kept.fold {P : Verdicts → Prop} (kept : Kept P) (ds : List Declaration) {v : Verdicts} (holds : P v) :
    P (ds.foldl (fun v d => (v.validate d).2) v) := by
  induction ds generalizing v with
  | nil => exact holds
  | cons d rest ih => exact ih (kept v d holds)

def Accepts (v : Verdicts) (d : Declaration) : Prop :=
  ∃ contract, v.find? d.fingerprint = some (.ok contract)

theorem Accepts.within {v w : Verdicts} {d : Declaration} (accepts : v.Accepts d)
    (within : v.Within w) : w.Accepts d := by
  obtain ⟨contract, found⟩ := accepts
  exact ⟨contract, within _ _ found⟩

end Realization.Verdicts
