import Mathlib.Data.List.Pairwise
import Realization.Text.Case

/-!
Letter case, read off the rows of the tables. A character that is uppercase keeps itself when lowered, or it is
shifted with its row to a character that is not uppercase; no two rows shift uppercase characters to the same one,
but for four pairs of letters that look alike. A dotted capital I is the only one that is lowered to two characters.
-/
namespace Realization.Text

namespace Run

def sparse (r : Run) : Bool := r.stride == 2 || r.first == r.last

def apart (r r' : Run) : Bool :=
  r.last.blt r'.first || r'.last.blt r.first || r.sparse && r'.sparse && r.first % 2 != r'.first % 2

def points (r : Run) : List Nat :=
  (List.range ((r.last - r.first) / r.stride + 1)).map fun k => r.first + k * r.stride

variable {r r' : Run} {n : Nat}

theorem holdsIff : r.holds n = true ↔ r.first ≤ n ∧ n ≤ r.last ∧ (n - r.first) % r.stride = 0 := by
  simp [holds, and_assoc]

theorem sparseParity (sparse : r.sparse = true) (held : r.holds n = true) : n % 2 = r.first % 2 := by
  obtain ⟨above, below, step⟩ := holdsIff.mp held
  simp only [Run.sparse, Bool.or_eq_true, beq_iff_eq] at sparse
  rcases sparse with double | single
  · rw [double] at step
    omega
  · rw [Nat.le_antisymm (single ▸ below) above]

theorem apartSound (apart : r.apart r' = true) (held : r.holds n = true) : r'.holds n = false := by
  rw [Bool.eq_false_iff]
  intro held'
  obtain ⟨above, below, _⟩ := holdsIff.mp held
  obtain ⟨above', below', _⟩ := holdsIff.mp held'
  simp only [Run.apart, Bool.or_eq_true, Bool.and_eq_true, Nat.blt_eq, bne_iff_ne] at apart
  rcases apart with (before | after) | ⟨⟨sparse, sparse'⟩, other⟩
  · omega
  · omega
  · exact other ((sparseParity sparse held).symm.trans (sparseParity sparse' held'))

theorem memPoints (held : r.holds n = true) : n ∈ r.points := by
  obtain ⟨above, below, step⟩ := holdsIff.mp held
  refine List.mem_map.mpr ⟨(n - r.first) / r.stride, List.mem_range.mpr ?_, ?_⟩
  · exact Nat.lt_succ_of_le (Nat.div_le_div_right (Nat.sub_le_sub_right below _))
  · rw [Nat.div_mul_cancel (Nat.dvd_of_mod_eq_zero step)]
    omega

end Run

namespace Shift

def image (s : Shift) : Run := ⟨s.apply s.run.first, s.apply s.run.last, s.run.stride⟩

def Sane (s : Shift) : Prop :=
  0 ≤ Int.ofNat s.run.first + s.distance ∧
    (s.image.last < 0xD800 ∨ 0xDFFF < s.image.first ∧ s.image.last < 0x110000)

instance (s : Shift) : Decidable s.Sane := inferInstanceAs (Decidable (_ ∧ _))

variable {s : Shift} {n m : Nat}

theorem Sane.applies (sane : s.Sane) (held : s.run.holds n = true) :
    Int.ofNat (s.apply n) = Int.ofNat n + s.distance := by
  have above := (Run.holdsIff.mp held).1
  have grounded := sane.1
  simp only [Shift.apply, Int.ofNat_eq_natCast] at grounded ⊢
  omega

theorem Sane.injective (sane : s.Sane) (held : s.run.holds n = true) (held' : s.run.holds m = true)
    (same : s.apply n = s.apply m) : n = m := by
  have here := sane.applies held
  have there := sane.applies held'
  simp only [Int.ofNat_eq_natCast] at here there
  omega

theorem Sane.image (sane : s.Sane) (held : s.run.holds n = true) : s.image.holds (s.apply n) = true := by
  obtain ⟨above, below, step⟩ := Run.holdsIff.mp held
  have grounded := sane.1
  have here := sane.applies held
  simp only [Int.ofNat_eq_natCast] at grounded here
  have first : (s.apply s.run.first : Int) = s.run.first + s.distance := by
    simp only [Shift.apply, Int.ofNat_eq_natCast]
    omega
  have last : (s.apply s.run.last : Int) = s.run.last + s.distance := by
    simp only [Shift.apply, Int.ofNat_eq_natCast]
    omega
  refine Run.holdsIff.mpr ⟨?_, ?_, ?_⟩
  · simp only [Shift.image]
    omega
  · simp only [Shift.image]
    omega
  · have same : s.apply n - s.apply s.run.first = n - s.run.first := by omega
    simp only [Shift.image, same, step]

theorem Sane.valid (sane : s.Sane) (held : s.run.holds n = true) :
    (Char.ofNat (s.apply n)).toNat = s.apply n := by
  obtain ⟨above, below, _⟩ := Run.holdsIff.mp (sane.image held)
  have valid : (s.apply n).isValidChar := by
    rcases sane.2 with low | ⟨high, bounded⟩
    · exact .inl (Nat.lt_of_le_of_lt below low)
    · exact .inr ⟨Nat.lt_of_lt_of_le high above, Nat.lt_of_le_of_lt below bounded⟩
  rw [Char.ofNat, dif_pos valid]
  rfl

end Shift

/- Uppercase letters of different scripts or uses that are lowered to the same letter. -/
def twinLetters : List (Char × Char) := [('K', '\u212A'), ('Å', '\u212B'), ('Θ', '\u03F4'), ('Ω', '\u2126')]

def Shift.clear (s s' : Shift) : Bool :=
  s.image.apart s'.image || s.run.points.all fun n => s'.run.points.all fun m =>
    s.apply n != s'.apply m || !isUppercase (Char.ofNat n) || !isUppercase (Char.ofNat m) ||
      twinLetters.contains (Char.ofNat n, Char.ofNat m)

theorem lowerSane : ∀ s ∈ lowerShifts, s.Sane := by decide +kernel

theorem lowerApart : (lowerShifts.all fun s => uppercaseRuns.all s.image.apart) = true := by decide +kernel

theorem lowerClear : lowerShifts.Pairwise fun s s' => s.clear s' = true := by decide +kernel

variable {c c' x : Char} {rest : List Char}

theorem lowerCases (c : Char) : c = '\u0130' ∧ lower c = ['i', '\u0307'] ∨
    (∃ s ∈ lowerShifts, s.run.holds c.toNat = true ∧ lower c = [Char.ofNat (s.apply c.toNat)]) ∨
    lower c = [c] := by
  unfold lower mapCase
  split
  · rename_i image found
    cases List.mem_singleton.mp (List.mem_of_find?_eq_some found)
    have own : 0x130 = c.toNat := by simpa using List.find?_some found
    exact .inl ⟨by rw [← Char.ofNat_toNat c, ← own], rfl⟩
  · split
    · rename_i s found
      exact .inr (.inl ⟨s, List.mem_of_find?_eq_some found, by simpa using List.find?_some found, rfl⟩)
    · exact .inr (.inr rfl)

theorem lowerUppercase (answer : lower c = x :: rest) (upper : isUppercase x = true) : lower c = [c] := by
  rcases lowerCases c with ⟨_, dotted⟩ | ⟨s, row, held, shifted⟩ | kept
  · cases answer.symm.trans dotted
    exact absurd upper (by decide +kernel)
  · cases answer.symm.trans shifted
    have sane := lowerSane s row
    obtain ⟨r, listed, there⟩ := List.any_eq_true.mp upper
    have apart := List.all_eq_true.mp (List.all_eq_true.mp lowerApart s row) r listed
    rw [sane.valid held, Run.apartSound apart (sane.image held)] at there
    contradiction
  · exact kept

def Alike (c c' : Char) : Prop := c = c' ∨ (c, c') ∈ twinLetters ∨ (c', c) ∈ twinLetters

theorem Alike.symm (alike : Alike c c') : Alike c' c := by
  rcases alike with same | twins
  · exact .inl same.symm
  · exact .inr twins.symm

def Shift.Meets (s s' : Shift) : Prop :=
  ∀ c c' : Char, s.run.holds c.toNat = true → s'.run.holds c'.toNat = true → isUppercase c = true →
    isUppercase c' = true → s.apply c.toNat = s'.apply c'.toNat → Alike c c'

theorem clearSound {s s' : Shift} (sane : s.Sane) (sane' : s'.Sane) (clear : s.clear s' = true) : s.Meets s' := by
  intro c c' held held' upper upper' same
  rcases Bool.or_eq_true_iff.mp clear with apart | checked
  · have missed := Run.apartSound apart (sane.image held)
    rw [same, sane'.image held'] at missed
    contradiction
  · have here := List.all_eq_true.mp (List.all_eq_true.mp checked _ (Run.memPoints held)) _ (Run.memPoints held')
    simp only [Char.ofNat_toNat, same, upper, upper', bne_self_eq_false, Bool.not_true, Bool.or_self,
      Bool.false_or, List.contains_iff_mem] at here
    exact .inr (.inl here)

instance : Std.Symm Shift.Meets where
  symm _ _ meets c c' held held' upper upper' same := (meets c' c held' held upper' upper same.symm).symm

theorem rowsMeet {s s' : Shift} (row : s ∈ lowerShifts) (row' : s' ∈ lowerShifts) : s.Meets s' := by
  have meets : lowerShifts.Pairwise Shift.Meets :=
    lowerClear.imp_of_mem fun row row' => clearSound (lowerSane _ row) (lowerSane _ row')
  refine meets.forall_of_forall (fun s row c c' held held' _ _ same => ?_) row row'
  have points := (lowerSane s row).injective held held' same
  exact .inl (by rw [← Char.ofNat_toNat c, points, Char.ofNat_toNat])

theorem lowerMeets (upper : isUppercase c = true) (upper' : isUppercase c' = true) (same : lower c = lower c') :
    Alike c c' := by
  have kept : ∀ {a b : Char}, isUppercase b = true → lower a = [b] → a = b := by
    intro a b upper answer
    exact List.head_eq_of_cons_eq ((lowerUppercase answer upper).symm.trans answer)
  rcases lowerCases c with ⟨own, dotted⟩ | ⟨s, row, held, shifted⟩ | here <;>
    rcases lowerCases c' with ⟨own', dotted'⟩ | ⟨s', row', held', shifted'⟩ | there
  · exact .inl (own.trans own'.symm)
  · rw [dotted, shifted'] at same
    simp at same
  · exact .inl (kept upper' (same.trans there))
  · rw [shifted, dotted'] at same
    simp at same
  · rw [shifted, shifted'] at same
    have points := congrArg Char.toNat (List.head_eq_of_cons_eq same)
    rw [(lowerSane s row).valid held, (lowerSane s' row').valid held'] at points
    exact rowsMeet row row' c c' held held' upper upper' points
  · exact .inl (kept upper' (same.trans there))
  · exact .inl (kept upper (same.symm.trans here)).symm
  · exact .inl (kept upper (same.symm.trans here)).symm
  · exact .inl (kept upper' (same.trans there))

theorem upperRange : c.isUpper = true ↔ 65 ≤ c.toNat ∧ c.toNat ≤ 90 := decide_eq_true_iff

theorem lowerRange : c.isLower = true ↔ 97 ≤ c.toNat ∧ c.toNat ≤ 122 :=
  Bool.and_eq_true_iff.trans (and_congr decide_eq_true_iff decide_eq_true_iff)

theorem digitRange : c.isDigit = true ↔ 48 ≤ c.toNat ∧ c.toNat ≤ 57 :=
  Bool.and_eq_true_iff.trans (and_congr decide_eq_true_iff decide_eq_true_iff)

theorem alphanumAscii (plain : c.isAlphanum = true) : c.toNat < 128 := by
  have parts : (c.isUpper || c.isLower || c.isDigit) = true := plain
  rw [Bool.or_eq_true, Bool.or_eq_true, upperRange, lowerRange, digitRange] at parts
  omega

theorem asciiUppercase (ascii : c.toNat < 128) : isUppercase c = c.isUpper := by
  have beyond : ∀ r ∈ uppercaseRuns.tail, 128 ≤ r.first := by decide +kernel
  have others : uppercaseRuns.tail.any (·.holds c.toNat) = false := by
    refine List.any_eq_false.mpr fun r listed held => ?_
    have above := (Run.holdsIff.mp held).1
    have far := beyond r listed
    omega
  have split : isUppercase c = (Run.holds ⟨0x41, 0x5A, 1⟩ c.toNat || uppercaseRuns.tail.any (·.holds c.toNat)) := rfl
  rw [split, others, Bool.or_false, Bool.eq_iff_iff, Run.holdsIff, upperRange]
  simp [Nat.mod_one]

theorem asciiLower (small : c.isLower = true) :
    upper c = [c.toUpper] ∧ isUppercase c.toUpper = true ∧ lower c.toUpper = [c] := by
  have each : ∀ k < 26, let c := Char.ofNat (97 + k)
      upper c = [c.toUpper] ∧ isUppercase c.toUpper = true ∧ lower c.toUpper = [c] := by decide +kernel
  have range := lowerRange.mp small
  have here := each (c.toNat - 97) (by omega)
  rwa [Nat.add_sub_cancel' range.1, Char.ofNat_toNat] at here

end Realization.Text
