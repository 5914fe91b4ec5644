import Mathlib.Data.List.Induction
import Mathlib.Data.List.Nodup

/-!
Lists in the order of first mention: each item once, where it stands first. This is the order in which a
contract has its properties, a registry its entries and a memory its verdicts. The first item of which something
holds is what a search that stops there reports.
-/
namespace Realization

section

variable {α : Type} [BEq α] [LawfulBEq α]

theorem eraseDupsSnoc (xs : List α) (x : α) :
    (xs ++ [x]).eraseDups = if x ∈ xs then xs.eraseDups else xs.eraseDups ++ [x] := by
  rw [List.eraseDups_append]
  by_cases old : x ∈ xs
  · simp [List.removeAll, old]
  · simp [List.removeAll, old, List.eraseDups_cons]

theorem eraseDupsNodup (xs : List α) : xs.eraseDups.Nodup := by
  induction xs using List.reverseRecOn with
  | nil => exact List.nodup_nil
  | append_singleton xs x ih =>
    rw [eraseDupsSnoc]
    split
    · exact ih
    · rename_i fresh
      have apart : ∀ y ∈ xs.eraseDups, y ≠ x := fun y member same =>
        fresh (same ▸ List.mem_eraseDups.mp member)
      exact List.nodup_append.mpr ⟨ih, List.nodup_singleton x, by simpa using apart⟩

/- The first items, and then those of the others that are not among them, each where it stands first. -/
def joined (xs ys : List α) : List α := xs ++ (ys.filter fun y => !xs.contains y).eraseDups

@[simp] theorem joinedNil (xs : List α) : joined xs [] = xs := by simp [joined]

theorem joinedCons (xs ys : List α) (y : α) :
    joined xs (y :: ys) = joined (if y ∈ xs then xs else xs ++ [y]) ys := by
  unfold joined
  by_cases old : y ∈ xs
  · simp [old]
  · have apart : (ys.filter fun z => !xs.contains z).filter (fun z => !z == y) =
        ys.filter fun z => !(xs ++ [y]).contains z := by
      rw [List.filter_filter]
      congr 1
      funext z
      by_cases same : z = y <;> by_cases known : z ∈ xs <;> simp [same, known]
    have fresh : (!xs.contains y) = true := by simpa using old
    rw [List.filter_cons, if_pos fresh, List.eraseDups_cons, apart, if_neg old, List.append_assoc,
      List.singleton_append]

end

theorem splitCons {α : Type} {xs : List α} {x y : α} {p : List α → Prop} :
    (∃ before after, y :: xs = before ++ x :: after ∧ p before) ↔
      y = x ∧ p [] ∨ ∃ before after, xs = before ++ x :: after ∧ p (y :: before) := by
  constructor
  · rintro ⟨before, after, whole, here⟩
    cases before with
    | nil =>
      cases whole
      exact .inl ⟨rfl, here⟩
    | cons z before =>
      cases whole
      exact .inr ⟨before, after, rfl, here⟩
  · rintro (⟨rfl, here⟩ | ⟨before, after, rfl, here⟩)
    · exact ⟨[], xs, rfl, here⟩
    · exact ⟨y :: before, after, rfl, here⟩

def First {α : Type} (holds : α → Prop) (xs : List α) (x : α) : Prop :=
  holds x ∧ ∃ earlier later, xs = earlier ++ x :: later ∧ ∀ y ∈ earlier, ¬ holds y

section

variable {α β : Type} {holds holds' : α → Prop} {xs : List α} {x y : α}

theorem firstCons : First holds (y :: xs) x ↔ holds y ∧ x = y ∨ ¬ holds y ∧ First holds xs x := by
  unfold First
  rw [splitCons]
  simp only [List.forall_mem_cons]
  constructor
  · rintro ⟨here, ⟨rfl, _⟩ | ⟨earlier, later, whole, before, others⟩⟩
    · exact .inl ⟨here, rfl⟩
    · exact .inr ⟨before, here, earlier, later, whole, others⟩
  · rintro (⟨here, rfl⟩ | ⟨before, here, earlier, later, whole, others⟩)
    · exact ⟨here, .inl ⟨rfl, by simp⟩⟩
    · exact ⟨here, .inr ⟨earlier, later, whole, before, others⟩⟩

theorem First.member (first : First holds xs x) : x ∈ xs := by
  obtain ⟨_, earlier, later, rfl, _⟩ := first
  simp

theorem firstExists (member : x ∈ xs) (here : holds x) : ∃ x, First holds xs x := by
  induction xs with
  | nil => contradiction
  | cons y rest ih =>
    by_cases now : holds y
    · exact ⟨y, firstCons.mpr (.inl ⟨now, rfl⟩)⟩
    · have later : x ∈ rest := (List.mem_cons.mp member).resolve_left fun same => now (same ▸ here)
      obtain ⟨z, first⟩ := ih later
      exact ⟨z, firstCons.mpr (.inr ⟨now, first⟩)⟩

theorem firstCongr (same : ∀ x ∈ xs, (holds x ↔ holds' x)) : First holds xs x ↔ First holds' xs x := by
  induction xs with
  | nil => simp [First]
  | cons y rest ih =>
    obtain ⟨here, tail⟩ := List.forall_mem_cons.mp same
    rw [firstCons, firstCons, here, ih tail]

theorem firstFound {test : α → Bool} (exact : ∀ x, test x = true ↔ holds x) :
    xs.find? test = some x ↔ First holds xs x := by
  rw [List.find?_eq_some_iff_append]
  simp only [First, ← exact, Bool.not_eq_true, Bool.not_eq_true']

theorem firstMap {f : β → α} {ys : List β} :
    First holds (ys.map f) x ↔ ∃ y, First (fun y => holds (f y)) ys y ∧ f y = x := by
  induction ys with
  | nil => simp [First]
  | cons y rest ih =>
    simp only [List.map_cons, firstCons, ih]
    constructor
    · rintro (⟨here, rfl⟩ | ⟨before, z, first, rfl⟩)
      · exact ⟨y, .inl ⟨here, rfl⟩, rfl⟩
      · exact ⟨z, .inr ⟨before, first⟩, rfl⟩
    · rintro ⟨z, ⟨here, rfl⟩ | ⟨before, first⟩, rfl⟩
      · exact .inl ⟨here, rfl⟩
      · exact .inr ⟨before, z, first, rfl⟩

end

end Realization
