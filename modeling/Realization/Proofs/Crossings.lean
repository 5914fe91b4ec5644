/-!
Words of which the letters are nested but never cross, and how they are put together from such words over
letters of their own.
-/
namespace Realization

def Uncrossed {α : Type} (l : List α) : Prop := ∀ a b, [a, b, a, b].Sublist l → a = b

def Unsurrounded {α : Type} (top : α) (l : List α) : Prop := ∀ a, [a, top, a].Sublist l → a = top

/- Wherever the word is cut, some value stands on both sides. -/
def Linked {α : Type} (word : List α) : Prop :=
  ∀ left right, word = left ++ right → left ≠ [] → right ≠ [] → ∃ x ∈ left, x ∈ right

section
variable {α : Type} {top : α} {first second l : List α}

theorem linkedReturn (a b : α) : Linked [a, b, a] := by
  intro left right whole some some'
  simp only [List.cons_eq_append_iff, List.nil_eq, List.append_eq_nil_iff] at whole
  rcases whole with ⟨rfl, _⟩ | ⟨_, rfl, ⟨rfl, rfl⟩ | ⟨_, rfl, ⟨rfl, rfl⟩ | ⟨_, rfl, rfl, rfl⟩⟩⟩ <;>
    simp_all

theorem Linked.snoc {word : List α} {b : α} (linked : Linked word) (known : b ∈ word) : Linked (word ++ [b]) := by
  intro left right whole some some'
  obtain ⟨rest, last, rfl⟩ := (List.eq_nil_or_concat right).resolve_left some'
  rw [List.concat_eq_append] at whole ⊢
  rw [← List.append_assoc] at whole
  obtain ⟨rfl, same⟩ := List.append_inj' whole rfl
  cases same
  by_cases none : rest = []
  · subst none
    exact ⟨b, by simpa using known, by simp⟩
  · obtain ⟨x, here, there⟩ := linked left rest rfl some none
    exact ⟨x, here, List.mem_append_left _ there⟩

theorem linkedTurns (a b : α) : Linked [a, b, a, b] := (linkedReturn a b).snoc (by simp)

theorem Linked.oneSide {word : List α} (linked : Linked word) (apart : ∀ a ∈ first, a ∉ second)
    (found : word.Sublist (first ++ second)) : word.Sublist first ∨ word.Sublist second := by
  obtain ⟨left, right, rfl, before, after⟩ := List.sublist_append_iff.mp found
  by_cases none : left = []
  · subst none
    exact .inr after
  · by_cases none' : right = []
    · subst none'
      rw [List.append_nil]
      exact .inl before
    · obtain ⟨x, here, there⟩ := linked left right rfl none none'
      exact absurd (after.subset there) (apart x (before.subset here))

theorem uncrossedAppend (uncrossed : Uncrossed first) (uncrossed' : Uncrossed second)
    (apart : ∀ a ∈ first, a ∉ second) : Uncrossed (first ++ second) := by
  intro a b turns
  rcases (linkedTurns a b).oneSide apart turns with before | after
  · exact uncrossed a b before
  · exact uncrossed' a b after

theorem unsurroundedAbsent (absent : top ∉ l) : Unsurrounded top l := by
  intro a found
  exact absurd (found.subset (by simp)) absent

theorem unsurroundedAppend (absent : top ∉ first) (unsurrounded : Unsurrounded top second)
    (apart : ∀ a ∈ first, a ∉ second) : Unsurrounded top (first ++ second) := by
  intro a found
  rcases (linkedReturn a top).oneSide apart found with before | after
  · exact unsurroundedAbsent absent a before
  · exact unsurrounded a after

theorem uncrossedCons (uncrossed : Uncrossed l) (unsurrounded : Unsurrounded top l) :
    Uncrossed (top :: l) := by
  intro a b turns
  rcases List.sublist_cons_iff.mp turns with inside | ⟨rest, whole, inside⟩
  · exact uncrossed a b inside
  · cases whole
    exact (unsurrounded b inside).symm

theorem unsurroundedCons (unsurrounded : Unsurrounded top l) : Unsurrounded top (top :: l) := by
  intro a found
  rcases List.sublist_cons_iff.mp found with inside | ⟨rest, whole, inside⟩
  · exact unsurrounded a inside
  · cases whole
    rfl

end

end Realization
