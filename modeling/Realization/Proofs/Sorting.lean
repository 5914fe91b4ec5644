import Mathlib.Logic.Relation
import Realization.Digraph

/-!
Sorting a directed graph. The search leaves a vertex only when all its successors are left but those
that lead back to it; so on a graph without cycles the vertices come out sorted, on any graph a list that
passes the second look proves that there is no cycle, and what the search or the second look objects to
lies on one.
-/
namespace Realization.Digraph

open Relation

variable {α : Type} [DecidableEq α] {g : Digraph α} {seen done stack seen' done' : List α} {u v w : α}

def Edge (g : Digraph α) (u v : α) : Prop := (u, v) ∈ g.edges

def Closed (g : Digraph α) : Prop := ∀ u v, g.Edge u v → u ∈ g.vertices ∧ v ∈ g.vertices

def Acyclic (g : Digraph α) : Prop := ∀ v, ¬ TransGen g.Edge v v

theorem memSuccessors : w ∈ g.successors v ↔ g.Edge v w := by
  simp [successors, Edge]

theorem memPredecessors : u ∈ g.predecessors v ↔ g.Edge u v := by
  simp only [predecessors, List.mem_filterMap, Option.ite_none_right_eq_some, Option.some.injEq, Edge]
  constructor
  · rintro ⟨_, member, rfl, rfl⟩
    exact member
  · exact fun member => ⟨(u, v), member, rfl, rfl⟩

theorem exploreLoop (found : g.explore seen done stack = .error v) : g.Edge v v := by
  fun_induction explore g seen done stack with
  | case1 => contradiction
  | case2 _ _ _ _ _ ih => exact ih found
  | case3 _ _ _ _ _ _ loop =>
    cases found
    exact memSuccessors.mp loop
  | case4 _ _ _ _ _ _ _ ih => exact ih found
  | case5 _ _ _ _ _ _ ih => exact ih found

theorem exploreDone (found : g.explore seen done stack = .ok (seen', done')) :
    (∀ v ∈ done, v ∈ done') ∧ (∀ v ∈ stack, v ∈ g.vertices → v ∈ done') ∧
      ((∀ v ∈ seen, ¬ g.Edge v v) → (∀ v ∈ done, ¬ g.Edge v v) →
        (∀ v ∈ seen', ¬ g.Edge v v) ∧ ∀ v ∈ done', ¬ g.Edge v v) := by
  fun_induction explore g seen done stack with
  | case1 seen done =>
    cases found
    exact ⟨fun v member => member, by simp, fun first second => ⟨first, second⟩⟩
  | case2 seen done v stack entered ih =>
    obtain ⟨kept, rest, loops⟩ := ih found
    have here : v ∈ done' := kept v (by split <;> simp_all)
    have sub : ∀ u ∈ done, u ∈ done' := fun u member => kept u (by split <;> simp_all)
    refine ⟨sub, ?_, fun first second => loops first ?_⟩
    · intro u member inside
      rcases List.mem_cons.mp member with rfl | later
      · exact here
      · exact rest u later inside
    · intro u member
      split at member
      · exact second u member
      · rcases List.mem_cons.mp member with rfl | member
        · exact first u entered
        · exact second u member
  | case3 => contradiction
  | case4 seen done v stack fresh inside straight ih =>
    obtain ⟨kept, rest, loops⟩ := ih found
    refine ⟨kept, fun u member known => rest u (List.mem_append_right _ member) known, fun first => ?_⟩
    refine loops fun u member => ?_
    rcases List.mem_cons.mp member with rfl | member
    · exact fun loop => straight (memSuccessors.mpr loop)
    · exact first u member
  | case5 seen done v stack fresh outside ih =>
    obtain ⟨kept, rest, loops⟩ := ih found
    refine ⟨kept, fun u member known => ?_, loops⟩
    rcases List.mem_cons.mp member with rfl | later
    · exact absurd known outside
    · exact rest u later known

theorem exploreInside (found : g.explore seen done stack = .ok (seen', done'))
    (entered : ∀ v ∈ seen, v ∈ g.vertices) (left : ∀ v ∈ done, v ∈ g.vertices) :
    (∀ v ∈ seen', v ∈ g.vertices) ∧ ∀ v ∈ done', v ∈ g.vertices := by
  fun_induction explore g seen done stack with
  | case1 seen done =>
    cases found
    exact ⟨entered, left⟩
  | case2 seen done v stack known ih =>
    refine ih found entered fun u member => ?_
    split at member
    · exact left u member
    · rcases List.mem_cons.mp member with rfl | member
      · exact entered u known
      · exact left u member
  | case3 => contradiction
  | case4 seen done v stack fresh inside straight ih =>
    refine ih found (fun u member => ?_) left
    rcases List.mem_cons.mp member with rfl | member
    · exact inside
    · exact entered u member
  | case5 seen done v stack fresh outside ih => exact ih found entered left

/- The search at work: what is done is listed once, behind its successors; and a vertex that is
entered but not done waits on the stack below every successor still to be done, and reaches all that
lies above it. A successor from which the vertex can be reached may stand anywhere. -/
structure Searching (g : Digraph α) (seen done stack : List α) : Prop where
  entered : ∀ v ∈ done, v ∈ seen
  once : done.Nodup
  behind : ∀ before v after, done = before ++ v :: after →
    ∀ w, g.Edge v w → w ∈ after ∨ TransGen g.Edge w v
  waiting : ∀ v ∈ seen, v ∉ done → ∃ above below, stack = above ++ v :: below ∧ v ∉ above ∧
    (∀ w, g.Edge v w → w ∈ done ∨ w ∈ above ∨ TransGen g.Edge w v) ∧ ∀ x ∈ above, TransGen g.Edge v x

namespace Searching

section

omit [DecidableEq α]

theorem below (searching : g.Searching seen done (v :: stack)) (entered : u ∈ seen) (undone : u ∉ done)
    (other : u ≠ v) (kept : ∀ w ∈ done, w ∈ done') (left : g.Edge u v → v ∈ done') :
    ∃ above below, stack = above ++ u :: below ∧ u ∉ above ∧
      (∀ w, g.Edge u w → w ∈ done' ∨ w ∈ above ∨ TransGen g.Edge w u) ∧
        ∀ x ∈ above, TransGen g.Edge u x := by
  obtain ⟨above, below, whole, fresh, next, reaches⟩ := searching.waiting u entered undone
  cases above with
  | nil =>
    cases whole
    exact absurd rfl other
  | cons x above =>
    cases whole
    simp only [List.mem_cons, not_or] at fresh
    refine ⟨above, below, rfl, fresh.2, fun w edge => ?_, fun y member =>
      reaches y (List.mem_cons_of_mem _ member)⟩
    rcases next w edge with known | known | back
    · exact .inl (kept w known)
    · rcases List.mem_cons.mp known with rfl | known
      · exact .inl (left edge)
      · exact .inr (.inl known)
    · exact .inr (.inr back)

theorem drop (searching : g.Searching seen done (v :: stack)) (settled : v ∈ seen → v ∈ done)
    (left : ∀ u, g.Edge u v → v ∈ done) : g.Searching seen done stack where
  entered := searching.entered
  once := searching.once
  behind := searching.behind
  waiting u member undone := by
    have other : u ≠ v := by
      rintro rfl
      exact undone (settled member)
    exact searching.below member undone other (fun _ known => known) (left u)

theorem leave (searching : g.Searching seen done (v :: stack)) (entered : v ∈ seen)
    (undone : v ∉ done) : g.Searching seen (v :: done) stack where
  entered u member := by
    rcases List.mem_cons.mp member with rfl | member
    · exact entered
    · exact searching.entered u member
  once := List.nodup_cons.mpr ⟨undone, searching.once⟩
  behind before u after whole w edge := by
    cases before with
    | nil =>
      cases whole
      obtain ⟨above, below, whole, fresh, next, _⟩ := searching.waiting v entered undone
      cases above with
      | nil => simpa using next w edge
      | cons x above =>
        cases whole
        simp at fresh
    | cons x before =>
      cases whole
      exact searching.behind before u after rfl w edge
  waiting u member undone := by
    simp only [List.mem_cons, not_or] at undone
    exact searching.below member undone.2 undone.1 (fun _ => List.mem_cons_of_mem _)
      fun _ => List.mem_cons_self

end

omit [DecidableEq α] in
theorem reachesTop (searching : g.Searching seen done (v :: stack)) (entered : w ∈ seen) (undone : w ∉ done) :
    w = v ∨ TransGen g.Edge w v := by
  obtain ⟨above, below, whole, _, _, reaches⟩ := searching.waiting w entered undone
  cases above with
  | nil =>
    cases whole
    exact .inl rfl
  | cons x above =>
    cases whole
    exact .inr (reaches v List.mem_cons_self)

/- The top of the stack is entered; a successor of it still waiting below reaches it. -/
theorem enter (searching : g.Searching seen done (v :: stack)) (fresh : v ∉ seen) :
    g.Searching (v :: seen) done
      (((g.successors v).filter (· ∉ v :: seen)).reverse ++ v :: stack) := by
  have pushed : ∀ w, w ∈ ((g.successors v).filter (· ∉ v :: seen)).reverse ↔
      g.Edge v w ∧ w ∉ v :: seen := by
    intro w
    simp only [List.mem_reverse, List.mem_filter, memSuccessors, decide_eq_true_eq]
  refine ⟨fun u member => List.mem_cons_of_mem _ (searching.entered u member), searching.once,
    searching.behind, fun u member undone => ?_⟩
  rcases List.mem_cons.mp member with rfl | member
  · refine ⟨_, stack, rfl, fun listed => ((pushed u).mp listed).2 List.mem_cons_self, fun w edge => ?_,
      fun x listed => .single ((pushed x).mp listed).1⟩
    by_cases known : w ∈ done
    · exact .inl known
    · right
      by_cases entered : w ∈ u :: seen
      · right
        rcases List.mem_cons.mp entered with rfl | entered
        · exact .single edge
        · rcases searching.reachesTop entered known with rfl | back
          · exact .single edge
          · exact back
      · exact .inl ((pushed w).mpr ⟨edge, entered⟩)
  · obtain ⟨above, below, whole, other, next, reaches⟩ := searching.waiting u member undone
    cases above with
    | nil =>
      cases whole
      exact absurd member fresh
    | cons x above =>
      cases whole
      refine ⟨((g.successors v).filter (· ∉ v :: seen)).reverse ++ v :: above, below, by simp, ?_, ?_, ?_⟩
      · intro listed
        rcases List.mem_append.mp listed with listed | listed
        · exact ((pushed u).mp listed).2 (List.mem_cons_of_mem _ member)
        · exact other listed
      · intro w edge
        rcases next w edge with known | known | back
        · exact .inl known
        · exact .inr (.inl (List.mem_append_right _ known))
        · exact .inr (.inr back)
      · intro y listed
        rcases List.mem_append.mp listed with listed | listed
        · exact (reaches v List.mem_cons_self).tail ((pushed y).mp listed).1
        · exact reaches y listed

end Searching

theorem exploreSearching (closed : g.Closed) (searching : g.Searching seen done stack)
    (found : g.explore seen done stack = .ok (seen', done')) : g.Searching seen' done' [] := by
  fun_induction explore g seen done stack with
  | case1 seen done =>
    cases found
    exact searching
  | case2 seen done v stack entered ih =>
    refine ih ?_ found
    split
    · rename_i finished
      exact searching.drop (fun _ => finished) fun _ _ => finished
    · rename_i undone
      exact searching.leave entered undone
  | case3 => contradiction
  | case4 seen done v stack fresh inside straight ih => exact ih (searching.enter fresh) found
  | case5 seen done v stack fresh outside ih =>
    exact ih (searching.drop (fun entered => absurd entered fresh)
      fun u edge => absurd (closed u v edge).2 outside) found

omit [DecidableEq α] in
theorem searchingNil (g : Digraph α) : g.Searching [] [] [] := ⟨by simp, List.nodup_nil, by simp, by simp⟩

theorem finishingLoop {vs : List α} (found : g.finishing seen done vs = .error v) : g.Edge v v := by
  induction vs generalizing seen done with
  | nil => contradiction
  | cons u rest ih =>
    unfold finishing at found
    split at found
    · rename_i answer
      cases found
      exact exploreLoop answer
    · exact ih found

theorem finishingDone {vs order : List α} (found : g.finishing seen done vs = .ok order)
    (first : ∀ v ∈ seen, ¬ g.Edge v v) (second : ∀ v ∈ done, ¬ g.Edge v v) :
    (∀ v ∈ done, v ∈ order) ∧ (∀ v ∈ vs, v ∈ g.vertices → v ∈ order) ∧ ∀ v ∈ order, ¬ g.Edge v v := by
  induction vs generalizing seen done with
  | nil =>
    cases found
    exact ⟨fun v member => member, by simp, second⟩
  | cons u rest ih =>
    unfold finishing at found
    split at found
    · contradiction
    · rename_i answer
      obtain ⟨kept, here, loops⟩ := exploreDone answer
      obtain ⟨first, second⟩ := loops first second
      obtain ⟨later, others, straight⟩ := ih found first second
      refine ⟨fun v member => later v (kept v member), fun v member known => ?_, straight⟩
      rcases List.mem_cons.mp member with rfl | member
      · exact later v (here v List.mem_cons_self known)
      · exact others v member known

theorem finishingInside {vs order : List α} (found : g.finishing seen done vs = .ok order)
    (entered : ∀ v ∈ seen, v ∈ g.vertices) (left : ∀ v ∈ done, v ∈ g.vertices) :
    ∀ v ∈ order, v ∈ g.vertices := by
  induction vs generalizing seen done with
  | nil =>
    cases found
    exact left
  | cons u rest ih =>
    unfold finishing at found
    split at found
    · contradiction
    · rename_i answer
      obtain ⟨entered, left⟩ := exploreInside answer entered left
      exact ih found entered left

theorem finishingSearching (closed : g.Closed) {vs order : List α} (searching : g.Searching seen done [])
    (found : g.finishing seen done vs = .ok order) : ∃ seen', g.Searching seen' order [] := by
  induction vs generalizing seen done with
  | nil =>
    cases found
    exact ⟨seen, searching⟩
  | cons u rest ih =>
    unfold finishing at found
    split at found
    · contradiction
    · rename_i answer
      refine ih (exploreSearching closed ?_ answer) found
      refine ⟨searching.entered, searching.once, searching.behind, fun v member undone => ?_⟩
      obtain ⟨above, below, whole, _⟩ := searching.waiting v member undone
      simp at whole

theorem strayNone {order before after : List α} (none : g.stray seen order = .none)
    (whole : order = before ++ v :: after) (edge : g.Edge u v) : u = v ∨ u ∈ before ∨ u ∈ seen := by
  induction order generalizing seen before with
  | nil => simp at whole
  | cons x rest ih =>
    unfold stray at none
    split at none
    · contradiction
    · rename_i passed
      cases before with
      | nil =>
        cases whole
        rw [List.getLast?_eq_none_iff, List.filter_eq_nil_iff] at passed
        have known := passed u (memPredecessors.mpr edge)
        simp only [List.mem_cons, not_or, decide_eq_true_eq, not_and, Decidable.not_not] at known
        exact (Decidable.em (u = v)).imp_right fun other => .inr (known other)
      | cons y before =>
        cases whole
        rcases ih none rfl with same | known | known
        · exact .inl same
        · exact .inr (.inl (List.mem_cons_of_mem _ known))
        · rcases List.mem_cons.mp known with rfl | known
          · exact .inr (.inl List.mem_cons_self)
          · exact .inr (.inr known)

theorem straySome {order : List α} (found : g.stray seen order = some u) :
    ∃ before v after, order = before ++ v :: after ∧ g.Edge u v ∧ u ≠ v ∧ u ∉ before ∧ u ∉ seen := by
  induction order generalizing seen with
  | nil => contradiction
  | cons x rest ih =>
    unfold stray at found
    split at found
    · rename_i last
      cases found
      have member := List.mem_of_getLast? last
      simp only [List.mem_filter, memPredecessors, List.mem_cons, not_or, decide_eq_true_eq] at member
      exact ⟨[], x, rest, rfl, member.1, member.2.1, List.not_mem_nil, member.2.2⟩
    · obtain ⟨before, v, after, rfl, edge, other, missing, unseen⟩ := ih found
      simp only [List.mem_cons, not_or] at unseen
      exact ⟨x :: before, v, after, rfl, edge, other, by simp [unseen.1, missing], unseen.2⟩

theorem finishingBack (closed : g.Closed) {order before after : List α}
    (found : g.finishing [] [] g.vertices = .ok order) (whole : order = before ++ v :: after)
    (edge : g.Edge u v) (missing : u ∉ before) : u = v ∨ TransGen g.Edge v u := by
  obtain ⟨seen', searching⟩ := finishingSearching closed (searchingNil g) found
  have known := (finishingDone found (by simp) (by simp)).2.1 u (closed u v edge).1 (closed u v edge).1
  rw [whole] at known
  rcases List.mem_cons.mp ((List.mem_append.mp known).resolve_left missing) with same | late
  · exact .inl same
  · obtain ⟨between, rest, split⟩ := List.append_of_mem late
    rcases searching.behind (before ++ v :: between) u rest (by simp [whole, split]) v edge with again | back
    · -- then v would be listed twice
      have once := searching.once
      rw [whole, split, List.nodup_append, List.nodup_cons] at once
      exact absurd (List.mem_append_right _ (List.mem_cons_of_mem _ again)) once.2.1.1
    · exact .inr back

theorem sortCycle (closed : g.Closed) (found : g.sort = .error v) : TransGen g.Edge v v := by
  unfold sort at found
  split at found
  · rename_i answer
    cases found
    exact .single (finishingLoop answer)
  · rename_i order answer
    split at found
    · rename_i objected
      cases found
      obtain ⟨before, w, after, whole, edge, other, missing, _⟩ := straySome objected
      exact .head edge ((finishingBack closed answer whole edge missing).resolve_left other)
    · contradiction

theorem sortPassed {order : List α} (sorted : g.sort = .ok order) :
    g.finishing [] [] g.vertices = .ok order ∧ g.stray [] order = none := by
  unfold sort at sorted
  split at sorted
  · contradiction
  · rename_i listed answer
    split at sorted
    · contradiction
    · rename_i passed
      cases sorted
      exact ⟨answer, passed⟩

theorem sortForward (closed : g.Closed) {order : List α} (sorted : g.sort = .ok order) (edge : g.Edge u v) :
    ∃ before after, order = before ++ v :: after ∧ u ∈ before := by
  obtain ⟨answer, passed⟩ := sortPassed sorted
  obtain ⟨_, all, straight⟩ := finishingDone answer (by simp) (by simp)
  have known := all v (closed u v edge).2 (closed u v edge).2
  obtain ⟨before, after, whole, _⟩ := List.eq_append_cons_of_mem known
  rcases strayNone passed whole edge with rfl | early | nothing
  · exact absurd edge (straight u known)
  · exact ⟨before, after, whole, early⟩
  · contradiction

theorem sortOnce (closed : g.Closed) {order : List α} (sorted : g.sort = .ok order) : order.Nodup := by
  obtain ⟨_, searching⟩ := finishingSearching closed (searchingNil g) (sortPassed sorted).1
  exact searching.once

theorem sortListed (closed : g.Closed) (distinct : g.vertices.Nodup) {order : List α}
    (sorted : g.sort = .ok order) : order.Perm g.vertices := by
  obtain ⟨answer, _⟩ := sortPassed sorted
  obtain ⟨_, all, _⟩ := finishingDone answer (by simp) (by simp)
  have same : ∀ v, v ∈ order ↔ v ∈ g.vertices := fun v =>
    ⟨fun listed => finishingInside answer (by simp) (by simp) v listed, fun inside => all v inside inside⟩
  exact (List.perm_ext_iff_of_nodup (sortOnce closed sorted) distinct).mpr same

theorem sortExact (closed : g.Closed) : (∃ order, g.sort = .ok order) ↔ g.Acyclic := by
  constructor
  · rintro ⟨order, sorted⟩
    have once := sortOnce closed sorted
    have forward : ∀ u v, g.Edge u v → order.idxOf u < order.idxOf v := by
      intro u v edge
      obtain ⟨before, after, rfl, early⟩ := sortForward closed sorted edge
      have late : v ∉ before := fun listed =>
        (List.nodup_append.mp once).2.2 v listed v List.mem_cons_self rfl
      rw [List.idxOf_append, List.idxOf_append, if_pos early, if_neg late]
      exact Nat.lt_add_left _ (List.idxOf_lt_length_iff.mpr early)
    have further : ∀ u v, TransGen g.Edge u v → order.idxOf u < order.idxOf v := by
      intro u v path
      induction path with
      | single edge => exact forward _ _ edge
      | tail _ edge ih => exact Nat.lt_trans ih (forward _ _ edge)
    exact fun v cycle => Nat.lt_irrefl _ (further v v cycle)
  · intro acyclic
    cases answer : g.sort with
    | error v => exact absurd (sortCycle closed answer) (acyclic v)
    | ok order => exact ⟨order, rfl⟩

end Realization.Digraph
