import Mathlib.Data.List.Chain
import Mathlib.Data.List.Nodup
import Realization.Proofs.Sorting

/-!
Walking back around a cycle. What is reached from a vertex on a cycle and reaches it in turn has a
predecessor of the same sort, so a walk that stays in the component of such a vertex never gets stuck; as
the vertices run out, it closes.
-/
namespace Realization.Digraph

open Relation

variable {α : Type} [DecidableEq α] {g : Digraph α} {next : α → List α} {seen stack inside path : List α}
  {u v w : α}

theorem reachSound (found : w ∈ g.reach next seen stack) :
    w ∈ seen ∨ ∃ s ∈ stack, ReflTransGen (fun a b => b ∈ next a) s w := by
  fun_induction reach g next seen stack with
  | case1 => exact .inl found
  | case2 seen v stack entered ih =>
    exact (ih found).imp_right fun ⟨s, member, path⟩ => ⟨s, List.mem_cons_of_mem _ member, path⟩
  | case3 seen v stack fresh known ih =>
    rcases ih found with old | ⟨s, member, path⟩
    · rcases List.mem_cons.mp old with rfl | old
      · exact .inr ⟨w, List.mem_cons_self, .refl⟩
      · exact .inl old
    · rcases List.mem_append.mp member with member | member
      · exact .inr ⟨v, List.mem_cons_self, .head member path⟩
      · exact .inr ⟨s, List.mem_cons_of_mem _ member, path⟩
  | case4 seen v stack fresh unknown ih =>
    exact (ih found).imp_right fun ⟨s, member, path⟩ => ⟨s, List.mem_cons_of_mem _ member, path⟩

/- Nothing is left out as long as what follows a vertex seen is seen itself or waits on the stack. -/
theorem reachClosed (known : ∀ a b, b ∈ next a → b ∈ g.vertices)
    (covered : ∀ a ∈ seen, ∀ b ∈ next a, b ∈ seen ∨ b ∈ stack) :
    (∀ a ∈ seen, a ∈ g.reach next seen stack) ∧
      (∀ a ∈ stack, a ∈ g.vertices → a ∈ g.reach next seen stack) ∧
      ∀ a ∈ g.reach next seen stack, ∀ b ∈ next a, b ∈ g.reach next seen stack := by
  fun_induction reach g next seen stack with
  | case1 seen =>
    refine ⟨fun a member => member, by simp, fun a member b following => ?_⟩
    exact (covered a member b following).resolve_right List.not_mem_nil
  | case2 seen v stack entered ih =>
    obtain ⟨kept, waiting, closed⟩ := ih fun a member b following => by
      rcases covered a member b following with old | listed
      · exact .inl old
      · rcases List.mem_cons.mp listed with rfl | listed
        · exact .inl entered
        · exact .inr listed
    refine ⟨kept, fun a member inside => ?_, closed⟩
    rcases List.mem_cons.mp member with rfl | member
    · exact kept a entered
    · exact waiting a member inside
  | case3 seen v stack fresh inside ih =>
    obtain ⟨kept, waiting, closed⟩ := ih fun a member b following => by
      rcases List.mem_cons.mp member with rfl | member
      · exact .inr (List.mem_append_left _ following)
      · rcases covered a member b following with old | listed
        · exact .inl (List.mem_cons_of_mem _ old)
        · rcases List.mem_cons.mp listed with rfl | listed
          · exact .inl List.mem_cons_self
          · exact .inr (List.mem_append_right _ listed)
    refine ⟨fun a member => kept a (List.mem_cons_of_mem _ member), fun a member inside => ?_, closed⟩
    rcases List.mem_cons.mp member with rfl | member
    · exact kept a List.mem_cons_self
    · exact waiting a (List.mem_append_right _ member) inside
  | case4 seen v stack fresh unknown ih =>
    obtain ⟨kept, waiting, closed⟩ := ih fun a member b following => by
      rcases covered a member b following with old | listed
      · exact .inl old
      · rcases List.mem_cons.mp listed with rfl | listed
        · exact absurd (known a b following) unknown
        · exact .inr listed
    refine ⟨kept, fun a member inside => ?_, closed⟩
    rcases List.mem_cons.mp member with rfl | member
    · exact absurd inside unknown
    · exact waiting a member inside

theorem reachExact (known : ∀ a b, b ∈ next a → b ∈ g.vertices) (start : v ∈ g.vertices) :
    w ∈ g.reach next [] [v] ↔ ReflTransGen (fun a b => b ∈ next a) v w := by
  constructor
  · intro found
    rcases reachSound found with nothing | ⟨s, member, path⟩
    · contradiction
    · cases List.mem_singleton.mp member
      exact path
  · have nothing : ∀ a ∈ ([] : List α), ∀ b ∈ next a, b ∈ [] ∨ b ∈ [v] := by simp
    obtain ⟨_, here, closed⟩ := reachClosed known nothing
    intro path
    induction path with
    | refl => exact here v List.mem_cons_self start
    | tail _ step ih => exact closed _ ih _ step

theorem memComponent (closed : g.Closed) (start : v ∈ g.vertices) :
    w ∈ g.component v ↔ ReflTransGen g.Edge v w ∧ ReflTransGen g.Edge w v := by
  have forward : (fun a b => b ∈ g.successors a) = g.Edge := by
    funext a b
    exact propext memSuccessors
  have backward : (fun a b => b ∈ g.predecessors a) = Function.swap g.Edge := by
    funext a b
    exact propext memPredecessors
  have reversed : ReflTransGen (Function.swap g.Edge) v w ↔ ReflTransGen g.Edge w v := reflTransGen_swap
  unfold component
  rw [List.mem_filter, decide_eq_true_eq,
    reachExact (fun a b edge => (closed a b (memSuccessors.mp edge)).2) start,
    reachExact (fun a b edge => (closed b a (memPredecessors.mp edge)).1) start, forward, backward,
    reversed]

theorem stepBackFound (found : g.stepBack? inside v = some u) : g.Edge u v ∧ u ∈ inside := by
  have member := List.find?_some found
  simpa only [decide_eq_true_eq, List.mem_filter, memPredecessors] using member

theorem stepBackSome (closed : g.Closed) (edge : g.Edge u v) (member : u ∈ inside) :
    ∃ w ∈ inside, g.stepBack? inside v = some w := by
  have listed : u ∈ (g.predecessors v).filter (· ∈ inside) :=
    List.mem_filter.mpr ⟨memPredecessors.mpr edge, decide_eq_true member⟩
  have found : (g.stepBack? inside v).isSome := by
    unfold stepBack?
    rw [List.find?_isSome]
    exact ⟨u, (closed u v edge).1, decide_eq_true listed⟩
  obtain ⟨w, found⟩ := Option.isSome_iff_exists.mp found
  exact ⟨w, (stepBackFound found).2, found⟩

theorem componentSteps (closed : g.Closed) (cycle : TransGen g.Edge v v) (member : u ∈ g.component v) :
    ∃ w ∈ g.component v, g.stepBack? (g.component v) u = some w := by
  obtain ⟨_, first, _⟩ := TransGen.head'_iff.mp cycle
  have start := (closed v _ first).1
  obtain ⟨there, back⟩ := (memComponent closed start).mp member
  have around : TransGen g.Edge v u := cycle.trans_left there
  obtain ⟨p, path, edge⟩ := TransGen.tail'_iff.mp around
  have inner : p ∈ g.component v := (memComponent closed start).mpr ⟨path, .head edge back⟩
  exact stepBackSome closed edge inner

theorem closeWalkEnds (steps : ∀ u ∈ inside, ∃ w ∈ inside, g.stepBack? inside u = some w)
    (here : v ∈ inside) : ∃ walk, g.closeWalk inside path v = .ok walk := by
  fun_induction closeWalk g inside path v with
  | case1 path v stuck =>
    obtain ⟨w, _, found⟩ := steps v here
    rw [stuck] at found
    contradiction
  | case2 path v u found closing => exact ⟨_, rfl⟩
  | case3 path v u found onward ih => exact ih (stepBackFound found).2

theorem cycleFromEnds (closed : g.Closed) (cycle : TransGen g.Edge v v) :
    ∃ walk, g.cycleFrom v = .ok walk := by
  obtain ⟨_, first, _⟩ := TransGen.head'_iff.mp cycle
  have start := (closed v _ first).1
  exact closeWalkEnds (fun u => componentSteps closed cycle) ((memComponent closed start).mpr ⟨.refl, .refl⟩)

structure Walk (g : Digraph α) (inside : List α) (v : α) (walk : List α) : Prop where
  start : walk.head? = some v
  steps : walk.IsChain fun a b => g.stepBack? inside a = some b
  distinct : walk.dropLast.Nodup
  within : walk ⊆ g.vertices

namespace Walk

variable {walk : List α}

theorem step (walks : g.Walk inside v walk) (last : walk.getLast? = some w)
    (found : g.stepBack? inside w = some u) (fresh : walk.Nodup) : g.Walk inside v (walk ++ [u]) where
  start := by rw [List.head?_append, walks.start, Option.some_or]
  steps := by
    refine walks.steps.append (.singleton _) fun a ended b head => ?_
    cases (Option.mem_some_iff.mp head : u = b)
    cases (Option.mem_def.mp ended).symm.trans last
    exact found
  distinct := by rwa [List.dropLast_concat]
  within a member := by
    rcases List.mem_append.mp member with member | member
    · exact walks.within member
    · cases List.mem_singleton.mp member
      exact List.mem_of_find?_eq_some found

theorem short (walks : g.Walk inside v walk) : walk.length ≤ g.vertices.length + 1 := by
  have fits := walks.distinct.length_le_of_subset fun a member => walks.within (List.dropLast_subset _ member)
  rw [List.length_dropLast] at fits
  omega

end Walk

theorem closeWalkWalks {told : List α} (walks : g.Walk inside w path) (last : path.getLast? = some v)
    (fresh : path.Nodup) (answer : g.closeWalk inside path v = .ok told) :
    ∃ lead u rest, told = u :: rest ++ [u] ∧ g.Walk inside w (lead ++ told) := by
  fun_induction closeWalk g inside path v with
  | case1 => contradiction
  | case2 path v u found closing =>
    cases answer
    have here := List.idxOf_lt_length_iff.mpr closing
    have split : path.drop (path.idxOf u) = u :: path.drop (path.idxOf u + 1) := by
      rw [List.drop_eq_getElem_cons here, List.getElem_idxOf here]
    refine ⟨path.take (path.idxOf u), u, path.drop (path.idxOf u + 1), by rw [split], ?_⟩
    rw [← List.append_assoc, List.take_append_drop]
    exact walks.step last found fresh
  | case3 path v u found onward ih =>
    have apart : ∀ a ∈ path, a ≠ u := fun a member same => onward (same ▸ member)
    exact ih (walks.step last found fresh) List.getLast?_concat
      (List.nodup_append.mpr ⟨fresh, List.nodup_singleton u, by simpa using apart⟩) answer

theorem cycleFromWalks {told : List α} (known : v ∈ g.vertices) (answer : g.cycleFrom v = .ok told) :
    ∃ lead u rest, told = u :: rest ++ [u] ∧ g.Walk (g.component v) v (lead ++ told) :=
  closeWalkWalks ⟨rfl, .singleton v, List.nodup_nil, by simpa using known⟩ rfl (List.nodup_singleton v) answer

end Realization.Digraph
