/-!
Directed graphs given by their vertices and their edges, both in order of insertion. `sort` lists
the vertices so that every edge leads forward, or answers a vertex on a cycle; the list is the
reverse of the order in which a depth-first search finishes the vertices, confirmed by a second
pass. `cycleFrom` turns such a vertex into a closed walk.
-/
namespace Realization

structure Digraph (α : Type) where
  vertices : List α
  edges : List (α × α)

namespace Digraph

variable {α : Type} [DecidableEq α]

def addEdge (g : Digraph α) (e : α × α) : Digraph α :=
  if e ∈ g.edges then g else { g with edges := g.edges ++ [e] }

def successors (g : Digraph α) (v : α) : List α :=
  g.edges.filterMap fun e => if e.1 = v then some e.2 else none

def predecessors (g : Digraph α) (v : α) : List α :=
  g.edges.filterMap fun e => if e.2 = v then some e.1 else none

def unseen (g : Digraph α) (seen : List α) : List α := g.vertices.filter (· ∉ seen)

theorem unseenLess {g : Digraph α} {seen : List α} {v : α} (inside : v ∈ g.vertices)
    (fresh : v ∉ seen) : (g.unseen (v :: seen)).length < (g.unseen seen).length := by
  have split : g.unseen (v :: seen) = (g.unseen seen).filter (fun u => decide (u ≠ v)) := by
    simp only [unseen, List.filter_filter]
    congr 1
    funext u
    simp only [List.mem_cons, not_or, Bool.decide_and]
  rw [split, List.length_filter_lt_length_iff_exists]
  exact ⟨v, List.mem_filter.mpr ⟨inside, by simpa using fresh⟩, by simp⟩

/-- Depth-first search from the vertices on the stack. `seen` holds the vertices entered so far and
`done` those that are left for good, the latest first; a vertex stays on the stack until its
successors are done. A vertex that is its own successor ends the search. -/
def explore (g : Digraph α) (seen done : List α) : List α → Except α (List α × List α)
  | [] => .ok (seen, done)
  | v :: stack =>
    if v ∈ seen then explore g seen (if v ∈ done then done else v :: done) stack
    else if v ∈ g.vertices then
      if v ∈ g.successors v then .error v
      else
        explore g (v :: seen) done
          (((g.successors v).filter (· ∉ v :: seen)).reverse ++ v :: stack)
    else explore g seen done stack
termination_by stack => ((g.unseen seen).length, stack.length)
decreasing_by
  · exact Prod.Lex.right _ (by simp)
  · exact Prod.Lex.left _ _ (unseenLess (by assumption) (by assumption))
  · exact Prod.Lex.right _ (by simp)

def finishing (g : Digraph α) : List α → List α → List α → Except α (List α)
  | _, done, [] => .ok done
  | seen, done, v :: rest =>
    match g.explore seen done [v] with
    | .error u => .error u
    | .ok (seen, done) => finishing g seen done rest

/-- Among the predecessors of the first vertex that does not follow all of its own, the last one
missing before it. -/
def stray (g : Digraph α) : List α → List α → Option α
  | _, [] => none
  | seen, v :: rest =>
    match ((g.predecessors v).filter (· ∉ v :: seen)).getLast? with
    | some u => some u
    | none => stray g (v :: seen) rest

def sort (g : Digraph α) : Except α (List α) :=
  match g.finishing [] [] g.vertices with
  | .error v => .error v
  | .ok order =>
    match g.stray [] order with
    | some v => .error v
    | none => .ok order

def reach (g : Digraph α) (next : α → List α) (seen : List α) : List α → List α
  | [] => seen
  | v :: stack =>
    if v ∈ seen then reach g next seen stack
    else if v ∈ g.vertices then reach g next (v :: seen) (next v ++ stack)
    else reach g next seen stack
termination_by stack => ((g.unseen seen).length, stack.length)
decreasing_by
  · exact Prod.Lex.right _ (by simp)
  · exact Prod.Lex.left _ _ (unseenLess (by assumption) (by assumption))
  · exact Prod.Lex.right _ (by simp)

def component (g : Digraph α) (v : α) : List α :=
  let behind := g.reach g.predecessors [] [v]
  (g.reach g.successors [] [v]).filter (· ∈ behind)

def stepBack? (g : Digraph α) (inside : List α) (v : α) : Option α :=
  let before := (g.predecessors v).filter (· ∈ inside)
  g.vertices.find? (· ∈ before)

/-- Walks back along edges from the end of `path` until a vertex comes up again, and cuts off what
lies before its first visit. Answers the vertex at which no step back was left otherwise. -/
def closeWalk (g : Digraph α) (inside path : List α) (v : α) : Except α (List α) :=
  match _found : g.stepBack? inside v with
  | none => .error v
  | some u =>
    if u ∈ path then .ok (path.drop (path.idxOf u) ++ [u])
    else closeWalk g inside (path ++ [u]) u
termination_by (g.unseen path).length
decreasing_by
  have known : u ∈ g.vertices := List.mem_of_find?_eq_some _found
  have same : g.unseen (path ++ [u]) = g.unseen (u :: path) := by
    simp [unseen, and_comm]
  rw [same]
  exact unseenLess known (by assumption)

def cycleFrom (g : Digraph α) (v : α) : Except α (List α) :=
  g.closeWalk (g.component v) [v] v

end Digraph

end Realization
