import Realization.Graph.Plan
import Realization.Graph.Realize

/-!
Sessions with a graph: the operations on it, and the graph that a list of them leads to. A graph
starts over a registry that itself came from registrations, and a registry over a memory of verdicts
that others may have filled before; whatever an operation answers, the session goes on with the
graph it leaves.
-/
namespace Realization

def Verdicts.after (declarations : List Declaration) : Verdicts :=
  declarations.foldl (fun verdicts d => (verdicts.validate d).2) {}

inductive Registry.Operation where
  | register (rule : Rule)
  | freeze

namespace Registry

def perform (r : Registry) : Operation → Registry
  | .register rule => (r.register rule).2
  | .freeze => r.freeze

def run (r : Registry) (operations : List Operation) : Registry := operations.foldl perform r

/-- The registries that registrations lead to, over any memory of verdicts. -/
def Reachable (r : Registry) : Prop :=
  ∃ declarations operations, r = run { verdicts := Verdicts.after declarations } operations

end Registry

inductive Graph.Operation where
  | register (rule : Rule)
  | finalize
  | plan (type : TypeRef)
  | realize (type : TypeRef)
  | realizeAll

namespace Graph

def perform (g : Graph) : Operation → Graph
  | .register rule => (g.register rule).2
  | .finalize => g.finalize.2
  | .plan t => (g.plan t).2
  | .realize t => (g.realize t).2
  | .realizeAll => g.realizeAll.2

def run (g : Graph) (operations : List Operation) : Graph := operations.foldl perform g

def Reachable (g : Graph) : Prop :=
  ∃ (registry : Registry) (settings : Settings) (operations : List Operation),
    registry.Reachable ∧ g = (ofRegistry registry settings).run operations

theorem Reachable.perform {g : Graph} (reachable : g.Reachable) (operation : Operation) :
    (g.perform operation).Reachable := by
  obtain ⟨registry, settings, operations, start, rfl⟩ := reachable
  exact ⟨registry, settings, operations ++ [operation], start, by simp [run]⟩

end Graph

end Realization
