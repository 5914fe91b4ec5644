import Realization.Digraph
import Realization.Graph.Basic

/-!
The rules checked as a whole, before any of them runs: every known type needs a source, a creation
rule or a contract to synthesize, and no type may depend on itself through declared inputs.
-/
namespace Realization.Graph

def dependencies (g : Graph) : Digraph String :=
  (g.registry.rules.flatMap fun rule => rule.inputs.map fun i => (i.name, rule.subject.name)).foldl
    Digraph.addEdge { vertices := g.subjects.map (·.name), edges := [] }

def typeNamed (g : Graph) (name : String) : TypeRef :=
  (g.subjects.find? (·.name == name)).getD (.plain name)

def firstDependent? (g : Graph) (input : TypeRef) : Option (TypeRef × Locator) :=
  (g.registry.rules.find? (·.declares input)).map fun rule =>
    (g.resolve rule.subject, rule.locator)

def closingRule? (g : Graph) (chain : List TypeRef) : Option Locator :=
  match chain.reverse with
  | input :: subject :: _ =>
    (g.registry.rules.find? fun rule => rule.subject.same subject && rule.declares input).map
      (·.locator)
  | _ => none

def cycleFault (g : Graph) (name : String) : Fault :=
  match g.dependencies.cycleFrom name with
  | .ok names =>
    let chain := names.map g.typeNamed
    .cyclic chain (g.closingRule? chain)
  | .error lost => .internal ((g.typeNamed lost).name ++ " reported on a cycle")

def order (g : Graph) : Except Fault (List TypeRef) :=
  match g.dependencies.sort with
  | .ok names => .ok (names.map g.typeNamed)
  | .error name => .error (g.cycleFault name)

def checkSources (g : Graph) : List TypeRef → Verdicts → Except Fault Unit × Verdicts
  | [], verdicts => (.ok (), verdicts)
  | t :: rest, verdicts =>
    if (g.registry.creator? t).isSome then checkSources g rest verdicts
    else if t.isManaged then
      match contractFor t verdicts with
      | (.error fault, verdicts) => (.error fault, verdicts)
      | (.ok _, verdicts) => checkSources g rest verdicts
    else
      let dependent := g.firstDependent? t
      (.error (.noCreator t (dependent.map (·.1)) (dependent.map (·.2))), verdicts)

def finalize (g : Graph) : Except Fault Unit × Graph :=
  match g.checkSources g.subjects g.registry.verdicts with
  | (.error fault, verdicts) => (.error fault, g.withVerdicts verdicts)
  | (.ok (), verdicts) =>
    let g := g.withVerdicts verdicts
    match g.order with
    | .error fault => (.error fault, g)
    | .ok _ => (.ok (), { g with isFinalized := true })

end Realization.Graph
