import Realization.Graph.Fault
import Realization.Registry.Basic
import Realization.Settings.Basic

/-!
Graphs: a registry of rules and a node for every type that the rules or a request have named. The
journal tells which bodies were started and what they noted, in order. This module holds the parts
that realizing, planning and checking share; none of them starts a body.
-/
namespace Realization

inductive Progress where
  | unrealized
  | realizing
  | realized (element : Element)
  | failed
  deriving DecidableEq, Repr

namespace Progress

def label : Progress → String
  | .unrealized => "unrealized"
  | .realizing => "realizing"
  | .realized _ => "realized"
  | .failed => "failed"

def isStarted (p : Progress) : Bool := decide (p ≠ .unrealized)

def element? : Progress → Option Element
  | .realized e => some e
  | _ => none

end Progress

structure Node where
  subject : TypeRef
  progress : Progress := .unrealized
  deriving DecidableEq, Repr

inductive Event where
  | started (rule : RuleId) (locator : Locator)
  | noted (text : String)
  deriving DecidableEq, Repr

def Event.text : Event → String
  | .started _ locator => locator
  | .noted text => text

structure Graph where
  registry : Registry
  settings : Settings
  nodes : List Node := []
  isStarted : Bool := false
  isFinalized : Bool := false
  journal : List Event := []

namespace Node

def mention (n : Node) (t : TypeRef) : Node :=
  if t.isManaged && !n.subject.isManaged then { n with subject := t } else n

def track (t : TypeRef) : List Node → List Node
  | [] => [{ subject := t }]
  | n :: rest => if n.subject.same t then n.mention t :: rest else n :: track t rest

def mark (t : TypeRef) (progress : Progress) (nodes : List Node) : List Node :=
  nodes.map fun n => if n.subject.same t then { n with progress } else n

end Node

namespace Graph

def node? (g : Graph) (t : TypeRef) : Option Node := g.nodes.find? (·.subject.same t)

def progress? (g : Graph) (t : TypeRef) : Option Progress := (g.node? t).map (·.progress)

def subjects (g : Graph) : List TypeRef := g.nodes.map (·.subject)

def track (g : Graph) (t : TypeRef) : Graph := { g with nodes := Node.track t g.nodes }

def mark (g : Graph) (t : TypeRef) (progress : Progress) : Graph :=
  { g with nodes := Node.mark t progress g.nodes }

def record (g : Graph) (events : List Event) : Graph := { g with journal := g.journal ++ events }

def withVerdicts (g : Graph) (verdicts : Verdicts) : Graph :=
  { g with registry := { g.registry with verdicts } }

def ofRegistry (registry : Registry) (settings : Settings) : Graph :=
  (registry.entries.map fun e => e.managed.getD e.type).foldl track
    { registry, settings := settings.withMaxDepth settings.maxDepth }

/-- The form of a type in which it is realized: managed if the graph or a rule knows it so. -/
def resolve (g : Graph) (t : TypeRef) : TypeRef :=
  match (g.node? t).filter (·.subject.isManaged) with
  | some n => n.subject
  | none => ((g.registry.resolve? t).filter (·.isManaged)).getD t

def hasStarted (g : Graph) (t : TypeRef) : Bool :=
  match g.progress? t with
  | some p => p.isStarted
  | none => false

def register (g : Graph) (rule : Rule) : Except Refusal RuleId × Graph :=
  if g.hasStarted rule.subject then (.error (.alreadyRealized rule.subject rule.locator), g)
  else
    match g.registry.register rule with
    | (.error refusal, registry) => (.error refusal, { g with registry })
    | (.ok id, registry) =>
      (.ok id, { rule.mentions.foldl track { g with registry } with isFinalized := false })

def contractFor (subject : TypeRef) (verdicts : Verdicts) : Except Fault Contract × Verdicts :=
  match subject.declaration? with
  | none => (.error (.internal (subject.name ++ " has no contract to synthesize")), verdicts)
  | some d =>
    match verdicts.validate d with
    | (.ok contract, verdicts) => (.ok contract, verdicts)
    | (.error violation, verdicts) => (.error (.invalidContract subject violation), verdicts)

def chainTo (stack : List TypeRef) (subject : TypeRef) : List TypeRef :=
  stack.drop ((stack.findIdx? (·.same subject)).getD 0) ++ [subject]

def miscast (rule : Rule) (subject : TypeRef) : Fault :=
  .internal ("rule at " ++ rule.locator ++ " is registered as the creator of " ++ subject.name)

def mislisted (rule : Rule) (subject : TypeRef) : Fault :=
  .internal ("rule at " ++ rule.locator ++ " is listed as a mutator of " ++ subject.name)

end Graph

end Realization
