import Realization.Graph.Basic

/-!
Plans: the steps that realizing a type would take from the present state of the graph. Planning
walks the rules as realizing does but runs no body, and it leaves the nodes as they are; what it
learns about contracts is remembered.
-/
namespace Realization

inductive Step.Kind where
  | produce
  | synthesize
  | initializer
  | mutate
  deriving DecidableEq, Repr

def Step.Kind.label : Step.Kind → String
  | .produce => "produce"
  | .synthesize => "synthesize"
  | .initializer => "initialize"
  | .mutate => "mutate"

structure Step where
  kind : Step.Kind
  subject : TypeRef
  rule : Option Locator
  deriving DecidableEq, Repr

def Step.display (s : Step) : String :=
  s.kind.label ++ " " ++ s.subject.name ++
    match s.rule with
    | some rule => " (" ++ rule ++ ")"
    | none => ""

/-- A plan in the making: the steps so far, and the types that need no further steps. -/
structure Draft where
  steps : List Step := []
  done : List TypeRef := []
  verdicts : Verdicts

namespace Draft

def step (d : Draft) (kind : Step.Kind) (subject : TypeRef) (rule : Option Locator) : Draft :=
  { d with steps := d.steps ++ [⟨kind, subject, rule⟩] }

def isDone (d : Draft) (subject : TypeRef) : Bool := d.done.any (·.same subject)

def finish (d : Draft) (subject : TypeRef) : Draft := { d with done := d.done ++ [subject] }

end Draft

namespace Graph

abbrev Visiting := Option Locator → TypeRef → Draft → Except Fault Unit × Draft

def visitAll (visit : TypeRef → Draft → Except Fault Unit × Draft) :
    List TypeRef → Draft → Except Fault Unit × Draft
  | [], d => (.ok (), d)
  | t :: rest, d =>
    match visit t d with
    | (.error fault, d) => (.error fault, d)
    | (.ok (), d) => visitAll visit rest d

def planRule (visit : Visiting) (kind : Step.Kind) (subject : TypeRef) (rule : Rule) (d : Draft) :
    Except Fault Unit × Draft :=
  match visitAll (visit (some rule.locator)) rule.inputs d with
  | (.error fault, d) => (.error fault, d)
  | (.ok (), d) => (.ok (), d.step kind subject (some rule.locator))

def planSynthesis (subject : TypeRef) (d : Draft) : Except Fault Unit × Draft :=
  match contractFor subject d.verdicts with
  | (.error fault, verdicts) => (.error fault, { d with verdicts })
  | (.ok _, verdicts) => (.ok (), Draft.step { d with verdicts } .synthesize subject none)

def planCreation (g : Graph) (visit : Visiting) (stack : List TypeRef) (via : Option Locator)
    (subject : TypeRef) (d : Draft) : Except Fault Unit × Draft :=
  match g.registry.creator? subject with
  | some (_, rule) =>
    match rule.body with
    | .producer _ => planRule visit .produce subject rule d
    | .initializer _ =>
      match planSynthesis subject d with
      | (.error fault, d) => (.error fault, d)
      | (.ok (), d) => planRule visit .initializer subject rule d
    | .mutator _ => (.error (miscast rule subject), d)
  | none =>
    if subject.isManaged then planSynthesis subject d
    else (.error (.noCreator subject stack.getLast? via), d)

def planMutations (visit : Visiting) (subject : TypeRef) :
    List (RuleId × Rule) → Draft → Except Fault Unit × Draft
  | [], d => (.ok (), d)
  | (_, rule) :: rest, d =>
    match planRule visit .mutate subject rule d with
    | (.error fault, d) => (.error fault, d)
    | (.ok (), d) => planMutations visit subject rest d

def planBuild (g : Graph) (visit : Visiting) (stack : List TypeRef) (via : Option Locator)
    (subject : TypeRef) (d : Draft) : Except Fault Unit × Draft :=
  match planCreation g visit stack via subject d with
  | (.error fault, d) => (.error fault, d)
  | (.ok (), d) =>
    match planMutations visit subject (g.registry.mutators subject) d with
    | (.error fault, d) => (.error fault, d)
    | (.ok (), d) => (.ok (), d.finish subject)

def visitNode (g : Graph) : Nat → List TypeRef → Visiting
  | room, stack, via, requested, d =>
    let subject := g.resolve requested
    match g.progress? subject with
    | some (.realized _) => (.ok (), d)
    | some .failed => (.error (.previouslyFailed subject), d)
    | _ =>
      if d.isDone subject then (.ok (), d)
      else if stack.any (·.same subject) then (.error (.cyclic (chainTo stack subject) via), d)
      else
        match room with
        | 0 => (.error (.depthExceeded subject g.settings.maxDepth), d)
        | room + 1 => planBuild g (visitNode g room (stack ++ [subject])) stack via subject d

def plan (g : Graph) (t : TypeRef) : Except Fault (List Step) × Graph :=
  match g.visitNode g.settings.maxDepth [] none t { verdicts := g.registry.verdicts } with
  | (.error fault, d) => (.error fault, g.withVerdicts d.verdicts)
  | (.ok (), d) => (.ok d.steps, g.withVerdicts d.verdicts)

end Graph

end Realization
