import Realization.Graph.Order

/-!
Realization on demand. To realize a type is to realize the inputs of its creation rule, run that
rule, and then for each of its mutation rules realize the inputs and run it. A type is realized
once; a failure stays with every type on the way to it. The stack holds the types being realized,
outermost first, and `room` is how many more may join them.
-/
namespace Realization.Graph

abbrev Entering := Option Locator → TypeRef → Graph → Except Fault Unit × Graph

def element (g : Graph) (t : TypeRef) : Except Fault Element :=
  match g.progress? t with
  | some (.realized e) => .ok e
  | _ =>
    let index := g.nodes.findIdx (·.subject.same t)
    .error (.internal ("node #" ++ toString index ++ " is not realized"))

def enterAll (enter : TypeRef → Graph → Except Fault Unit × Graph) :
    List TypeRef → Graph → Except Fault Unit × Graph
  | [], g => (.ok (), g)
  | t :: rest, g =>
    match enter t g with
    | (.error fault, g) => (.error fault, g)
    | (.ok (), g) => enterAll enter rest g

def inputsFor (g : Graph) (types : List TypeRef) : Except Fault Inputs :=
  (types.mapM fun t => (g.element t).map (t, ·)).map Inputs.mk

def runBody (subject : TypeRef) (id : RuleId) (rule : Rule) (outcome : Outcome Element)
    (g : Graph) : Except Fault Element × Graph :=
  (match outcome.result with
    | .ok e => .ok e
    | .error failure => .error (.ruleFailed subject rule.locator failure),
    g.record (.started id rule.locator :: outcome.notes.map .noted))

def applyRule (enter : Entering) (subject : TypeRef) (id : RuleId) (rule : Rule)
    (run : Inputs → Outcome Element) (g : Graph) : Except Fault Element × Graph :=
  match enterAll (enter (some rule.locator)) rule.inputs g with
  | (.error fault, g) => (.error fault, g)
  | (.ok (), g) =>
    match g.inputsFor rule.inputs with
    | .error fault => (.error fault, g)
    | .ok inputs => runBody subject id rule (run inputs) g

def synthesize (subject : TypeRef) (g : Graph) : Except Fault Element × Graph :=
  match contractFor subject g.registry.verdicts with
  | (.error fault, verdicts) => (.error fault, g.withVerdicts verdicts)
  | (.ok contract, verdicts) => (.ok (.managed (Instance.blank contract)), g.withVerdicts verdicts)

def create (enter : Entering) (stack : List TypeRef) (via : Option Locator) (subject : TypeRef)
    (g : Graph) : Except Fault Element × Graph :=
  match g.registry.creator? subject with
  | some (id, rule) =>
    match rule.body with
    | .producer run => applyRule enter subject id rule run g
    | .initializer run =>
      match synthesize subject g with
      | (.error fault, g) => (.error fault, g)
      | (.ok e, g) => applyRule enter subject id rule (run e) g
    | .mutator _ => (.error (miscast rule subject), g)
  | none =>
    if subject.isManaged then synthesize subject g
    else (.error (.noCreator subject stack.getLast? via), g)

def mutate (enter : Entering) (subject : TypeRef) :
    List (RuleId × Rule) → Element → Graph → Except Fault Element × Graph
  | [], e, g => (.ok e, g)
  | (id, rule) :: rest, e, g =>
    match rule.body with
    | .mutator run =>
      match applyRule enter subject id rule (run e) g with
      | (.error fault, g) => (.error fault, g)
      | (.ok e, g) => mutate enter subject rest e g
    | _ => (.error (mislisted rule subject), g)

def build (enter : Entering) (stack : List TypeRef) (via : Option Locator) (subject : TypeRef)
    (g : Graph) : Except Fault Element × Graph :=
  match create enter stack via subject g with
  | (.error fault, g) => (.error fault, g)
  | (.ok e, g) => mutate enter subject (g.registry.mutators subject) e g

def settle (subject : TypeRef) : Except Fault Element × Graph → Except Fault Unit × Graph
  | (.ok e, g) => (.ok (), g.mark subject (.realized e))
  | (.error fault, g) => (.error fault, g.mark subject .failed)

def realizeNode : Nat → List TypeRef → Entering
  | room, stack, via, requested, g =>
    let subject := g.resolve requested
    let g := g.track subject
    match g.progress? subject with
    | some (.realized _) => (.ok (), g)
    | some .failed => (.error (.previouslyFailed subject), g)
    | some .realizing => (.error (.cyclic (chainTo stack subject) via), g)
    | _ =>
      match room with
      | 0 => (.error (.depthExceeded subject g.settings.maxDepth), g)
      | room + 1 =>
        settle subject
          (build (realizeNode room (stack ++ [subject])) stack via subject
            (g.mark subject .realizing))

/-- What precedes every realization: the first one may close the registry, and the rules may have
to be checked. -/
def start (g : Graph) : Except Fault Unit × Graph :=
  let g :=
    if g.isStarted then g
    else if g.settings.freezeOnFirstRealize then
      { g with isStarted := true, registry := g.registry.freeze }
    else { g with isStarted := true }
  if g.settings.finalizeBeforeRealize && !g.isFinalized then g.finalize else (.ok (), g)

def realize (g : Graph) (t : TypeRef) : Except Fault Element × Graph :=
  match g.start with
  | (.error fault, g) => (.error fault, g)
  | (.ok (), g) =>
    match realizeNode g.settings.maxDepth [] none t g with
    | (.error fault, g) => (.error fault, g)
    | (.ok (), g) => (g.element t, g)

def realizeAs {α : Type} (g : Graph) (view : View α) (t : TypeRef) : Except Fault α × Graph :=
  match g.realize t with
  | (.error fault, g) => (.error fault, g)
  | (.ok e, g) =>
    match view.read? e with
    | some a => (.ok a, g)
    | none => (.error (.typeMismatch t view.tag e.tag), g)

/-- The faults of realizing each type in turn; that a type failed earlier is no news. -/
def realizeEach : List TypeRef → Graph → List Fault × Graph
  | [], g => ([], g)
  | t :: rest, g =>
    match g.realize t with
    | (.ok _, g) => realizeEach rest g
    | (.error (.previouslyFailed _), g) => realizeEach rest g
    | (.error fault, g) =>
      let (faults, g) := realizeEach rest g
      (fault :: faults, g)

def realizeAll (g : Graph) : List Fault × Graph := realizeEach g.subjects g

end Realization.Graph
