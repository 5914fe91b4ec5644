import Realization.Contract.Validation
import Realization.Rule

/-!
Rule bodies written as scripts: a list of actions on the element of the subject, run in order up to
the first failure, and for a creation rule the value that it produces. Expressions read the inputs
by position and answer text.
-/
namespace Realization

inductive TextExpr where
  | literal (value : String)
  | text (input : Nat)
  | int (input : Nat)
  | list (input : Nat)
  | tasks (input : Nat)
  | property (input : Nat) (name : String)
  | count
  | inputs
  | own (property : String)
  | concat (parts : List TextExpr)

inductive ValueExpr where
  | unit
  | text (value : TextExpr)
  | int (value : Int64)
  | sum (inputs : List Nat)
  | list (values : List TextExpr)
  | tasks (values : List (TextExpr × TextExpr))
  | managed (declaration : Declaration)

inductive Action where
  | note (text : TextExpr)
  | fail (failure : Failure)
  | set (property : String) (value : TextExpr)
  | invoke (member : String) (args : List TextExpr)
  | append (text : TextExpr)
  | add (amount : Int64)
  | task (name description : TextExpr)
  | replace (value : ValueExpr)

namespace Script

def failing {α : Type} (message : String) : Except Failure α := .error { message }

def passOn {ε α : Type} (message : ε → String) (result : Except ε α) : Except Failure α :=
  result.mapError fun e => { message := message e }

def input {α : Type} (inputs : Inputs) (view : View α) (index : Nat) : Except Failure α :=
  passOn InputError.message (inputs.get view index)

def managed : Option Element → Except Failure Instance
  | some (.managed i) => .ok i
  | _ => failing "not managed"

mutual

def text (inputs : Inputs) (own : Option Element) : TextExpr → Except Failure String
  | .literal value => .ok value
  | .text i => input inputs .text i
  | .int i => (input inputs .int i).map fun n => toString n.toInt
  | .list i => (input inputs .list i).map fun xs => ",".intercalate xs
  | .tasks i => (input inputs .tasks i).map fun l => ",".intercalate l.names
  | .property i name => do
    let object ← input inputs .managed i
    passOn AccessError.message (object.get name)
  | .count => .ok (toString inputs.size)
  | .inputs => .ok inputs.listing
  | .own property => do
    let object ← managed own
    passOn AccessError.message (object.get property)
  | .concat parts => (texts inputs own parts).map String.join

def texts (inputs : Inputs) (own : Option Element) : List TextExpr → Except Failure (List String)
  | [] => .ok []
  | e :: rest => do
    let value ← text inputs own e
    let values ← texts inputs own rest
    .ok (value :: values)

end

def value (inputs : Inputs) : ValueExpr → Except Failure Element
  | .unit => .ok .unit
  | .text e => (text inputs none e).map .text
  | .int n => .ok (.int n)
  | .sum indices => do
    let numbers ← indices.mapM (input inputs .int)
    .ok (.int (numbers.foldl (· + ·) 0))
  | .list es => (texts inputs none es).map .list
  | .tasks rows => do
    let tasks ← rows.mapM fun (name, description) => do
      .ok (Task.mk (← text inputs none name) (← text inputs none description))
    .ok (.tasks ⟨tasks⟩)
  | .managed d =>
    (passOn Violation.message (Contract.ofDeclaration d)).map fun c => .managed (Instance.blank c)

def append (added : String) : Element → Except Failure Element
  | .text s => .ok (.text (s ++ added))
  | .list xs => .ok (.list (xs ++ [added]))
  | .tasks l => .ok (.tasks (l.create added ""))
  | e => failing ("cannot append to " ++ e.tag.label)

def change (inputs : Inputs) (e : Element) : Action → Except Failure (Element × List String)
  | .set property expr => do
    let value ← text inputs (some e) expr
    let object ← managed (some e)
    let changed ← passOn AccessError.message (object.set property value)
    .ok (.managed changed, [])
  | .invoke member args => do
    let args ← texts inputs (some e) args
    let object ← managed (some e)
    let (answer, changed) ← passOn AccessError.message (object.invoke member args)
    .ok (.managed changed, answer.toList)
  | .append expr => do
    let added ← text inputs (some e) expr
    let grown ← append added e
    .ok (grown, [])
  | .add amount =>
    match e with
    | .int n => .ok (.int (n + amount), [])
    | _ => failing "not a number"
  | .task name description => do
    let name ← text inputs (some e) name
    let description ← text inputs (some e) description
    match e with
    | .tasks l => .ok (.tasks (l.create name description), [])
    | _ => failing "not a task collection"
  | .replace expr => (value inputs expr).map (·, [])
  | .note expr => (text inputs (some e) expr).map (e, [·])
  | .fail failure => .error failure

def act (inputs : Inputs) (own : Option Element) (action : Action) :
    Except Failure (Option Element × List String) :=
  match own, action with
  | _, .note expr => (text inputs own expr).map (own, [·])
  | _, .fail failure => .error failure
  | some e, action => (change inputs e action).map fun (e, notes) => (some e, notes)
  | none, _ => failing "no element"

/-- Runs actions in order up to the first failure; what was noted before it stays noted. -/
def run (inputs : Inputs) (own : Option Element) : List Action → Outcome (Option Element)
  | [] => ⟨[], .ok own⟩
  | action :: rest =>
    match act inputs own action with
    | .error failure => ⟨[], .error failure⟩
    | .ok (own, notes) =>
      let later := run inputs own rest
      ⟨notes ++ later.notes, later.result⟩

def applying (actions : List Action) (e : Element) (inputs : Inputs) : Outcome Element :=
  let outcome := run inputs (some e) actions
  ⟨outcome.notes, outcome.result.map fun own => own.getD e⟩

def producing (actions : List Action) (result : ValueExpr) (inputs : Inputs) : Outcome Element :=
  let outcome := run inputs none actions
  ⟨outcome.notes, outcome.result.bind fun _ => value inputs result⟩

end Script

end Realization
