import Realization.Element
import Realization.TypeRef

/-!
Rules. A rule tells how its subject comes to its element or how that element is changed, given the
elements of the types it declares as inputs. A body answers with an outcome: what it noted while it
ran, and its result or the failure that stopped it.
-/
namespace Realization

/-- Where a rule was declared, in the words of whoever declared it. -/
abbrev Locator := String

structure Inputs where
  entries : List (TypeRef × Element)

inductive InputError where
  | undeclared (index declared : Nat)
  | mismatch (index : Nat) (type : String) (found wanted : Tag)
  deriving DecidableEq, Repr

def InputError.message : InputError → String
  | .undeclared index declared =>
    "input #" ++ toString index ++ " requested but only " ++ toString declared ++ " declared"
  | .mismatch index type found wanted =>
    "input #" ++ toString index ++ " (" ++ type ++ ") holds " ++ found.label ++ ", not " ++
      wanted.label

namespace Inputs

def size (inputs : Inputs) : Nat := inputs.entries.length

def element? (inputs : Inputs) (index : Nat) : Option Element :=
  (inputs.entries[index]?).map (·.2)

def get {α : Type} (inputs : Inputs) (view : View α) (index : Nat) : Except InputError α :=
  match inputs.entries[index]? with
  | none => .error (.undeclared index inputs.size)
  | some (type, e) =>
    match view.read? e with
    | some a => .ok a
    | none => .error (.mismatch index type.name e.tag view.tag)

def listing (inputs : Inputs) : String :=
  "\x7b" ++ ", ".intercalate (inputs.entries.map fun (type, e) =>
    Text.quote type.name ++ ": " ++ e.listing) ++ "\x7d"

end Inputs

structure Failure where
  message : String
  causes : List String := []
  deriving DecidableEq, Repr

structure Outcome (α : Type) where
  notes : List String
  result : Except Failure α

inductive Body where
  | producer (run : Inputs → Outcome Element)
  | initializer (run : Element → Inputs → Outcome Element)
  | mutator (run : Element → Inputs → Outcome Element)

namespace Body

def creates : Body → Bool
  | .producer _ | .initializer _ => true
  | .mutator _ => false

def label : Body → String
  | .producer _ => "produce"
  | .initializer _ => "initialize"
  | .mutator _ => "mutate"

end Body

structure Rule where
  locator : Locator
  subject : TypeRef
  inputs : List TypeRef
  body : Body

namespace Rule

def creates (r : Rule) : Bool := r.body.creates

def isInitializer (r : Rule) : Bool :=
  match r.body with
  | .initializer _ => true
  | _ => false

def mentions (r : Rule) : List TypeRef := r.subject :: r.inputs

def declares (r : Rule) (input : TypeRef) : Bool := r.inputs.any (·.same input)

def listing (r : Rule) : String :=
  "Rule \x7b locator: RuleLocator(" ++ Text.quote r.locator ++ "), subject: " ++
    r.subject.listing ++ ", inputs: [" ++ ", ".intercalate (r.inputs.map (·.listing)) ++
    "], body: " ++ Text.quote r.body.label ++ " \x7d"

end Rule

end Realization
