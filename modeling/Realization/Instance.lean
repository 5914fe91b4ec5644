import Realization.Contract.Basic

/-!
Managed instances: one text for each property of a contract. Properties are reached by their own
name, or by the name of the member that reads or writes them; a failing call leaves the instance as
it was.
-/
namespace Realization

inductive AccessError where
  | unknownProperty (contract property : String)
  | unknownMember (contract member : String)
  | argumentMismatch (contract member : String) (expected found : Nat)
  deriving DecidableEq, Repr

namespace AccessError

def contract : AccessError → String
  | .unknownProperty c _ | .unknownMember c _ | .argumentMismatch c _ _ _ => c

def asked : AccessError → String
  | .unknownProperty _ p => p
  | .unknownMember _ m | .argumentMismatch _ m _ _ => m

def message : AccessError → String
  | .unknownProperty c p => c ++ " has no property '" ++ p ++ "'"
  | .unknownMember c m => c ++ " has no member '" ++ m ++ "'"
  | .argumentMismatch c m expected found =>
    c ++ "." ++ m ++ " takes " ++ toString expected ++ " argument(s), got " ++ toString found

end AccessError

structure Instance where
  contract : Contract
  texts : List String
  sized : texts.length = contract.properties.length
  deriving DecidableEq, Repr

namespace Instance

def blank (c : Contract) : Instance :=
  { contract := c, texts := c.properties.map fun _ => "", sized := List.length_map _ }

def properties (i : Instance) : List (String × String) :=
  (i.contract.properties.map (·.name)).zip i.texts

def textAt (i : Instance) (index : Nat) : String := (i.texts[index]?).getD ""

def setAt (i : Instance) (index : Nat) (value : String) : Instance :=
  { i with texts := i.texts.set index value, sized := by rw [List.length_set]; exact i.sized }

def get (i : Instance) (property : String) : Except AccessError String :=
  match i.contract.propertyIndex? property with
  | some index => .ok (i.textAt index)
  | none => .error (.unknownProperty i.contract.name property)

def set (i : Instance) (property value : String) : Except AccessError Instance :=
  match i.contract.propertyIndex? property with
  | some index => .ok (i.setAt index value)
  | none => .error (.unknownProperty i.contract.name property)

def accessor (i : Instance) (member : String) : Except AccessError String :=
  match i.contract.accessorIndex? member with
  | some index => .ok (i.textAt index)
  | none => .error (.unknownMember i.contract.name member)

def mutator (i : Instance) (member value : String) : Except AccessError Instance :=
  match i.contract.mutatorIndex? member with
  | some index => .ok (i.setAt index value)
  | none => .error (.unknownMember i.contract.name member)

def invoke (i : Instance) (member : String) (args : List String) :
    Except AccessError (Option String × Instance) :=
  match i.contract.accessorIndex? member, i.contract.mutatorIndex? member with
  | some index, _ =>
    match args with
    | [] => .ok (some (i.textAt index), i)
    | _ :: _ => .error (.argumentMismatch i.contract.name member 0 args.length)
  | none, some index =>
    match args with
    | [value] => .ok (none, i.setAt index value)
    | _ => .error (.argumentMismatch i.contract.name member 1 args.length)
  | none, none => .error (.unknownMember i.contract.name member)

def display (i : Instance) : String :=
  let entry := fun (name, value) => name ++ ": Text(" ++ Text.quote value ++ ")"
  let entries := i.properties.map entry
  i.contract.name ++ " \x7b" ++
    (if entries.isEmpty then "" else " " ++ ", ".intercalate entries) ++ " \x7d"

end Instance

end Realization
