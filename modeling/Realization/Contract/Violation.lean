import Realization.Declaration.Basic

/-!
The ways in which a declaration fails to be a contract. Every violation names the declared type.
-/
namespace Realization

inductive Violation where
  | notAnInterface (type reason : String)
  | extendsOther (type parent : String)
  | invalidMember (type member reason : String)
  | unpairedProperty (type property member : String)
  | unsupportedProperty (type property : String) (accessor mutator : Kind)
  deriving DecidableEq, Repr

namespace Violation

def type : Violation → String
  | .notAnInterface t _ | .extendsOther t _ | .invalidMember t _ _ | .unpairedProperty t _ _
  | .unsupportedProperty t _ _ _ => t

def member? : Violation → Option String
  | .invalidMember _ m _ | .unpairedProperty _ _ m => some m
  | _ => none

def property? : Violation → Option String
  | .unpairedProperty _ p _ | .unsupportedProperty _ p _ _ => some p
  | _ => none

def message : Violation → String
  | .notAnInterface t reason => "managed type " ++ t ++ " must be an interface: " ++ reason
  | .extendsOther t parent =>
    "managed type " ++ t ++ " must not extend other types (extends " ++ parent ++ ")"
  | .invalidMember t m reason => "invalid member " ++ t ++ "." ++ m ++ ": " ++ reason
  | .unpairedProperty t p m =>
    "property '" ++ p ++ "' of " ++ t ++ " is not read/write: " ++ m ++ " has no counterpart"
  | .unsupportedProperty t p a m =>
    "property '" ++ p ++ "' of " ++ t ++ " has unsupported type (accessor: " ++ a.label ++
      ", mutator: " ++ m.label ++ "); only text properties are supported"

end Violation

end Realization
