import Realization.Declaration.Naming

/-!
Declarations of types: the kinds of values, the members of a type, and a type with its shape, the
types it extends, its fields and its members. A declaration is data as written; whether it can
serve as a contract is another question.
-/
namespace Realization

inductive Kind where
  | text
  | integer
  | boolean
  | float
  | model (name : String)
  deriving DecidableEq, Repr

def Kind.label : Kind → String
  | .text => "text"
  | .integer => "integer"
  | .boolean => "boolean"
  | .float => "float"
  | .model name => name

def Kind.supported (k : Kind) : Bool := decide (k = .text)

structure Member where
  name : String
  params : List Kind := []
  returns : Option Kind := none
  hasBody : Bool := false
  deriving DecidableEq, Repr

def Member.withBody (m : Member) : Member := { m with hasBody := true }

inductive Shape where
  | interface
  | concrete
  deriving DecidableEq, Repr

structure Declaration where
  name : String
  shape : Shape
  parents : List String := []
  fields : List String := []
  members : List Member := []
  deriving DecidableEq, Repr

namespace Declaration

def interface (name : String) : Declaration := { name, shape := .interface }

def concrete (name : String) : Declaration := { name, shape := .concrete }

def member (d : Declaration) (m : Member) : Declaration := { d with members := d.members ++ [m] }

def accessor (d : Declaration) (name : String) (kind : Kind) : Declaration :=
  d.member { name, returns := some kind }

def mutator (d : Declaration) (name : String) (kind : Kind) : Declaration :=
  d.member { name, params := [kind] }

def property (d : Declaration) (name : String) (kind : Kind) : Declaration :=
  (d.accessor (accessorName name) kind).mutator (mutatorName name) kind

def parent (d : Declaration) (name : String) : Declaration :=
  { d with parents := d.parents ++ [name] }

def field (d : Declaration) (name : String) : Declaration := { d with fields := d.fields ++ [name] }

end Declaration

end Realization
