import Realization.Declaration.Basic

/-!
References to types. A plain reference gives a name only; a managed one carries the declaration of
the type, under whose name it goes. Two references are to the same type when their names agree,
whatever they carry.
-/
namespace Realization

inductive TypeRef where
  | plain (name : String)
  | managed (declaration : Declaration)
  deriving DecidableEq, Repr

namespace TypeRef

def name : TypeRef → String
  | .plain name => name
  | .managed d => d.name

def declaration? : TypeRef → Option Declaration
  | .plain _ => none
  | .managed d => some d

def isManaged (t : TypeRef) : Bool := t.declaration?.isSome

def same (a b : TypeRef) : Bool := a.name == b.name

def sorted (ts : List TypeRef) : List TypeRef := ts.mergeSort fun a b => decide (a.name ≤ b.name)

def listing : TypeRef → String
  | .plain name => "ModelType::opaque(" ++ name ++ ")"
  | .managed d => "ModelType::managed(" ++ d.name ++ ")"

end TypeRef

end Realization
