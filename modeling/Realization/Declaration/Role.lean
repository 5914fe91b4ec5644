import Realization.Declaration.Basic

/-!
The role of a member: an accessor or a mutator of a property, or the reason why it is neither. The
name decides which of the two a member tries to be, and the signature is judged only then.
-/
namespace Realization

inductive Role where
  | accessor (property : String) (kind : Kind)
  | mutator (property : String) (kind : Kind)
  deriving DecidableEq, Repr

inductive Misfit where
  | unrecognizedName
  | accessorTakesArguments
  | accessorReturnsVoid
  | mutatorArity
  | mutatorReturnsValue
  deriving DecidableEq, Repr

def Misfit.describe : Misfit → String
  | .unrecognizedName => "not an accessor (getX) or mutator (setX)"
  | .accessorTakesArguments => "accessor must not take parameters"
  | .accessorReturnsVoid => "accessor must return a value"
  | .mutatorArity => "mutator must take exactly one parameter"
  | .mutatorReturnsValue => "mutator must not return a value"

def accessorRole (m : Member) (property : String) : Except Misfit Role :=
  match m.params, m.returns with
  | _ :: _, _ => .error .accessorTakesArguments
  | [], none => .error .accessorReturnsVoid
  | [], some kind => .ok (.accessor property kind)

def mutatorRole (m : Member) (property : String) : Except Misfit Role :=
  match m.returns, m.params with
  | some _, _ => .error .mutatorReturnsValue
  | none, [kind] => .ok (.mutator property kind)
  | none, _ => .error .mutatorArity

def Member.role (m : Member) : Except Misfit Role :=
  match propertyName? accessorLead m.name, propertyName? mutatorLead m.name with
  | some property, _ => accessorRole m property
  | none, some property => mutatorRole m property
  | none, none => .error .unrecognizedName

end Realization
