import Realization.Contract.Violation
import Realization.Declaration.Encoding
import Realization.Rule

/-!
The reasons for which a rule is refused. Every refusal names the rule that was refused.
-/
namespace Realization

inductive Refusal where
  | duplicateCreator (subject : TypeRef) (existing rejected : Locator)
  | invalidContract (rule : Locator) (subject : TypeRef) (violation : Violation)
  | conflictingContract (subject : TypeRef) (rule : Locator) (registered declared : Fingerprint)
  | noCreator (subject : TypeRef) (rule : Locator)
  | alreadyRealized (subject : TypeRef) (rule : Locator)
  | frozen (rule : Locator)
  deriving DecidableEq, Repr

namespace Refusal

def rule : Refusal → Locator
  | .duplicateCreator _ _ rejected => rejected
  | .invalidContract rule _ _ | .conflictingContract _ rule _ _ | .noCreator _ rule
  | .alreadyRealized _ rule | .frozen rule => rule

def subject? : Refusal → Option TypeRef
  | .duplicateCreator subject _ _ | .invalidContract _ subject _
  | .conflictingContract subject _ _ _ | .noCreator subject _ | .alreadyRealized subject _ =>
    some subject
  | .frozen _ => none

def message : Refusal → String
  | .duplicateCreator subject existing rejected =>
    subject.name ++ " already has a creation rule at " ++ existing ++ "; rejected the one at " ++
      rejected
  | .invalidContract rule subject _ =>
    "rule at " ++ rule ++ " refers to " ++ subject.name ++ ", which is not a valid contract"
  | .conflictingContract subject rule registered declared =>
    "rule at " ++ rule ++ " declares " ++ subject.name ++ " as contract " ++ declared.short ++
      ", but " ++ subject.name ++ " is already registered as contract " ++ registered.short
  | .noCreator subject rule =>
    "rule at " ++ rule ++ " initializes " ++ subject.name ++ ", but " ++ subject.name ++
      " is not a managed type"
  | .alreadyRealized subject rule =>
    subject.name ++ " has already been realized; rule at " ++ rule ++ " arrives too late"
  | .frozen rule => "registry is frozen; rule at " ++ rule ++ " rejected"

def causes : Refusal → List String
  | .invalidContract _ _ violation => [violation.message]
  | _ => []

end Refusal

end Realization
