import Realization.Registry.Refusal

/-!
What can go wrong when a graph is checked, planned or realized. `chain` lists types from the
requesting one to the requested one.
-/
namespace Realization

inductive Fault where
  | refused (refusal : Refusal)
  | invalidContract (subject : TypeRef) (violation : Violation)
  | noCreator (subject : TypeRef) (requiredBy : Option TypeRef) (rule : Option Locator)
  | cyclic (chain : List TypeRef) (rule : Option Locator)
  | ruleFailed (subject : TypeRef) (rule : Locator) (failure : Failure)
  | previouslyFailed (subject : TypeRef)
  | typeMismatch (subject : TypeRef) (wanted found : Tag)
  | depthExceeded (subject : TypeRef) (limit : Nat)
  | internal (reason : String)
  deriving DecidableEq, Repr

namespace Fault

def subject? : Fault → Option TypeRef
  | .refused refusal => refusal.subject?
  | .invalidContract subject _ | .noCreator subject _ _ | .ruleFailed subject _ _
  | .previouslyFailed subject | .typeMismatch subject _ _ | .depthExceeded subject _ => some subject
  | .cyclic chain _ => chain.head?
  | .internal _ => none

def rule? : Fault → Option Locator
  | .refused refusal => some refusal.rule
  | .ruleFailed _ rule _ => some rule
  | .noCreator _ _ rule | .cyclic _ rule => rule
  | .invalidContract _ _ | .previouslyFailed _ | .typeMismatch _ _ _ | .depthExceeded _ _
  | .internal _ => none

def message : Fault → String
  | .refused refusal => refusal.message
  | .invalidContract subject _ => subject.name ++ " is not a valid managed type"
  | .noCreator subject none _ => "no creation rule for " ++ subject.name
  | .noCreator subject (some t) _ =>
    "no creation rule for " ++ subject.name ++ " (required by " ++ t.name ++ ")"
  | .cyclic chain _ => "cyclic dependency: " ++ " -> ".intercalate (chain.map (·.name))
  | .ruleFailed subject rule _ =>
    "rule at " ++ rule ++ " failed while realizing " ++ subject.name
  | .previouslyFailed subject => subject.name ++ " failed to realize earlier"
  | .typeMismatch subject wanted found =>
    subject.name ++ " holds " ++ found.label ++ ", not " ++ wanted.label
  | .depthExceeded subject limit =>
    "realizing " ++ subject.name ++ " exceeds the maximum depth of " ++ toString limit
  | .internal reason => "internal error: " ++ reason

def causes : Fault → List String
  | .refused refusal => refusal.causes
  | .invalidContract _ violation => [violation.message]
  | .ruleFailed _ _ failure => failure.message :: failure.causes
  | _ => []

end Fault

end Realization
