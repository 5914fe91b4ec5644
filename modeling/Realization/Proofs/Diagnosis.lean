import Realization.Diagnostic
import Realization.Proofs.Acceptance
import Realization.Proofs.Stopping

/-!
Diagnostics say what the errors say that they are made of. The one place where a diagnostic names a type by
another error is a rejected contract, which it names by the violation; that this is the subject rests on the
memory of verdicts, which only tells what was found on a declaration with the subject's fingerprint.
-/
namespace Realization

namespace Fault

variable {f : Fault}

end Fault

namespace Graph

/- Something that the engine was asked for on this graph was answered with the fault. -/
inductive Meets (g : Graph) : Fault → Prop where
  | unlisted {rule refusal} (answer : (g.registry.register rule).1 = .error refusal) : Meets g (.refused refusal)
  | unregistered {rule refusal} (answer : (g.register rule).1 = .error refusal) : Meets g (.refused refusal)
  | unchecked {fault} (answer : g.finalize.1 = .error fault) : Meets g fault
  | unordered {fault} (answer : g.order = .error fault) : Meets g fault
  | unplanned {t fault} (answer : (g.plan t).1 = .error fault) : Meets g fault
  | unrealized {t fault} (answer : (g.realize t).1 = .error fault) : Meets g fault
  | unread {α : Type} {view : View α} {t fault} (answer : (g.realizeAs view t).1 = .error fault) : Meets g fault
  | reported {fault} (member : fault ∈ g.realizeAll.1) : Meets g fault

variable {g : Graph} {s t : TypeRef} {v : Verdicts} {fault : Fault} {rule : Rule} {refusal : Refusal}

end Graph

end Realization
