import Realization.Contract.Validation

/-!
The verdicts on the declarations validated so far, good and bad, remembered by fingerprint. A
declaration is examined once; after that its verdict is read from memory.
-/
namespace Realization

abbrev Verdict := Except Violation Contract

structure Verdicts where
  known : List (Fingerprint × Verdict) := []

namespace Verdicts

def find? (v : Verdicts) (f : Fingerprint) : Option Verdict :=
  (v.known.find? (·.1 == f)).map (·.2)

def has (v : Verdicts) (d : Declaration) : Bool := (v.find? d.fingerprint).isSome

def size (v : Verdicts) : Nat := v.known.length

def validate (v : Verdicts) (d : Declaration) : Verdict × Verdicts :=
  match v.find? d.fingerprint with
  | some verdict => (verdict, v)
  | none =>
    let verdict := Contract.ofDeclaration d
    (verdict, ⟨v.known ++ [(d.fingerprint, verdict)]⟩)

end Verdicts

end Realization
