/-!
Regular runs of code points, the rows of the character tables: a run is an arithmetic
progression, and a shift moves every code point of a run by the same distance.
-/
namespace Realization.Text

structure Run where
  first : Nat
  last : Nat
  stride : Nat
  deriving DecidableEq, Repr

def Run.holds (r : Run) (n : Nat) : Bool :=
  r.first ≤ n && n ≤ r.last && (n - r.first) % r.stride == 0

structure Shift where
  run : Run
  distance : Int
  deriving DecidableEq, Repr

def Shift.apply (s : Shift) (n : Nat) : Nat := (Int.ofNat n + s.distance).toNat

def inIntervals (intervals : List (Nat × Nat)) (n : Nat) : Bool :=
  intervals.any fun (first, last) => first ≤ n && n ≤ last

end Realization.Text
