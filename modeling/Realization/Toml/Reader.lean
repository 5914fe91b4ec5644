/-!
Readers: functions that read something off the front of a list of characters. The combinators here
are those of the settings grammar; `many` goes on for as long as its reader consumes something.
-/
namespace Realization.Toml

abbrev Reader (α : Type) := StateT (List Char) Option α

namespace Reader

def peek : Reader (Option Char) := fun s => some (s.head?, s)

def satisfying (p : Char → Bool) : Reader Char := fun s =>
  match s with
  | c :: rest => if p c then some (c, rest) else none
  | [] => none

def char (c : Char) : Reader Unit := fun s =>
  match s with
  | d :: rest => if d = c then some ((), rest) else none
  | [] => none

def word (w : List Char) : Reader Unit := fun s => (w.isPrefixOf? s).map ((), ·)

def takeWhile (p : Char → Bool) : Reader (List Char) := fun s => some (s.takeWhile p, s.dropWhile p)

def atEnd : Reader Unit := fun s => if s.isEmpty then some ((), s) else none

def consumed {α : Type} (r : Reader α) : Reader (List Char) := fun s =>
  (r s).map fun (_, rest) => (s.take (s.length - rest.length), rest)

def manyFrom {α : Type} (r : Reader α) (s : List Char) : List α × List Char :=
  match r s with
  | none => ([], s)
  | some (a, rest) =>
    if rest.length < s.length then
      let (others, rest) := manyFrom r rest
      (a :: others, rest)
    else ([], s)
termination_by s.length

def many {α : Type} (r : Reader α) : Reader (List α) := fun s => some (manyFrom r s)

def separated {α : Type} (item : Reader α) (separator : Reader Unit) : Reader (List α) := do
  let first ← item
  let others ← many (do separator; item)
  pure (first :: others)

end Reader

end Realization.Toml
