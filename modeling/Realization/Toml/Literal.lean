import Realization.Toml.Reader
import Realization.Toml.Value

/-!
Literals of the settings format: blanks and comments, the four kinds of strings, numbers, dates and
times. Strings in three quotes may run over lines; an integer has to fit 64 bits with a sign, and a
float must not exceed what double precision can hold.
-/
namespace Realization.Toml

open Reader

def isBlank (c : Char) : Bool := c = ' ' || c = '\t'

def isText (c : Char) : Bool := c = '\t' || (0x20 ≤ c.toNat && c.toNat ≠ 0x7F)

def isBinary (c : Char) : Bool := c = '0' || c = '1'

def isOctal (c : Char) : Bool := '0' ≤ c && c ≤ '7'

def isHex (c : Char) : Bool := c.isDigit || ('a' ≤ c && c ≤ 'f') || ('A' ≤ c && c ≤ 'F')

def digitValue (c : Char) : Nat :=
  if c.isDigit then c.toNat - '0'.toNat
  else if 'a' ≤ c then c.toNat - 'a'.toNat + 10
  else c.toNat - 'A'.toNat + 10

def number (base : Nat) (digits : List Char) : Nat :=
  digits.foldl (fun n c => n * base + digitValue c) 0

def blanks : Reader Unit := (takeWhile isBlank).map fun _ => ()

def newline : Reader Unit := char '\n' <|> word ['\r', '\n']

def comment : Reader Unit := do
  char '#'
  discard (takeWhile isText)

def lineEnd : Reader Unit := do
  blanks
  discard (optional comment)
  newline <|> atEnd

def gap : Reader Unit :=
  discard (many (discard (satisfying isBlank) <|> newline <|> (do comment; newline)))

def exactly (n : Nat) (p : Char → Bool) : Reader (List Char) :=
  (List.replicate n ()).mapM fun _ => satisfying p

/-- A character by its code point, which surrogates do not have. -/
def codePoint (digits : Nat) : Reader (List Char) := do
  let n := number 16 (← exactly digits isHex)
  if n < 0xD800 || (0xDFFF < n && n < 0x110000) then pure [Char.ofNat n] else failure

def escape : Reader (List Char) := do
  char '\\'
  match ← satisfying fun _ => true with
  | 'b' => pure ['\x08']
  | 't' => pure ['\t']
  | 'n' => pure ['\n']
  | 'f' => pure ['\x0c']
  | 'r' => pure ['\r']
  | '"' => pure ['"']
  | '\\' => pure ['\\']
  | 'u' => codePoint 4
  | 'U' => codePoint 8
  | _ => failure

def basicText : Reader (List Char) :=
  (satisfying fun c => isText c && c ≠ '"' && c ≠ '\\').map fun c => [c]

def basicString : Reader String := do
  char '"'
  let parts ← many (basicText <|> escape)
  char '"'
  pure (String.ofList parts.flatten)

def literalText : Reader (List Char) :=
  (satisfying fun c => isText c && c ≠ '\x27').map fun c => [c]

def literalString : Reader String := do
  char '\x27'
  let parts ← many literalText
  char '\x27'
  pure (String.ofList parts.flatten)

def continuation : Reader (List Char) := do
  char '\\'
  blanks
  newline
  discard (many (discard (satisfying isBlank) <|> newline))
  pure []

def innerQuotes (q : Char) : Reader (List Char) := fun s =>
  let quotes := s.takeWhile (· = q)
  if quotes.length = 1 || quotes.length = 2 then some (quotes, s.drop quotes.length) else none

def closingQuotes (q : Char) : Reader (List Char) := fun s =>
  let quotes := s.takeWhile (· = q)
  if quotes.length < 3 then none
  else
    let kept := min (quotes.length - 3) 2
    some (List.replicate kept q, s.drop (kept + 3))

def multiline (q : Char) (content : Reader (List Char)) : Reader String := do
  word [q, q, q]
  discard (optional newline)
  let parts ← many (content <|> newline.map (fun _ => ['\n']) <|> innerQuotes q)
  let last ← closingQuotes q
  pure (String.ofList (parts.flatten ++ last))

def string : Reader String :=
  multiline '"' (basicText <|> continuation <|> escape) <|> basicString <|>
    multiline '\x27' literalText <|> literalString

def moreDigits (p : Char → Bool) : List Char → List Char × List Char
  | [] => ([], [])
  | [c] => if p c then ([c], []) else ([], [c])
  | c :: d :: rest =>
    if p c then
      let (digits, rest) := moreDigits p (d :: rest)
      (c :: digits, rest)
    else if c = '_' && p d then moreDigits p (d :: rest)
    else ([], c :: d :: rest)

def digits (p : Char → Bool) : Reader (List Char) := do
  let first ← satisfying p
  let others ← (fun s => some (moreDigits p s))
  pure (first :: others)

def sign : Reader Bool := do
  match ← optional (satisfying fun c => c = '+' || c = '-') with
  | some c => pure (c = '-')
  | none => pure false

def decimal : Reader (Bool × List Char) := do
  let negative ← sign
  match ← peek with
  | some '0' => do
    char '0'
    pure (negative, ['0'])
  | _ => do
    let ds ← digits Char.isDigit
    pure (negative, ds)

def fits (n : Int) : Bool := Int64.minValue.toInt ≤ n && n ≤ Int64.maxValue.toInt

def integer : Reader Value := do
  let radix (lead : List Char) (base : Nat) (p : Char → Bool) : Reader Int := do
    word lead
    pure (number base (← digits p))
  let plain : Reader Int := do
    let (negative, ds) ← decimal
    let n : Int := number 10 ds
    pure (if negative then -n else n)
  let n ← radix ['0', 'x'] 16 isHex <|> radix ['0', 'o'] 8 isOctal <|>
    radix ['0', 'b'] 2 isBinary <|> plain
  if fits n then pure (.integer n) else failure

def overflows (mantissa : Nat) (exponent : Int) : Bool :=
  let bound := (1 <<< 1024) - (1 <<< 970)
  let magnitude := ((Nat.toDigits 10 mantissa).length : Int) + exponent
  if mantissa = 0 || magnitude < 300 then false
  else if 320 < magnitude then true
  else
    let scaled := mantissa * Nat.pow 10 exponent.toNat
    bound * Nat.pow 10 (-exponent).toNat ≤ scaled

def exponentPart : Reader Int := do
  discard (satisfying fun c => c = 'e' || c = 'E')
  let negative ← sign
  let n : Int := number 10 (← digits Char.isDigit)
  pure (if negative then -n else n)

def fractionPart : Reader (List Char) := do
  char '.'
  digits Char.isDigit

def finiteFloat : Reader Unit := do
  let (negative, whole) ← decimal
  let (fraction, exponent) ← (do
    let fraction ← fractionPart
    let exponent ← optional exponentPart
    pure (fraction, exponent.getD 0)) <|> (exponentPart.map fun exponent => ([], exponent))
  let mantissa := number 10 (whole ++ fraction)
  if overflows mantissa (exponent - fraction.length) && !negative then failure else pure ()

def specialFloat : Reader Unit := do
  discard sign
  word ['i', 'n', 'f'] <|> word ['n', 'a', 'n']

def float : Reader Value := do
  let literal ← consumed (finiteFloat <|> specialFloat)
  pure (.float (String.ofList literal))

def digitsUpTo (count low high : Nat) : Reader Nat := do
  let n := number 10 (← exactly count Char.isDigit)
  if low ≤ n && n ≤ high then pure n else failure

def isLeap (year : Nat) : Bool := year % 4 = 0 && (year % 100 ≠ 0 || year % 400 = 0)

def daysIn (year month : Nat) : Nat :=
  if month = 2 then if isLeap year then 29 else 28
  else if month = 4 || month = 6 || month = 9 || month = 11 then 30
  else 31

def day : Reader Unit := do
  let year ← digitsUpTo 4 0 9999
  char '-'
  let month ← digitsUpTo 2 1 12
  char '-'
  discard (digitsUpTo 2 1 (daysIn year month))

def time : Reader Unit := do
  discard (digitsUpTo 2 0 23)
  char ':'
  discard (digitsUpTo 2 0 59)
  char ':'
  discard (digitsUpTo 2 0 60)
  discard (optional (do
    char '.'
    discard (satisfying Char.isDigit)
    takeWhile Char.isDigit))

def timeZone : Reader Unit :=
  discard (satisfying fun c => c = 'Z' || c = 'z') <|> do
    discard (satisfying fun c => c = '+' || c = '-')
    discard (digitsUpTo 2 0 23)
    char ':'
    discard (digitsUpTo 2 0 59)

def dayAndTime : Reader Unit := do
  day
  discard (optional (do
    discard (satisfying fun c => c = 'T' || c = 't' || c = ' ')
    time
    discard (optional timeZone)))

def date : Reader Value := do
  let literal ← consumed (dayAndTime <|> time)
  pure (.date (String.ofList literal))

def boolean : Reader Value :=
  (word ['t', 'r', 'u', 'e']).map (fun _ => .boolean true) <|>
    (word ['f', 'a', 'l', 's', 'e']).map fun _ => .boolean false

def scalar : Reader Value :=
  string.map .text <|> date <|> float <|> integer <|> boolean

end Realization.Toml
