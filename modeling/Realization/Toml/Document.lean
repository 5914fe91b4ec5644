import Realization.Toml.Literal

/-!
Whole settings documents: keys, arrays, written-out tables, headers and the lines they are made of.
A value may be nested below `nestingLimit` and a key has fewer parts than that.
-/
namespace Realization.Toml

open Reader

def nestingLimit : Nat := 80

def isBare (c : Char) : Bool := c.isAlphanum || c = '_' || c = '-'

def bareKey : Reader String := do
  let first ← satisfying isBare
  let others ← takeWhile isBare
  pure (String.ofList (first :: others))

def key : Reader (List String) := do
  let part : Reader String := do
    blanks
    let name ← basicString <|> literalString <|> bareKey
    blanks
    pure name
  let parts ← separated part (char '.')
  if parts.length < nestingLimit then pure parts else failure

def assignKey (parts : List String) (value : Value) (fields : Fields) : Option Fields :=
  match parts.getLast? with
  | some last => Fields.assign last value parts.dropLast fields
  | none => none

def assignment (value : Reader Value) : Reader (List String × Value) := do
  let parts ← key
  char '='
  blanks
  let v ← value
  blanks
  pure (parts, v)

def array (value : Reader Value) : Reader Value := do
  let item : Reader Value := do
    gap
    let v ← value
    gap
    pure v
  char '['
  let items ← optional (do
    let items ← separated item (char ',')
    discard (optional (char ','))
    pure items)
  gap
  char ']'
  pure (.array (items.getD []))

def writtenTable (value : Reader Value) : Reader Value := do
  char '\x7b'
  let entries ← optional (separated (assignment value) (char ','))
  blanks
  char '\x7d'
  let fields ← (fun s =>
    ((entries.getD []).foldlM (fun fields (parts, v) => assignKey parts v fields) []).map (·, s))
  pure (.table .written fields)

/-- A value inside which arrays and tables nest at most `depth` deep. -/
def value : Nat → Reader Value
  | 0 => scalar
  | depth + 1 => scalar <|> array (value depth) <|> writtenTable (value depth)

structure Page where
  fields : Fields := []
  header : List String := []

def Page.assign (p : Page) (parts : List String) (v : Value) : Option Page :=
  (Fields.within (assignKey parts v) p.header p.fields).map fun fields => { p with fields }

def Page.enter (p : Page) (opening : String → Fields → Option Fields) (parts : List String) :
    Option Page := do
  let last ← parts.getLast?
  let fields ← Fields.within (opening last) parts.dropLast p.fields
  some { fields, header := parts }

def headerLine (p : Page) : Reader Page := do
  let parts ← (do
      word ['[', '[']
      let parts ← key
      word [']', ']']
      pure (true, parts)) <|> (do
      char '['
      let parts ← key
      char ']'
      pure (false, parts))
  lineEnd
  fun s => (p.enter (if parts.1 then Fields.openItem else Fields.openTable) parts.2).map (·, s)

def assignmentLine (p : Page) : Reader Page := do
  let (parts, v) ← assignment (value (nestingLimit - 1))
  lineEnd
  fun s => (p.assign parts v).map (·, s)

def line (p : Page) : Reader Page :=
  headerLine p <|> assignmentLine p <|> lineEnd.map fun _ => p

def lines (p : Page) (s : List Char) : Option Page :=
  if s.all isBlank then some p
  else
    match line p (s.dropWhile isBlank) with
    | some (p, rest) => if rest.length < s.length then lines p rest else none
    | none => none
termination_by s.length

def document (text : String) : Option Fields :=
  let s := match text.toList with
    | '\uFEFF' :: rest => rest
    | s => s
  (lines {} s).map (·.fields)

end Realization.Toml
