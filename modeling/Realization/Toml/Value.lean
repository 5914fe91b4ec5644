/-!
The tree that a settings document stands for. A table remembers how it came about, because that
decides which later lines may still add to it.
-/
namespace Realization.Toml

inductive Origin where
  | header
  | parent
  | dotted
  | written
  deriving DecidableEq, Repr

inductive Value where
  | text (value : String)
  | integer (value : Int)
  | float (literal : String)
  | boolean (value : Bool)
  | date (literal : String)
  | array (items : List Value)
  | table (origin : Origin) (fields : List (String × Value))
  | tables (items : List (List (String × Value)))

abbrev Fields := List (String × Value)

namespace Fields

def lookup (key : String) (fields : Fields) : Option Value :=
  (fields.find? (·.1 == key)).map (·.2)

def put (key : String) (value : Value) : Fields → Fields
  | [] => [(key, value)]
  | (k, v) :: rest => if k = key then (key, value) :: rest else (k, v) :: put key value rest

def inside (admits : Origin → Bool) (change : Fields → Option Fields) : Value → Option Value
  | .table origin fields => if admits origin then (change fields).map (.table origin) else none
  | .tables items =>
    match items.getLast? with
    | some last => (change last).map fun fields => .tables (items.dropLast ++ [fields])
    | none => none
  | _ => none

def assign (key : String) (value : Value) : List String → Fields → Option Fields
  | [], fields => if (lookup key fields).isSome then none else some (put key value fields)
  | k :: path, fields => do
    let admits (origin : Origin) :=
      decide (origin = .dotted) || (decide (origin = .parent) && !path.isEmpty)
    let child ←
      match lookup k fields with
      | none => (assign key value path []).map (.table .dotted)
      | some (.tables items) =>
        if path.isEmpty then none else inside admits (assign key value path) (.tables items)
      | some child => inside admits (assign key value path) child
    some (put k child fields)

def within (change : Fields → Option Fields) : List String → Fields → Option Fields
  | [], fields => change fields
  | k :: path, fields => do
    let child ←
      match lookup k fields with
      | none => (within change path []).map (.table .parent)
      | some child => inside (fun origin => decide (origin ≠ .written)) (within change path) child
    some (put k child fields)

def openTable (key : String) (fields : Fields) : Option Fields :=
  match lookup key fields with
  | none => some (put key (.table .header []) fields)
  | some (.table .parent children) => some (put key (.table .header children) fields)
  | some _ => none

def openItem (key : String) (fields : Fields) : Option Fields :=
  match lookup key fields with
  | none => some (put key (.tables [[]]) fields)
  | some (.tables items) => some (put key (.tables (items ++ [[]])) fields)
  | some _ => none

end Fields

end Realization.Toml
