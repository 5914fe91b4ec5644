/-!
JSON values, as far as declarations are written in them: numbers are kept as mantissa and decimal
exponent, and an object is the list of its fields.
-/
namespace Realization

inductive Json where
  | null
  | bool (value : Bool)
  | number (mantissa : Int) (exponent : Nat)
  | string (value : String)
  | array (items : List Json)
  | object (fields : List (String × Json))
  deriving Inhabited

namespace Json

def text? : Json → Option String
  | .string s => some s
  | _ => none

def bool? : Json → Option Bool
  | .bool b => some b
  | _ => none

def items? : Json → Option (List Json)
  | .array items => some items
  | _ => none

def lookup (key : String) (fields : List (String × Json)) : Option Json :=
  (fields.find? (·.1 == key)).map (·.2)

/-- The values of a record with these keys. A record is an object, whose other fields are ignored,
or the list of its values in the order of the keys, where the last ones may be missing. -/
def record? (keys : List String) : Json → Option (List (Option Json))
  | .object fields => some (keys.map fun key => lookup key fields)
  | .array items =>
    if items.length ≤ keys.length then
      some (items.map some ++ List.replicate (keys.length - items.length) none)
    else none
  | _ => none

def alternative? : Json → Option (String × Option Json)
  | .string name => some (name, none)
  | .object [(name, content)] => some (name, some content)
  | _ => none

def isVoid : Option Json → Bool
  | none => true
  | some .null => true
  | _ => false

end Json

end Realization
