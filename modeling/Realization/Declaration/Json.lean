import Realization.Json
import Realization.Declaration.Basic

/-!
The JSON form of kinds, members and declarations. Writing gives every key; reading accepts a
record that leaves out the keys with a default, in any order and among unknown keys.
-/
namespace Realization

open Json (lookup record? alternative? isVoid)

def Kind.toJson : Kind → Json
  | .model name => .object [("model", .string name)]
  | k => .string k.label

def Member.toJson (m : Member) : Json :=
  .object [("name", .string m.name), ("params", .array (m.params.map Kind.toJson)),
    ("returns", (m.returns.map Kind.toJson).getD .null), ("has_body", .bool m.hasBody)]

def Shape.label : Shape → String
  | .interface => "interface"
  | .concrete => "class"

def Declaration.toJson (d : Declaration) : Json :=
  .object [("name", .string d.name), ("shape", .string d.shape.label),
    ("extends", .array (d.parents.map .string)), ("fields", .array (d.fields.map .string)),
    ("members", .array (d.members.map Member.toJson))]

def Kind.ofJson? (j : Json) : Option Kind :=
  match alternative? j with
  | some ("model", some (.string name)) => some (.model name)
  | some (name, content) =>
    if isVoid content then
      [Kind.text, .integer, .boolean, .float].find? (·.label == name)
    else none
  | none => none

/-- A value that may be left out, but is not null when it is there. -/
def orDefault {α : Type} (default : α) (read : Json → Option α) : Option Json → Option α
  | none => some default
  | some j => read j

def listOfJson? {α : Type} (read : Json → Option α) (j : Json) : Option (List α) :=
  j.items?.bind (·.mapM read)

def returnsOfJson? : Option Json → Option (Option Kind)
  | none => some none
  | some .null => some none
  | some j => (Kind.ofJson? j).map some

def Member.ofJson? (j : Json) : Option Member :=
  match record? ["name", "params", "returns", "has_body"] j with
  | some [some name, params, returns, hasBody] => do
    let name ← name.text?
    let params ← orDefault [] (listOfJson? Kind.ofJson?) params
    let returns ← returnsOfJson? returns
    let hasBody ← orDefault false Json.bool? hasBody
    some ⟨name, params, returns, hasBody⟩
  | _ => none

def Shape.ofJson? (j : Json) : Option Shape :=
  match alternative? j with
  | some (name, content) =>
    if isVoid content then [Shape.interface, .concrete].find? (·.label == name) else none
  | none => none

def Declaration.ofJson? (j : Json) : Option Declaration :=
  match record? ["name", "shape", "extends", "fields", "members"] j with
  | some [some name, some shape, parents, fields, members] => do
    let name ← name.text?
    let shape ← Shape.ofJson? shape
    let parents ← orDefault [] (listOfJson? Json.text?) parents
    let fields ← orDefault [] (listOfJson? Json.text?) fields
    let members ← orDefault [] (listOfJson? Member.ofJson?) members
    some ⟨name, shape, parents, fields, members⟩
  | _ => none

end Realization
