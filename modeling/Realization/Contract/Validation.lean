import Realization.Contract.Basic
import Realization.Contract.Violation
import Realization.Declaration.Role

/-!
From a declaration to its contract. Validation runs in phases and stops at the first violation: the
shape of the type, then the role of each member, then the pairing of accessors with mutators, then
the kinds of the pairs. `Slot` holds the members seen so far for one property; slots stand in the
order in which their properties are first mentioned.
-/
namespace Realization

structure Slot where
  property : String
  accessor : Option (String × Kind) := none
  mutator : Option (String × Kind) := none
  deriving DecidableEq, Repr

namespace Declaration

def checkShape (d : Declaration) : Except Violation Unit :=
  if d.shape = .concrete then .error (.notAnInterface d.name "declared as a class")
  else
    match d.fields, d.members.find? (·.hasBody), d.parents with
    | field :: _, _, _ => .error (.notAnInterface d.name ("declares field '" ++ field ++ "'"))
    | [], some m, _ =>
      .error (.notAnInterface d.name ("member '" ++ m.name ++ "' has an implementation"))
    | [], none, parent :: _ => .error (.extendsOther d.name parent)
    | [], none, [] => .ok ()

end Declaration

namespace Slot

def update (property : String) (change : Slot → Slot) : List Slot → List Slot
  | [] => [change { property := property }]
  | s :: rest =>
    if s.property = property then change s :: rest else s :: update property change rest

def find (property : String) (slots : List Slot) : Slot :=
  (slots.find? (·.property == property)).getD { property := property }

def ofMember (type : String) (slots : List Slot) (m : Member) : Except Violation (List Slot) :=
  match m.role with
  | .error misfit => .error (.invalidMember type m.name misfit.describe)
  | .ok (.accessor property kind) =>
    if (find property slots).accessor.isSome then
      .error (.invalidMember type m.name "duplicate accessor for property")
    else .ok (update property (fun s => { s with accessor := some (m.name, kind) }) slots)
  | .ok (.mutator property kind) =>
    if (find property slots).mutator.isSome then
      .error (.invalidMember type m.name "duplicate mutator for property")
    else .ok (update property (fun s => { s with mutator := some (m.name, kind) }) slots)

def ofMembers (type : String) : List Slot → List Member → Except Violation (List Slot)
  | slots, [] => .ok slots
  | slots, m :: rest =>
    match ofMember type slots m with
    | .error v => .error v
    | .ok slots => ofMembers type slots rest

end Slot

/-- An accessor and a mutator of one property, whose kinds may still differ. -/
structure Pair where
  property : String
  accessor : String × Kind
  mutator : String × Kind
  deriving DecidableEq, Repr

namespace Pair

def ofSlots (type : String) : List Slot → Except Violation (List Pair)
  | [] => .ok []
  | s :: rest =>
    match s.accessor, s.mutator with
    | some accessor, some mutator => (ofSlots type rest).map (⟨s.property, accessor, mutator⟩ :: ·)
    | some (member, _), none => .error (.unpairedProperty type s.property member)
    | none, some (member, _) => .error (.unpairedProperty type s.property member)
    | none, none => ofSlots type rest

def properties (type : String) : List Pair → Except Violation (List Property)
  | [] => .ok []
  | p :: rest =>
    if p.accessor.2 = p.mutator.2 ∧ p.accessor.2.supported then
      (properties type rest).map (⟨p.property, p.accessor.2, p.accessor.1, p.mutator.1⟩ :: ·)
    else .error (.unsupportedProperty type p.property p.accessor.2 p.mutator.2)

end Pair

def Contract.ofDeclaration (d : Declaration) : Except Violation Contract := do
  d.checkShape
  let slots ← Slot.ofMembers d.name [] d.members
  let pairs ← Pair.ofSlots d.name slots
  let properties ← Pair.properties d.name pairs
  .ok { name := d.name, fingerprint := d.fingerprint, properties }

end Realization
