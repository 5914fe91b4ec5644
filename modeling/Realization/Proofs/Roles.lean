import Mathlib.Data.List.Basic
import Realization.Declaration.Role

/-!
What a member does for a property: it reads the property or writes it, by its name and its signature. The two sides
of a property go by different leads and signatures, and all else that is said of one holds of the other.
-/
namespace Realization

def Named (lead : List Char) (property member : String) : Prop :=
  ∃ c rest, member.toList = lead ++ c :: rest ∧ Text.isUppercase c = true ∧
    property = String.ofList (Text.decapitalize (c :: rest))

theorem namedIff {lead : List Char} {property member : String} :
    Named lead property member ↔ propertyName? lead member = some property := by
  unfold propertyName? remainder?
  constructor
  · rintro ⟨c, rest, split, upper, rfl⟩
    have found := List.isPrefixOf?_eq_some_iff_append_eq.mpr split.symm
    simp only [found, if_pos upper, Option.map_some]
  · intro made
    obtain ⟨remainder, found, rfl⟩ := Option.map_eq_some_iff.mp made
    split at found
    · rename_i c rest cut
      split at found
      · rename_i upper
        cases found
        exact ⟨c, rest, (List.isPrefixOf?_eq_some_iff_append_eq.mp cut).symm, upper, rfl⟩
      · contradiction
    · contradiction

instance (lead : List Char) (property member : String) : Decidable (Named lead property member) :=
  decidable_of_iff _ namedIff.symm

theorem unnamed {lead : List Char} {member : String} :
    propertyName? lead member = none ↔ ∀ property, ¬ Named lead property member := by
  simp only [namedIff, Option.eq_none_iff_forall_ne_some, ne_eq]

theorem Named.unique {lead : List Char} {property property' member : String}
    (first : Named lead property member) (second : Named lead property' member) : property = property' :=
  Option.some.inj ((namedIff.mp first).symm.trans (namedIff.mp second))

theorem Named.apart {property property' member : String} (read : Named accessorLead property member)
    (written : Named mutatorLead property' member) : False := by
  obtain ⟨c, rest, split, _⟩ := read
  obtain ⟨c', rest', split', _⟩ := written
  rw [split] at split'
  -- the leads differ in their first letter
  simp [accessorLead, mutatorLead] at split'

namespace Member

def Reads (m : Member) (property : String) : Prop :=
  Named accessorLead property m.name ∧ m.params = [] ∧ m.returns.isSome = true

def Writes (m : Member) (property : String) : Prop :=
  Named mutatorLead property m.name ∧ m.params.length = 1 ∧ m.returns = none

instance (m : Member) (property : String) : Decidable (m.Reads property) :=
  inferInstanceAs (Decidable (_ ∧ _ ∧ _))

instance (m : Member) (property : String) : Decidable (m.Writes property) :=
  inferInstanceAs (Decidable (_ ∧ _ ∧ _))

def property? (m : Member) : Option String :=
  (propertyName? accessorLead m.name).or (propertyName? mutatorLead m.name)

def reader (name : String) (kind : Kind) : Member := { name, returns := some kind }

def writer (name : String) (kind : Kind) : Member := { name, params := [kind] }

end Member

inductive Side where
  | reading
  | writing
  deriving DecidableEq

namespace Side

def other : Side → Side
  | .reading => .writing
  | .writing => .reading

def lead : Side → List Char
  | .reading => accessorLead
  | .writing => mutatorLead

def member : Side → String → Kind → Member
  | .reading => .reader
  | .writing => .writer

def role : Side → String → Kind → Role
  | .reading => .accessor
  | .writing => .mutator

def judge : Side → Member → String → Except Misfit Role
  | .reading => accessorRole
  | .writing => mutatorRole

def Signed : Side → Member → Kind → Prop
  | .reading, m, kind => m.params = [] ∧ m.returns = some kind
  | .writing, m, kind => m.params = [kind] ∧ m.returns = none

def Serves : Side → Member → String → Prop
  | .reading => Member.Reads
  | .writing => Member.Writes

instance (side : Side) (m : Member) (property : String) : Decidable (side.Serves m property) :=
  match side with
  | .reading => inferInstanceAs (Decidable (m.Reads property))
  | .writing => inferInstanceAs (Decidable (m.Writes property))

variable {side side' : Side} {m : Member} {name property property' : String} {kind kind' : Kind}

theorem isOther (differ : side' ≠ side) : side' = side.other := by
  cases side <;> cases side' <;> first | rfl | contradiction

@[simp] theorem otherOther (side : Side) : side.other.other = side := by cases side <;> rfl

@[simp] theorem memberName : (side.member name kind).name = name := by cases side <;> rfl

theorem eachSide {P : Side → Prop} : (∀ side, P side) ↔ P .reading ∧ P .writing :=
  ⟨fun each => ⟨each _, each _⟩, fun ⟨reads, writes⟩ side => by cases side <;> assumption⟩

theorem someSide {P : Side → Prop} : (∃ side, P side) ↔ P .reading ∨ P .writing := by
  constructor
  · rintro ⟨_ | _, holds⟩
    · exact .inl holds
    · exact .inr holds
  · rintro (holds | holds)
    · exact ⟨_, holds⟩
    · exact ⟨_, holds⟩

theorem someServes : (∃ side : Side, side.Serves m property) ↔ m.Reads property ∨ m.Writes property := someSide

theorem namedSame (named : Named side.lead property name) (named' : Named side'.lead property' name) :
    side = side' := by
  cases side <;> cases side'
  case reading.writing => exact (named.apart named').elim
  case writing.reading => exact (named'.apart named).elim
  all_goals rfl

theorem servesExact : side.Serves m property ↔ Named side.lead property m.name ∧ ∃ kind, side.Signed m kind := by
  cases side with
  | reading =>
    refine and_congr_right' ⟨?_, ?_⟩
    · rintro ⟨params, returns⟩
      obtain ⟨kind, returns⟩ := Option.isSome_iff_exists.mp returns
      exact ⟨kind, params, returns⟩
    · rintro ⟨kind, params, returns⟩
      exact ⟨params, Option.isSome_iff_exists.mpr ⟨kind, returns⟩⟩
  | writing =>
    refine and_congr_right' ⟨?_, ?_⟩
    · rintro ⟨params, returns⟩
      obtain ⟨kind, params⟩ := List.length_eq_one_iff.mp params
      exact ⟨kind, params, returns⟩
    · rintro ⟨kind, params, returns⟩
      exact ⟨List.length_eq_one_iff.mpr ⟨kind, params⟩, returns⟩

theorem Serves.named (serves : side.Serves m property) : Named side.lead property m.name := (servesExact.mp serves).1

theorem Serves.sameSide (serves : side.Serves m property) (serves' : side'.Serves m property') : side = side' :=
  namedSame serves.named serves'.named

theorem Serves.sameProperty (serves : side.Serves m property) (serves' : side'.Serves m property') :
    property = property' := by
  obtain rfl := serves.sameSide serves'
  exact serves.named.unique serves'.named

theorem memberSigned : side.Signed (side.member name kind) kind := by cases side <;> exact ⟨rfl, rfl⟩

theorem memberServes : side.Serves (side.member name kind) property ↔ Named side.lead property name := by
  rw [servesExact, memberName]
  exact and_iff_left ⟨kind, memberSigned⟩

theorem memberOf (signed : side.Signed m kind) (bare : m.hasBody = false) : m = side.member m.name kind := by
  cases side <;>
  · obtain ⟨params, returns⟩ := signed
    cases m
    cases params
    cases returns
    cases bare
    rfl

theorem signedKind (signed : side.Signed (side.member name kind) kind') : kind = kind' := by
  cases side
  case reading => exact Option.some.inj signed.2
  case writing => exact (List.cons.inj signed.1).1

theorem roleInjective (same : side.role property kind = side'.role property' kind') :
    side = side' ∧ property = property' ∧ kind = kind' := by
  cases side <;> cases side' <;> simp_all [role]

theorem roleCases (r : Role) : ∃ (side : Side) (property : String) (kind : Kind), r = side.role property kind := by
  cases r with
  | accessor property kind => exact ⟨.reading, property, kind, rfl⟩
  | mutator property kind => exact ⟨.writing, property, kind, rfl⟩

theorem judgeExact {r : Role} :
    side.judge m property = .ok r ↔ ∃ kind, side.Signed m kind ∧ r = side.role property kind := by
  cases side
  case reading =>
    change accessorRole m property = .ok r ↔ _
    unfold accessorRole
    split <;> simp_all [Signed, role, eq_comm]
  case writing =>
    change mutatorRole m property = .ok r ↔ _
    unfold mutatorRole
    split <;> simp_all [Signed, role, eq_comm]

end Side

namespace Member

variable {m : Member} {side : Side} {property : String} {kind : Kind}

theorem roleNamed (named : Named side.lead property m.name) : m.role = side.judge m property := by
  have found := namedIff.mp named
  unfold role
  cases side with
  | reading =>
    rw [show propertyName? accessorLead m.name = some property from found]
    rfl
  | writing =>
    have unread : propertyName? accessorLead m.name = none := unnamed.mpr fun _ read => Named.apart read named
    rw [unread, show propertyName? mutatorLead m.name = some property from found]
    rfl

theorem roleUnnamed (nameless : ∀ (side : Side) property, ¬ Named side.lead property m.name) :
    m.role = .error .unrecognizedName := by
  have unread : propertyName? accessorLead m.name = none := unnamed.mpr (nameless .reading)
  have unwritten : propertyName? mutatorLead m.name = none := unnamed.mpr (nameless .writing)
  rw [role, unread, unwritten]

theorem roleExact :
    m.role = .ok (side.role property kind) ↔ Named side.lead property m.name ∧ side.Signed m kind := by
  constructor
  · intro judged
    by_cases named : ∃ (side : Side) (property : String), Named side.lead property m.name
    · obtain ⟨side', property', named⟩ := named
      rw [roleNamed named] at judged
      obtain ⟨kind', signed, same⟩ := Side.judgeExact.mp judged
      obtain ⟨rfl, rfl, rfl⟩ := Side.roleInjective same
      exact ⟨named, signed⟩
    · rw [roleUnnamed fun side property named' => named ⟨side, property, named'⟩] at judged
      contradiction
  · rintro ⟨named, signed⟩
    rw [roleNamed named]
    exact Side.judgeExact.mpr ⟨kind, signed, rfl⟩

theorem roleServing (serves : side.Serves m property) : ∃ kind, m.role = .ok (side.role property kind) := by
  obtain ⟨named, kind, signed⟩ := Side.servesExact.mp serves
  exact ⟨kind, roleExact.mpr ⟨named, signed⟩⟩

theorem propertyNamed (named : Named side.lead property m.name) : m.property? = some property := by
  have found := namedIff.mp named
  cases side with
  | reading => exact Option.or_eq_some_iff.mpr (.inl found)
  | writing =>
    have unread : propertyName? accessorLead m.name = none := unnamed.mpr fun _ read => Named.apart read named
    exact Option.or_eq_some_iff.mpr (.inr ⟨unread, found⟩)

end Member

end Realization
