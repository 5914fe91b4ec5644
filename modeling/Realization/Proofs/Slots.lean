import Mathlib.Data.List.Perm.Basic
import Realization.Contract.Validation
import Realization.Proofs.FirstMentions
import Realization.Proofs.Roles

/-!
The slots that the members of a declaration fill. They hold the members seen so far and nothing else, each in the
slot of its property, in the order in which the properties were first spoken of.
-/
namespace Realization

namespace Side

def entry : Side → Slot → Option (String × Kind)
  | .reading => Slot.accessor
  | .writing => Slot.mutator

def fill : Side → String × Kind → Slot → Slot
  | .reading, taken, s => { s with accessor := some taken }
  | .writing, taken, s => { s with mutator := some taken }

def duplicate : Side → String
  | .reading => "duplicate accessor for property"
  | .writing => "duplicate mutator for property"

variable {side side' : Side} {s : Slot} {taken : String × Kind}

@[simp] theorem fillProperty : (side.fill taken s).property = s.property := by cases side <;> rfl

@[simp] theorem fillEntry : side.entry (side.fill taken s) = some taken := by cases side <;> rfl

theorem fillOther (differ : side' ≠ side) : side'.entry (side.fill taken s) = side'.entry s := by
  cases side <;> cases side' <;> first | rfl | contradiction

end Side

namespace Slot

def members (s : Slot) : List Member :=
  s.accessor.toList.map (fun entry => .reader entry.1 entry.2) ++
    s.mutator.toList.map fun entry => .writer entry.1 entry.2

variable {property type : String} {change : Slot → Slot} {slots slots' : List Slot} {seen ms : List Member}
  {m : Member} {s : Slot} {side : Side} {name : String} {kind : Kind}

theorem membersExact : m ∈ s.members ↔
    ∃ (side : Side) (name : String) (kind : Kind), side.entry s = some (name, kind) ∧ m = side.member name kind := by
  simp [members, Side.someSide, Side.entry, Side.member, eq_comm]

theorem fillMembers (free : side.entry s = none) :
    (side.fill (name, kind) s).members.Perm (side.member name kind :: s.members) := by
  cases side with
  | reading =>
    have free : s.accessor = none := free
    simp [members, Side.fill, Side.member, free]
  | writing =>
    have free : s.mutator = none := free
    simp only [members, Side.fill, Side.member, free, Option.toList_none, Option.toList_some, List.map_nil,
      List.map_cons, List.append_nil]
    exact List.perm_append_singleton _ _

structure Fits (s : Slot) : Prop where
  named : ∀ (side : Side) name kind, side.entry s = some (name, kind) → Named side.lead s.property name
  held : s.members ≠ []

theorem Fits.filled (before : s.members = [] ∨ s.Fits) (named : Named side.lead s.property name) :
    (side.fill (name, kind) s).Fits where
  named side' name' kind' entry := by
    rw [Side.fillProperty]
    by_cases same : side' = side
    · subst same
      rw [Side.fillEntry] at entry
      cases entry
      exact named
    · rw [Side.fillOther same] at entry
      rcases before with empty | fits
      · exact absurd (membersExact.mpr ⟨side', name', kind', entry, rfl⟩) (by simp [empty])
      · exact fits.named side' name' kind' entry
  held := List.ne_nil_of_mem (membersExact.mpr ⟨side, name, kind, Side.fillEntry, rfl⟩)

theorem Fits.serves (fits : s.Fits) (entry : side.entry s = some (name, kind)) :
    side.member name kind ∈ s.members ∧ side.Serves (side.member name kind) s.property :=
  ⟨membersExact.mpr ⟨side, name, kind, entry, rfl⟩, Side.memberServes.mpr (fits.named side name kind entry)⟩

theorem Fits.concerns (fits : s.Fits) (held : m ∈ s.members) : ∃ side : Side, side.Serves m s.property := by
  obtain ⟨side, name, kind, entry, rfl⟩ := membersExact.mp held
  exact ⟨side, (fits.serves entry).2⟩

theorem Fits.same (fits : s.Fits) (held : m ∈ s.members) (serves : side.Serves m property) :
    s.property = property := by
  obtain ⟨side', serves'⟩ := fits.concerns held
  exact serves'.sameProperty serves

theorem Fits.entry (fits : s.Fits) (held : m ∈ s.members) (serves : side.Serves m property) :
    ∃ name kind, side.entry s = some (name, kind) ∧ m = side.member name kind := by
  obtain ⟨side', name, kind, entry, rfl⟩ := membersExact.mp held
  obtain rfl := serves.sameSide (fits.serves entry).2
  exact ⟨name, kind, entry, rfl⟩

theorem updateNames (keeps : ∀ s, (change s).property = s.property) (slots : List Slot) :
    (update property change slots).map (·.property) =
      if property ∈ slots.map (·.property) then slots.map (·.property)
      else slots.map (·.property) ++ [property] := by
  induction slots with
  | nil => simp [update, keeps]
  | cons s rest ih =>
    unfold update
    by_cases here : s.property = property
    · simp [here, keeps]
    · rw [if_neg here, List.map_cons, ih, List.map_cons]
      by_cases later : property ∈ rest.map (·.property)
      · rw [if_pos later, if_pos (List.mem_cons_of_mem _ later)]
      · have fresh : property ∉ s.property :: rest.map (·.property) :=
          List.not_mem_cons_of_ne_of_not_mem (Ne.symm here) later
        rw [if_neg later, if_neg fresh]
        rfl

theorem updateMembers
    (adds : (change (find property slots)).members.Perm (m :: (find property slots).members)) :
    ((update property change slots).flatMap members).Perm (m :: slots.flatMap members) := by
  induction slots with
  | nil => simpa [update, find, members] using adds
  | cons s rest ih =>
    unfold update
    by_cases here : s.property = property
    · have found : find property (s :: rest) = s := by simp [find, here]
      rw [found] at adds
      rw [if_pos here, List.flatMap_cons, List.flatMap_cons]
      exact adds.append_right _
    · have found : find property (s :: rest) = find property rest := by simp [find, here]
      rw [found] at adds
      rw [if_neg here, List.flatMap_cons, List.flatMap_cons]
      exact ((ih adds).append_left _).trans List.perm_middle

theorem updateFits (fits : ∀ s ∈ slots, s.Fits)
    (changed : ∀ s : Slot, s.property = property → (s.members = [] ∨ s.Fits) → (change s).Fits) :
    ∀ s ∈ update property change slots, s.Fits := by
  induction slots with
  | nil =>
    intro s member
    cases List.mem_singleton.mp member
    exact changed _ rfl (.inl rfl)
  | cons first rest ih =>
    have tail := fun s member => fits s (List.mem_cons_of_mem _ member)
    unfold update
    split
    · rename_i here
      intro s member
      rcases List.mem_cons.mp member with rfl | member
      · exact changed _ here (.inr (fits first List.mem_cons_self))
      · exact tail s member
    · intro s member
      rcases List.mem_cons.mp member with rfl | member
      · exact fits s List.mem_cons_self
      · exact ih tail s member

theorem findHeld (held : (find property slots).members ≠ []) :
    find property slots ∈ slots ∧ (find property slots).property = property := by
  unfold find at held ⊢
  cases found : slots.find? (·.property == property) with
  | none => simp [found, Slot.members] at held
  | some s =>
    exact ⟨List.mem_of_find?_eq_some found, by simpa using List.find?_some found⟩

theorem findOwn (distinct : (slots.map (·.property)).Nodup) (inside : s ∈ slots) :
    find s.property slots = s := by
  unfold find
  cases found : slots.find? (·.property == s.property) with
  | none => simpa using List.find?_eq_none.mp found s inside
  | some s' =>
    have same : s'.property = s.property := by simpa using List.find?_some found
    exact List.inj_on_of_nodup_map distinct (List.mem_of_find?_eq_some found) inside same

theorem ofMemberRole (role : m.role = .ok (side.role property kind)) :
    ofMember type slots m = if (side.entry (find property slots)).isSome then
        .error (.invalidMember type m.name side.duplicate)
      else .ok (update property (side.fill (m.name, kind)) slots) := by
  unfold ofMember
  cases side <;>
  · rw [role]
    rfl

/- What the slots hold once the members of a list have gone into them. -/
structure Collects (slots : List Slot) (seen : List Member) : Prop where
  order : slots.map (·.property) = (seen.filterMap Member.property?).eraseDups
  distinct : (slots.map (·.property)).Nodup
  members : (slots.flatMap Slot.members).Perm seen
  fits : ∀ s ∈ slots, s.Fits

theorem collectsNil : Collects [] [] := ⟨rfl, List.nodup_nil, .refl _, by simp⟩

theorem Collects.add (collects : Collects slots seen) (known : m.property? = some property)
    (keeps : ∀ s, (change s).property = s.property)
    (adds : (change (find property slots)).members.Perm (m :: (find property slots).members))
    (changed : ∀ s : Slot, s.property = property → (s.members = [] ∨ s.Fits) → (change s).Fits) :
    Collects (update property change slots) (seen ++ [m]) where
  order := by
    rw [updateNames keeps, List.filterMap_append, List.filterMap_cons_some known, List.filterMap_nil,
      eraseDupsSnoc, collects.order]
    simp only [List.mem_eraseDups]
  distinct := by
    rw [updateNames keeps]
    split
    · exact collects.distinct
    · rename_i fresh
      exact List.nodup_append.mpr ⟨collects.distinct, by simp, by simpa using fresh⟩
  members :=
    ((updateMembers adds).trans (collects.members.cons m)).trans (List.perm_append_singleton m seen).symm
  fits := updateFits collects.fits changed

theorem Collects.addSide (collects : Collects slots seen) (role : m.role = .ok (side.role property kind))
    (bare : m.hasBody = false) (free : side.entry (find property slots) = none) :
    Collects (update property (side.fill (m.name, kind)) slots) (seen ++ [m]) := by
  obtain ⟨named, signed⟩ := Member.roleExact.mp role
  refine collects.add (Member.propertyNamed named) (fun _ => Side.fillProperty) ?adds ?changed
  case adds =>
    have adds : (side.fill (m.name, kind) _).members.Perm (side.member m.name kind :: _) := fillMembers free
    rwa [← Side.memberOf signed bare] at adds
  case changed => exact fun s same before => Fits.filled before (same ▸ named)

theorem Collects.ofMember (collects : Collects slots seen) (bare : m.hasBody = false)
    (taken : Slot.ofMember type slots m = .ok slots') : Collects slots' (seen ++ [m]) := by
  cases role : m.role with
  | error misfit =>
    rw [Slot.ofMember, role] at taken
    contradiction
  | ok r =>
    obtain ⟨side, property, kind, rfl⟩ := Side.roleCases r
    rw [ofMemberRole role] at taken
    split at taken
    · contradiction
    · rename_i free
      cases taken
      exact collects.addSide role bare (by simpa using free)

theorem Collects.ofMembers (collects : Collects slots seen) (bare : ∀ m ∈ ms, m.hasBody = false)
    (taken : Slot.ofMembers type slots ms = .ok slots') : Collects slots' (seen ++ ms) := by
  induction ms generalizing slots seen with
  | nil =>
    cases taken
    rw [List.append_nil]
    exact collects
  | cons m rest ih =>
    unfold Slot.ofMembers at taken
    split at taken
    · contradiction
    · rename_i answer
      have later := ih (collects.ofMember (bare m List.mem_cons_self) answer)
        (fun m member => bare m (List.mem_cons_of_mem _ member)) taken
      rwa [List.append_assoc, List.singleton_append] at later

theorem Collects.member (collects : Collects slots seen) (inside : s ∈ slots) (held : m ∈ s.members) :
    m ∈ seen := collects.members.subset (List.mem_flatMap.mpr ⟨s, inside, held⟩)

theorem Collects.home (collects : Collects slots seen) (inside : s ∈ slots) (member : m ∈ seen)
    (serves : side.Serves m s.property) : m ∈ s.members := by
  obtain ⟨s', inside', held⟩ := List.mem_flatMap.mp (collects.members.symm.subset member)
  have same := (collects.fits s' inside').same held serves
  exact List.inj_on_of_nodup_map collects.distinct inside' inside same ▸ held

theorem Collects.entry (collects : Collects slots seen) (inside : s ∈ slots) :
    side.entry s = some (name, kind) ↔
      ∃ m ∈ seen, side.Serves m s.property ∧ m.name = name ∧ side.Signed m kind := by
  constructor
  · intro entry
    obtain ⟨held, serves⟩ := (collects.fits s inside).serves entry
    exact ⟨_, collects.member inside held, serves, Side.memberName, Side.memberSigned⟩
  · rintro ⟨m, member, serves, rfl, signed⟩
    obtain ⟨name, kind', entry, rfl⟩ := (collects.fits s inside).entry (collects.home inside member serves) serves
    rw [entry, Side.memberName, Side.signedKind signed]

theorem Collects.occupied (collects : Collects slots seen) :
    (side.entry (find property slots)).isSome = true ↔ ∃ m ∈ seen, side.Serves m property := by
  constructor
  · intro occupied
    obtain ⟨⟨name, kind⟩, entry⟩ := Option.isSome_iff_exists.mp occupied
    have held : (find property slots).members ≠ [] :=
      List.ne_nil_of_mem (membersExact.mpr ⟨side, name, kind, entry, rfl⟩)
    obtain ⟨inside, same⟩ := findHeld held
    obtain ⟨m, member, serves, _⟩ := (collects.entry inside).mp entry
    exact ⟨m, member, same ▸ serves⟩
  · rintro ⟨m, member, serves⟩
    obtain ⟨s, inside, held⟩ := List.mem_flatMap.mp (collects.members.symm.subset member)
    obtain rfl := (collects.fits s inside).same held serves
    obtain ⟨name, kind, entry, _⟩ := (collects.fits s inside).entry held serves
    rw [findOwn collects.distinct inside, entry]
    rfl

theorem Collects.taken (type : String) (collects : Collects slots seen) (bare : ∀ m ∈ ms, m.hasBody = false)
    (fitting : ∀ m ∈ ms, ∃ (side : Side) (property : String), side.Serves m property)
    (single : ∀ (side : Side) property, ((seen ++ ms).filter (side.Serves · property)).length ≤ 1) :
    ∃ slots', Slot.ofMembers type slots ms = .ok slots' := by
  induction ms generalizing slots seen with
  | nil => exact ⟨slots, rfl⟩
  | cons m rest ih =>
    have here := bare m List.mem_cons_self
    obtain ⟨side, property, serves⟩ := fitting m List.mem_cons_self
    obtain ⟨kind, role⟩ := Member.roleServing serves
    have free : ¬ (side.entry (find property slots)).isSome = true := by
      intro occupied
      obtain ⟨r, before, also⟩ := collects.occupied.mp occupied
      have counted : ∀ {ms : List Member} {o : Member}, o ∈ ms → side.Serves o property →
          0 < (ms.filter (side.Serves · property)).length := fun member serves =>
        List.length_pos_of_mem (List.mem_filter.mpr ⟨member, decide_eq_true serves⟩)
      have earlier := counted before also
      have own : 0 < ((m :: rest).filter (side.Serves · property)).length := counted List.mem_cons_self serves
      have few := single side property
      rw [List.filter_append, List.length_append] at few
      omega
    have later := collects.addSide role here (by simpa using free)
    simp only [Slot.ofMembers, ofMemberRole role, if_neg free]
    refine ih later (fun m member => bare m (List.mem_cons_of_mem _ member))
      (fun m member => fitting m (List.mem_cons_of_mem _ member)) fun side property => ?_
    rw [List.append_assoc, List.singleton_append]
    exact single side property

end Slot

end Realization
