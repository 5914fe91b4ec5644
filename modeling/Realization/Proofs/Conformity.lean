import Realization.Contract.Verdicts
import Realization.Proofs.Phases

/-!
What makes a declaration a contract, said of the declaration alone and without any phases: it is a bare
interface, each of its members reads or writes a property, and each property is text, read by one
member and written by one. Validation accepts exactly these declarations, and the contract lists their
members and nothing else.
-/
namespace Realization

structure Declaration.Conforms (d : Declaration) : Prop where
  interface : d.shape = .interface
  fieldless : d.fields = []
  bodiless : ∀ m ∈ d.members, m.hasBody = false
  parentless : d.parents = []
  fitting : ∀ m ∈ d.members, ∃ property, m.Reads property ∨ m.Writes property
  paired : ∀ property, (∃ m ∈ d.members, m.Reads property ∨ m.Writes property) →
    (d.members.filter (·.Reads property)).length = 1 ∧ (d.members.filter (·.Writes property)).length = 1
  textual : ∀ m ∈ d.members, ∀ kind, kind ∈ m.params ∨ kind ∈ m.returns → kind = .text

def Property.members (p : Property) : List Member := [.reader p.accessor p.kind, .writer p.mutator p.kind]

structure Contract.Renders (c : Contract) (d : Declaration) : Prop where
  name : c.name = d.name
  fingerprint : c.fingerprint = d.fingerprint
  order : c.properties.map (·.name) = (d.members.filterMap Member.property?).eraseDups
  textual : ∀ p ∈ c.properties, p.kind = .text
  named : ∀ p ∈ c.properties, Named accessorLead p.name p.accessor ∧ Named mutatorLead p.name p.mutator
  members : (c.properties.flatMap Property.members).Perm d.members
  once : (d.members.map (·.name)).Nodup

namespace Side

variable {side side' : Side} {m : Member} {p : Property} {name property : String} {kind kind' : Kind}

def title : Side → Property → String
  | .reading => Property.accessor
  | .writing => Property.mutator

@[simp] theorem slotEntry : side.entry p.slot = some (side.title p, p.kind) := by cases side <;> rfl

theorem Signed.mentions (signed : side.Signed m kind) : kind ∈ m.params ∨ kind ∈ m.returns := by
  cases side with
  | reading => exact .inr signed.2
  | writing => exact .inl (by simp [signed.1])

theorem memberMentions (mentions : kind' ∈ (side.member name kind).params ∨ kind' ∈ (side.member name kind).returns) :
    kind' = kind := by
  cases side with
  | reading => simpa [member, Member.reader, eq_comm] using mentions
  | writing => simpa [member, Member.writer] using mentions

end Side

section

variable {ps : List Property} {ms : List Member} {side side' : Side} {p q : Property} {property : String}

theorem memberOf {m : Member} : m ∈ ps.flatMap Property.members ↔
    ∃ p ∈ ps, ∃ side : Side, m = side.member (side.title p) p.kind := by
  simp [Property.members, Side.someSide, Side.member, Side.title]

def Titled (ps : List Property) : Prop := ∀ p ∈ ps, ∀ side : Side, Named side.lead p.name (side.title p)

theorem Titled.served (titled : Titled ps) (inside : p ∈ ps) :
    side.Serves (side'.member (side'.title p) p.kind) property ↔ side' = side ∧ p.name = property := by
  constructor
  · intro serves
    have own : side'.Serves (side'.member (side'.title p) p.kind) p.name :=
      Side.memberServes.mpr (titled p inside side')
    exact ⟨own.sameSide serves, own.sameProperty serves⟩
  · rintro ⟨rfl, rfl⟩
    exact Side.memberServes.mpr (titled p inside side')

theorem Titled.serves (titled : Titled ps) (side : Side) (property : String) :
    (ps.flatMap Property.members).countP (side.Serves · property) = (ps.map (·.name)).count property := by
  induction ps with
  | nil => rfl
  | cons p rest ih =>
    have later : Titled rest := fun p inside => titled p (List.mem_cons_of_mem _ inside)
    have own : p.members.countP (side.Serves · property) = if p.name = property then 1 else 0 := by
      have served : ∀ side' : Side, side.Serves (side'.member (side'.title p) p.kind) property ↔
          side' = side ∧ p.name = property := fun _ => titled.served List.mem_cons_self
      have sides : p.members = [Side.reading, Side.writing].map fun side => side.member (side.title p) p.kind := rfl
      cases side <;> simp [sides, List.countP_cons, served]
    rw [List.flatMap_cons, List.countP_append, ih later, own, List.map_cons, List.count_cons, Nat.add_comm]
    simp

theorem Titled.apart (titled : Titled ps) (inside : p ∈ ps) (inside' : q ∈ ps)
    (same : side.title p = side'.title q) : side = side' ∧ p.name = q.name := by
  have named := titled p inside side
  rw [same] at named
  obtain rfl := Side.namedSame named (titled q inside' side')
  exact ⟨rfl, named.unique (titled q inside' side)⟩

theorem Titled.once (titled : Titled ps) (distinct : (ps.map (·.name)).Nodup) :
    ((ps.flatMap Property.members).map (·.name)).Nodup := by
  rw [List.map_flatMap, List.nodup_flatMap]
  constructor
  · intro p inside
    have apart : p.accessor ≠ p.mutator := fun same => by
      have same : Side.title .reading p = Side.title .writing p := same
      have sides := (titled.apart inside inside same).1
      contradiction
    simpa [Property.members, Member.reader, Member.writer] using apart
  · refine (List.pairwise_map.mp distinct).imp_of_mem fun {p q} inside inside' other => ?_
    have apart : ∀ side side' : Side, side.title p ≠ side'.title q := fun _ _ same =>
      other (titled.apart inside inside' same).2
    have titles : ∀ name p, name ∈ p.members.map (·.name) ↔ ∃ side : Side, name = side.title p := by
      simp [Property.members, Side.someSide, Side.title, Member.reader, Member.writer]
    intro name first second
    obtain ⟨side, rfl⟩ := (titles name p).mp first
    obtain ⟨side', same⟩ := (titles _ q).mp second
    exact apart side side' same

theorem Slot.Collects.titled (collects : Slot.Collects (ps.map Property.slot) ms) : Titled ps :=
  fun p inside side => (collects.fits p.slot (List.mem_map_of_mem inside)).named side _ _ Side.slotEntry

theorem Slot.Collects.names (collects : Slot.Collects (ps.map Property.slot) ms) :
    (ps.map (·.name)).Nodup := by
  have distinct := collects.distinct
  rwa [List.map_map] at distinct

theorem Slot.Collects.listed (collects : Slot.Collects (ps.map Property.slot) ms) :
    (ps.flatMap Property.members).Perm ms := by
  have listed := collects.members
  rwa [List.flatMap_map] at listed

theorem Slot.Collects.conforms {d : Declaration} (shaped : d.checkShape = .ok ())
    (collects : Slot.Collects (ps.map Property.slot) d.members) (textual : ∀ p ∈ ps, p.kind = .text) :
    d.Conforms := by
  obtain ⟨interface, fieldless, bodiless, parentless⟩ := checkShapeExact.mp shaped
  have titled := collects.titled
  have listed := collects.listed
  have origin : ∀ m ∈ d.members, ∃ p ∈ ps, ∃ side : Side, m = side.member (side.title p) p.kind :=
    fun m member => memberOf.mp (listed.symm.subset member)
  refine { interface, fieldless, bodiless, parentless, fitting := ?_, paired := ?_, textual := ?_ }
  · intro m member
    obtain ⟨p, inside, side, rfl⟩ := origin m member
    exact ⟨p.name, Side.someServes.mp ⟨side, (titled.served inside).mpr ⟨rfl, rfl⟩⟩⟩
  · rintro property ⟨m, member, concerns⟩
    have known : property ∈ ps.map (·.name) := by
      obtain ⟨p, inside, side, rfl⟩ := origin m member
      obtain ⟨side', serves⟩ := Side.someServes.mpr concerns
      exact List.mem_map.mpr ⟨p, inside, ((titled.served inside).mp serves).2⟩
    have single : ∀ side : Side, (d.members.filter (side.Serves · property)).length = 1 := fun side => by
      rw [← List.countP_eq_length_filter, ← listed.countP_eq, titled.serves,
        List.count_eq_one_of_mem collects.names known]
    exact Side.eachSide.mp single
  · intro m member kind mentions
    obtain ⟨p, inside, side, rfl⟩ := origin m member
    exact (Side.memberMentions mentions).trans (textual p inside)

theorem Slot.Collects.renders {d : Declaration} {c : Contract} (name : c.name = d.name)
    (fingerprint : c.fingerprint = d.fingerprint) (textual : ∀ p ∈ c.properties, p.kind = .text)
    (collects : Slot.Collects (c.properties.map Property.slot) d.members) : c.Renders d where
  name := name
  fingerprint := fingerprint
  order := by
    have order := collects.order
    rwa [List.map_map] at order
  textual := textual
  named p inside := Side.eachSide.mp (collects.titled p inside)
  members := collects.listed
  once := (collects.listed.map _).nodup_iff.mp (collects.titled.once collects.names)

end

namespace Declaration.Conforms

variable {d : Declaration} {m : Member} {side : Side} {property : String}

theorem shaped (conforms : d.Conforms) : d.checkShape = .ok () :=
  checkShapeExact.mpr ⟨conforms.interface, conforms.fieldless, conforms.bodiless, conforms.parentless⟩

theorem serving (conforms : d.Conforms) (member : m ∈ d.members) :
    ∃ (side : Side) (property : String), side.Serves m property := by
  obtain ⟨property, concerns⟩ := conforms.fitting m member
  obtain ⟨side, serves⟩ := Side.someServes.mpr concerns
  exact ⟨side, property, serves⟩

theorem sides (conforms : d.Conforms) (member : m ∈ d.members) (serves : side.Serves m property) (side' : Side) :
    (d.members.filter (side'.Serves · property)).length = 1 :=
  have each := conforms.paired property ⟨m, member, Side.someServes.mp ⟨side, serves⟩⟩
  match side' with
  | .reading => each.1
  | .writing => each.2

theorem single (conforms : d.Conforms) (side : Side) (property : String) :
    (d.members.filter (side.Serves · property)).length ≤ 1 := by
  by_cases served : ∃ m ∈ d.members, side.Serves m property
  · obtain ⟨m, member, serves⟩ := served
    exact Nat.le_of_eq (conforms.sides member serves side)
  · have none : d.members.filter (side.Serves · property) = [] :=
      List.filter_eq_nil_iff.mpr fun m member => by simpa using fun serves => served ⟨m, member, serves⟩
    simp [none]

theorem filled {slots : List Slot} {s : Slot} (conforms : d.Conforms) (collects : Slot.Collects slots d.members)
    (inside : s ∈ slots) : ∃ p : Property, p.kind = .text ∧ p.slot = s := by
  have fits := collects.fits s inside
  obtain ⟨m, held⟩ := List.exists_mem_of_ne_nil _ fits.held
  obtain ⟨side, serves⟩ := fits.concerns held
  have entries : ∀ side' : Side, ∃ name, side'.entry s = some (name, .text) := by
    intro side'
    have one := conforms.sides (collects.member inside held) serves side'
    obtain ⟨o, found⟩ := List.exists_mem_of_length_pos (one ▸ Nat.one_pos)
    obtain ⟨listed, serves'⟩ := List.mem_filter.mp found
    have serves' := of_decide_eq_true serves'
    obtain ⟨_, kind, signed⟩ := Side.servesExact.mp serves'
    obtain rfl := conforms.textual o listed kind signed.mentions
    exact ⟨o.name, (collects.entry inside).mpr ⟨o, listed, serves', rfl, signed⟩⟩
  obtain ⟨accessor, read⟩ := entries .reading
  obtain ⟨mutator, written⟩ := entries .writing
  refine ⟨⟨s.property, .text, accessor, mutator⟩, rfl, ?_⟩
  cases s
  cases read
  cases written
  rfl

end Declaration.Conforms

theorem slotsOf {slots : List Slot} (each : ∀ s ∈ slots, ∃ p : Property, p.kind = .text ∧ p.slot = s) :
    ∃ ps : List Property, slots = ps.map Property.slot ∧ ∀ p ∈ ps, p.kind = .text := by
  induction slots with
  | nil => exact ⟨[], rfl, by simp⟩
  | cons s rest ih =>
    obtain ⟨⟨p, text, rfl⟩, tail⟩ := List.forall_mem_cons.mp each
    obtain ⟨ps, rfl, texts⟩ := ih tail
    exact ⟨p :: ps, rfl, List.forall_mem_cons.mpr ⟨text, texts⟩⟩

theorem Declaration.Conforms.accepted {d : Declaration} (conforms : d.Conforms) :
    ∃ c, Contract.ofDeclaration d = .ok c := by
  obtain ⟨slots, taken⟩ := Slot.collectsNil.taken d.name conforms.bodiless (fun _ => conforms.serving) conforms.single
  have collects := Slot.collectsNil.ofMembers conforms.bodiless taken
  obtain ⟨ps, rfl, texts⟩ := slotsOf fun s inside => conforms.filled collects inside
  exact ⟨⟨d.name, d.fingerprint, ps⟩, ofDeclarationExact.mpr ⟨conforms.shaped, rfl, rfl, taken, texts⟩⟩

theorem ofDeclarationSound {d : Declaration} {c : Contract} (made : Contract.ofDeclaration d = .ok c) :
    d.Conforms ∧ c.Renders d := by
  obtain ⟨shaped, name, fingerprint, taken, texts⟩ := ofDeclarationExact.mp made
  have collects := Slot.collectsNil.ofMembers (checkShapeExact.mp shaped).2.2.1 taken
  exact ⟨collects.conforms shaped texts, collects.renders name fingerprint texts⟩

theorem validationExact (d : Declaration) :
    ((∃ c, (({} : Verdicts).validate d).1 = .ok c) ↔ d.Conforms) ∧
      ∀ c, (({} : Verdicts).validate d).1 = .ok c → c.Renders d := by
  have examined : (({} : Verdicts).validate d).1 = Contract.ofDeclaration d := rfl
  rw [examined]
  exact ⟨⟨fun ⟨_, made⟩ => (ofDeclarationSound made).1, fun conforms => conforms.accepted⟩,
    fun _ made => (ofDeclarationSound made).2⟩

def headedNote : Declaration :=
  (((Declaration.interface "Note").mutator "setText" .text).property "title" .text).accessor "getText" .text

theorem validationExactNote :
    headedNote.Conforms ∧
      Contract.Renders ⟨"Note", headedNote.fingerprint,
        [⟨"text", .text, "getText", "setText"⟩, ⟨"title", .text, "getTitle", "setTitle"⟩]⟩ headedNote := by
  have accepted : (({} : Verdicts).validate headedNote).1 = .ok ⟨"Note", headedNote.fingerprint,
      [⟨"text", .text, "getText", "setText"⟩, ⟨"title", .text, "getTitle", "setTitle"⟩]⟩ := by
    decide +kernel
  exact ⟨(validationExact headedNote).1.mp ⟨_, accepted⟩, (validationExact headedNote).2 _ accepted⟩

end Realization
