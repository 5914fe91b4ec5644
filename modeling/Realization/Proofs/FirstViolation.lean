import Realization.Proofs.VerdictMemory
import Realization.Proofs.Violations

/-!
Which violation a rejected declaration is told of. The phases of validation come one after the other, and the first
violation found is reported, whatever follows it.
-/
namespace Realization

namespace Slot

variable {property type : String} {slots slots' : List Slot} {seen ms : List Member} {m : Member} {s : Slot}
  {v : Violation}

theorem Collects.memberStops (collects : Collects slots seen) : Slot.ofMember type slots m = .error v ↔
    ∃ reason, m.Unfit seen reason ∧ v = .invalidMember type m.name reason := by
  constructor
  · intro refused
    cases role : m.role with
    | error misfit =>
      rw [Slot.ofMember, role] at refused
      cases refused
      exact ⟨_, .misfit (Member.roleMisfit.mp role), rfl⟩
    | ok r =>
      obtain ⟨side, property, kind, rfl⟩ := Side.roleCases r
      obtain ⟨named, signed⟩ := Member.roleExact.mp role
      rw [ofMemberRole role] at refused
      split at refused
      · rename_i occupied
        cases refused
        exact ⟨_, .twice (Side.servesExact.mpr ⟨named, kind, signed⟩) (collects.occupied.mp occupied), rfl⟩
      · contradiction
  · rintro ⟨reason, unfit, rfl⟩
    obtain ⟨misfit, misfits, rfl⟩ | ⟨side, property, serves, earlier, rfl⟩ := Member.unfitCases unfit
    · rw [Slot.ofMember, Member.roleMisfit.mpr misfits]
    · obtain ⟨kind, role⟩ := Member.roleServing serves
      rw [ofMemberRole role, if_pos (collects.occupied.mpr earlier)]

theorem Collects.memberFits (collects : Collects slots seen) (taken : Slot.ofMember type slots m = .ok slots')
    (reason : String) : ¬ m.Unfit seen reason := by
  intro unfit
  have refused : Slot.ofMember type slots m = .error (.invalidMember type m.name reason) :=
    collects.memberStops.mpr ⟨reason, unfit, rfl⟩
  rw [taken] at refused
  contradiction

theorem Collects.membersStop (collects : Collects slots seen) (bare : ∀ m ∈ ms, m.hasBody = false) :
    Slot.ofMembers type slots ms = .error v ↔
      ∃ m reason, Member.Faulty seen ms m reason ∧ v = .invalidMember type m.name reason := by
  induction ms generalizing slots seen with
  | nil => simp [Slot.ofMembers, Member.Faulty]
  | cons first rest ih =>
    obtain ⟨here, tail⟩ := List.forall_mem_cons.mp bare
    simp only [Member.faultyCons]
    unfold Slot.ofMembers
    cases answer : Slot.ofMember type slots first with
    | error v' =>
      obtain ⟨reason, unfit, rfl⟩ := collects.memberStops.mp answer
      constructor
      · intro stopped
        cases stopped
        exact ⟨first, reason, .inl ⟨rfl, unfit⟩, rfl⟩
      · rintro ⟨m, reason', ⟨rfl, unfit'⟩ | ⟨fits, _⟩, rfl⟩
        · exact answer.symm.trans (collects.memberStops.mpr ⟨reason', unfit', rfl⟩)
        · exact (fits reason unfit).elim
    | ok slots' =>
      have fits := collects.memberFits answer
      dsimp only
      rw [ih (collects.ofMember here answer) tail]
      constructor
      · rintro ⟨m, reason, faulty, rfl⟩
        exact ⟨m, reason, .inr ⟨fits, faulty⟩, rfl⟩
      · rintro ⟨m, reason, ⟨rfl, unfit⟩ | ⟨_, faulty⟩, rfl⟩
        · exact (fits reason unfit).elim
        · exact ⟨m, reason, faulty, rfl⟩

theorem Collects.membersPass (collects : Collects slots seen) (bare : ∀ m ∈ ms, m.hasBody = false) :
    (∃ slots', Slot.ofMembers type slots ms = .ok slots') ↔ Member.Fitting seen ms := by
  constructor
  · rintro ⟨slots', passed⟩
    induction ms generalizing slots seen with
    | nil => exact Member.fittingNil
    | cons m rest ih =>
      obtain ⟨here, tail⟩ := List.forall_mem_cons.mp bare
      unfold Slot.ofMembers at passed
      split at passed
      · contradiction
      · rename_i answer
        exact Member.fittingCons.mpr ⟨collects.memberFits answer, ih (collects.ofMember here answer) tail passed⟩
  · intro fitting
    cases answer : Slot.ofMembers type slots ms with
    | ok slots' => exact ⟨slots', rfl⟩
    | error v =>
      obtain ⟨m, reason, ⟨before, after, whole, _, unfit⟩, _⟩ := (collects.membersStop bare).mp answer
      exact (fitting before m after whole reason unfit).elim

def Half (s : Slot) : Prop := ∃ side : Side, side.entry s = none

end Slot

namespace Pair

variable {type : String} {slots : List Slot} {pairs : List Pair} {v : Violation}

def Untextual (p : Pair) : Prop := p.accessor.2 ≠ p.mutator.2 ∨ p.accessor.2 ≠ .text

theorem ofSlotsStops (held : ∀ s ∈ slots, s.members ≠ []) : ofSlots type slots = .error v ↔
    ∃ s, First Slot.Half slots s ∧ ∃ m ∈ s.members, v = .unpairedProperty type s.property m.name := by
  induction slots with
  | nil => simp [ofSlots, First]
  | cons s rest ih =>
    obtain ⟨here, tail⟩ := List.forall_mem_cons.mp held
    simp only [firstCons, or_and_right, exists_or]
    obtain ⟨property, accessor, mutator⟩ := s
    unfold ofSlots
    cases accessor <;> cases mutator
    case none.none => simp [Slot.members] at here
    case none.some => simp [Slot.Half, Side.someSide, Side.entry, Slot.members, Member.writer, eq_comm]
    case some.none => simp [Slot.Half, Side.someSide, Side.entry, Slot.members, Member.reader, eq_comm]
    case some.some => simp [Slot.Half, Side.someSide, Side.entry, mapFails, ih tail]

theorem propertiesStop : properties type pairs = .error v ↔ ∃ p, First Untextual pairs p ∧
    v = .unsupportedProperty type p.property p.accessor.2 p.mutator.2 := by
  induction pairs with
  | nil => simp [properties, First]
  | cons p rest ih =>
    simp only [firstCons, or_and_right, exists_or]
    unfold properties
    by_cases supported : p.accessor.2 = p.mutator.2 ∧ p.accessor.2.supported = true
    · have fine : ¬ p.Untextual := by
        obtain ⟨same, text⟩ := supported
        simpa [Untextual, same, Kind.supported] using text
      rw [if_pos supported, mapFails, ih]
      simp [fine]
    · have wrong : p.Untextual := by
        by_cases same : p.accessor.2 = p.mutator.2
        · exact .inr fun text => supported ⟨same, by simp [Kind.supported, text]⟩
        · exact .inl same
      rw [if_neg supported]
      simp [wrong, eq_comm]

end Pair

section

variable {d : Declaration} {slots : List Slot} {pairs : List Pair} {s : Slot} {v : Violation}

theorem Slot.Collects.properties (collects : Slot.Collects slots d.members) :
    d.properties = slots.map (·.property) := collects.order.symm

theorem Slot.Collects.lone (collects : Slot.Collects slots d.members) (inside : s ∈ slots) {m : Member} :
    d.Lone s.property m ↔ s.Half ∧ m ∈ s.members := by
  rw [Declaration.loneExact]
  constructor
  · rintro ⟨member, side, serves, alone⟩
    refine ⟨⟨side.other, Option.eq_none_iff_forall_ne_some.mpr fun ⟨name, kind⟩ entry => ?_⟩,
      collects.home inside member serves⟩
    obtain ⟨o, listed, complements, _⟩ := (collects.entry inside).mp entry
    exact alone o listed complements
  · rintro ⟨⟨side, free⟩, held⟩
    have member := collects.member inside held
    have nobody : ∀ o ∈ d.members, ¬ side.Serves o s.property := fun o listed serves => by
      obtain ⟨name, kind, entry, _⟩ := (collects.fits s inside).entry (collects.home inside listed serves) serves
      rw [free] at entry
      contradiction
    obtain ⟨side', serves⟩ := (collects.fits s inside).concerns held
    obtain rfl := Side.isOther fun same : side' = side => nobody m member (same ▸ serves)
    refine ⟨member, side.other, serves, ?_⟩
    rw [Side.otherOther]
    exact nobody

theorem Slot.Collects.half (collects : Slot.Collects slots d.members) (inside : s ∈ slots) :
    (∃ m, d.Lone s.property m) ↔ s.Half := by
  constructor
  · rintro ⟨m, lone⟩
    exact ((collects.lone inside).mp lone).1
  · intro half
    obtain ⟨m, held⟩ := List.exists_mem_of_ne_nil _ (collects.fits s inside).held
    exact ⟨m, (collects.lone inside).mpr ⟨half, held⟩⟩

theorem Slot.Collects.pairingStops (collects : Slot.Collects slots d.members) :
    Pair.ofSlots d.name slots = .error v ↔ d.PairingViolation v := by
  have halves : ∀ {s}, First (fun s : Slot => ∃ m, d.Lone s.property m) slots s ↔ First Slot.Half slots s :=
    firstCongr fun s inside => collects.half inside
  rw [Pair.ofSlotsStops fun s inside => (collects.fits s inside).held]
  constructor
  · rintro ⟨s, first, m, held, rfl⟩
    refine .lone ?_ ((collects.lone first.member).mpr ⟨first.1, held⟩)
    rw [collects.properties, firstMap]
    exact ⟨s, halves.mpr first, rfl⟩
  · rintro ⟨first, lone⟩
    rw [collects.properties, firstMap] at first
    obtain ⟨s, first, rfl⟩ := first
    exact ⟨s, halves.mp first, _, ((collects.lone first.member).mp lone).2, rfl⟩

theorem Slot.Collects.unsupported (collects : Slot.Collects (pairs.map Pair.slot) d.members) {p : Pair}
    (inside : p ∈ pairs) {read written : Kind} : d.Unsupported p.property read written ↔
      p.accessor.2 = read ∧ p.mutator.2 = written ∧ p.Untextual := by
  have place : p.slot ∈ pairs.map Pair.slot := List.mem_map_of_mem inside
  constructor
  · rintro ⟨⟨r, listed, reads, returns⟩, ⟨w, listed', writes, params⟩, wrong⟩
    have accessor : Side.reading.entry p.slot = some (r.name, read) :=
      (collects.entry place).mpr ⟨r, listed, reads, rfl, reads.2.1, returns⟩
    have mutator : Side.writing.entry p.slot = some (w.name, written) :=
      (collects.entry place).mpr ⟨w, listed', writes, rfl, params, writes.2.2⟩
    have own : p.accessor = (r.name, read) := Option.some.inj accessor
    have own' : p.mutator = (w.name, written) := Option.some.inj mutator
    unfold Pair.Untextual
    rw [own, own']
    exact ⟨rfl, rfl, wrong⟩
  · rintro ⟨rfl, rfl, wrong⟩
    have accessor : Side.reading.entry p.slot = some p.accessor := rfl
    have mutator : Side.writing.entry p.slot = some p.mutator := rfl
    obtain ⟨r, listed, reads, _, _, returns⟩ := (collects.entry place).mp accessor
    obtain ⟨w, listed', writes, _, params, _⟩ := (collects.entry place).mp mutator
    exact ⟨⟨r, listed, reads, returns⟩, ⟨w, listed', writes, params⟩, wrong⟩

theorem Slot.Collects.kindStops (collects : Slot.Collects (pairs.map Pair.slot) d.members) :
    Pair.properties d.name pairs = .error v ↔ d.KindViolation v := by
  have named : d.properties = pairs.map (·.property) := by
    rw [collects.properties, List.map_map]
    rfl
  have wrong : ∀ {p}, First (fun p : Pair => ∃ read written, d.Unsupported p.property read written) pairs p ↔
      First Pair.Untextual pairs p := firstCongr fun p inside => by simp [collects.unsupported inside]
  rw [Pair.propertiesStop]
  constructor
  · rintro ⟨p, first, rfl⟩
    refine .unsupported ?_ ((collects.unsupported first.member).mpr ⟨rfl, rfl, first.1⟩)
    rw [named, firstMap]
    exact ⟨p, wrong.mpr first, rfl⟩
  · rintro ⟨first, unsupported⟩
    rw [named, firstMap] at first
    obtain ⟨p, first, rfl⟩ := first
    obtain ⟨rfl, rfl, _⟩ := (collects.unsupported first.member).mp unsupported
    exact ⟨p, wrong.mp first, rfl⟩

theorem Slot.Collects.pairingPasses (collects : Slot.Collects slots d.members) :
    (∃ pairs, Pair.ofSlots d.name slots = .ok pairs) ↔ ∀ property ∈ d.properties, ∀ m, ¬ d.Lone property m := by
  constructor
  · rintro ⟨pairs, paired⟩ property member m lone
    have found : ∃ property, First (fun p => ∃ m, d.Lone p m) d.properties property :=
      firstExists member ⟨m, lone⟩
    obtain ⟨property', first⟩ := found
    obtain ⟨m', lone'⟩ := first.1
    have stopped := collects.pairingStops.mpr (.lone first lone')
    rw [paired] at stopped
    contradiction
  · intro paired
    cases answer : Pair.ofSlots d.name slots with
    | ok pairs => exact ⟨pairs, rfl⟩
    | error v =>
      obtain ⟨first, lone⟩ := collects.pairingStops.mp answer
      exact (paired _ first.member _ lone).elim

theorem membersStopExact (bare : d.Bare) :
    Slot.ofMembers d.name [] d.members = .error v ↔ d.MemberViolation v := by
  rw [Slot.collectsNil.membersStop bare.2.2.1]
  constructor
  · rintro ⟨m, reason, ⟨before, after, whole, fitting, unfit⟩, rfl⟩
    exact .member whole fitting unfit
  · rintro ⟨whole, fitting, unfit⟩
    exact ⟨_, _, ⟨_, _, whole, fitting, unfit⟩, rfl⟩

theorem ofDeclarationStops : Contract.ofDeclaration d = .error v ↔ d.FirstViolation v := by
  have collects : d.Bare → ∀ slots, Slot.ofMembers d.name [] d.members = .ok slots →
      Slot.Collects slots d.members := fun bare _ filled => Slot.collectsNil.ofMembers bare.2.2.1 filled
  simp only [Contract.ofDeclaration, bindFails]
  constructor
  · rintro (stopped | ⟨_, shaped, stopped | ⟨slots, filled, stopped | ⟨pairs, paired, stopped | ⟨_, _, never⟩⟩⟩⟩)
    · exact .shape (Declaration.shapeStops.mp stopped)
    all_goals have bare : d.Bare := checkShapeExact.mp shaped
    · exact .member bare ((membersStopExact bare).mp stopped)
    all_goals
      have fitting := (Slot.collectsNil.membersPass bare.2.2.1).mp ⟨slots, filled⟩
      have collects := collects bare slots filled
    · exact .pairing bare fitting (collects.pairingStops.mp stopped)
    · have unpaired := collects.pairingPasses.mp ⟨pairs, paired⟩
      obtain rfl := (ofSlotsExact fun s inside => (collects.fits s inside).held).mp paired
      exact .kind bare fitting unpaired (collects.kindStops.mp stopped)
    · contradiction
  · rintro (violates | ⟨bare, violates⟩ | ⟨bare, fitting, violates⟩ | ⟨bare, fitting, unpaired, violates⟩)
    · exact .inl (Declaration.shapeStops.mpr violates)
    all_goals refine .inr ⟨(), checkShapeExact.mpr bare, ?_⟩
    · exact .inl ((membersStopExact bare).mpr violates)
    all_goals
      obtain ⟨slots, filled⟩ := (Slot.collectsNil.membersPass bare.2.2.1).mpr fitting
      have collects := collects bare slots filled
      refine .inr ⟨slots, filled, ?_⟩
    · exact .inl (collects.pairingStops.mpr violates)
    · obtain ⟨pairs, paired⟩ := collects.pairingPasses.mpr unpaired
      refine .inr ⟨pairs, paired, ?_⟩
      obtain rfl := (ofSlotsExact fun s inside => (collects.fits s inside).held).mp paired
      exact .inl (collects.kindStops.mpr violates)

end

theorem validationReports (d : Declaration) :
    (∀ v, (({} : Verdicts).validate d).1 = .error v ↔ d.FirstViolation v) ∧
    (∀ memory : Verdicts, memory.Genuine → ∀ v, (memory.validate d).1 = .error v →
      d.FirstViolation v ∨ ∃ a : Declaration, a ≠ d ∧ a.fingerprint = d.fingerprint ∧ a.FirstViolation v) ∧
    ∀ v, d.FirstViolation v → v.type = d.name := by
  refine ⟨fun v => ofDeclarationStops, fun memory genuine v answer => ?_, fun v first => first.type⟩
  obtain ⟨a, same, judged⟩ := Verdicts.validateGenuine genuine d _ _ (memory.validateFound d)
  have first : a.FirstViolation v := ofDeclarationStops.mp (judged.trans answer)
  by_cases own : a = d
  · exact .inl (own ▸ first)
  · exact .inr ⟨a, own, same, first⟩

def hastyNote : Declaration :=
  ((Declaration.interface "Note").accessor "getCount" .integer).member { name := "touch" }

theorem validationReportsNote : hastyNote.FirstViolation
    (.invalidMember "Note" "touch" "not an accessor (getX) or mutator (setX)") :=
  ((validationReports hastyNote).1 _).mp (by decide +kernel)

end Realization
