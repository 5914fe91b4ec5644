import Realization.Proofs.Slots

/-!
The phases of validation, one after the other. A declaration becomes a contract where its shape is right and its
members fill the slots of text properties, and the contract is then what the slots say.
-/
namespace Realization

def Pair.slot (p : Pair) : Slot := ⟨p.property, some p.accessor, some p.mutator⟩

def Property.pair (p : Property) : Pair := ⟨p.name, (p.accessor, p.kind), (p.mutator, p.kind)⟩

def Property.slot (p : Property) : Slot := p.pair.slot

theorem mapAnswers {α β ε : Type} {f : α → β} {attempt : Except ε α} {b : β} :
    attempt.map f = .ok b ↔ ∃ a, attempt = .ok a ∧ f a = b := by
  cases attempt <;> simp [Except.map]

theorem bindAnswers {α β ε : Type} {attempt : Except ε α} {next : α → Except ε β} {b : β} :
    (attempt >>= next) = .ok b ↔ ∃ a, attempt = .ok a ∧ next a = .ok b := by
  cases attempt <;> simp [bind, Except.bind]

theorem mapFails {α β ε : Type} {f : α → β} {attempt : Except ε α} {e : ε} :
    attempt.map f = .error e ↔ attempt = .error e := by
  cases attempt <;> simp [Except.map]

theorem bindFails {α β ε : Type} {attempt : Except ε α} {next : α → Except ε β} {e : ε} :
    (attempt >>= next) = .error e ↔ attempt = .error e ∨ ∃ a, attempt = .ok a ∧ next a = .error e := by
  cases attempt <;> simp [bind, Except.bind]

theorem ofSlotsExact {type : String} {slots : List Slot} {pairs : List Pair}
    (held : ∀ s ∈ slots, s.members ≠ []) :
    Pair.ofSlots type slots = .ok pairs ↔ slots = pairs.map Pair.slot := by
  induction slots generalizing pairs with
  | nil => cases pairs <;> simp [Pair.ofSlots]
  | cons s rest ih =>
    have tail := fun s member => held s (List.mem_cons_of_mem _ member)
    have here := held s List.mem_cons_self
    obtain ⟨property, accessor, mutator⟩ := s
    unfold Pair.ofSlots
    cases accessor <;> cases mutator
    case none.none => simp [Slot.members] at here
    case none.some | some.none => cases pairs <;> simp [Pair.slot]
    case some.some accessor mutator =>
      simp only [mapAnswers, ih tail]
      constructor
      · rintro ⟨later, rfl, rfl⟩
        rfl
      · intro whole
        cases pairs with
        | nil => contradiction
        | cons p later =>
          cases whole
          exact ⟨later, rfl, rfl⟩

theorem propertiesExact {type : String} {pairs : List Pair} {ps : List Property} :
    Pair.properties type pairs = .ok ps ↔ pairs = ps.map Property.pair ∧ ∀ p ∈ ps, p.kind = .text := by
  induction pairs generalizing ps with
  | nil => cases ps <;> simp [Pair.properties]
  | cons pair rest ih =>
    obtain ⟨property, ⟨accessor, kind⟩, mutator, kind'⟩ := pair
    unfold Pair.properties
    by_cases supported : kind = kind' ∧ kind.supported = true
    · rw [if_pos supported]
      obtain ⟨rfl, supported⟩ := supported
      simp only [mapAnswers, ih]
      constructor
      · rintro ⟨later, ⟨rfl, textual⟩, rfl⟩
        exact ⟨rfl, List.forall_mem_cons.mpr ⟨by simpa [Kind.supported] using supported, textual⟩⟩
      · rintro ⟨whole, textual⟩
        cases ps with
        | nil => contradiction
        | cons p later =>
          cases whole
          exact ⟨later, ⟨rfl, (List.forall_mem_cons.mp textual).2⟩, rfl⟩
    · rw [if_neg supported]
      constructor
      · intro made
        contradiction
      · rintro ⟨whole, textual⟩
        cases ps with
        | nil => contradiction
        | cons p later =>
          cases whole
          have text : p.kind = .text := textual p List.mem_cons_self
          exact absurd ⟨rfl, by simp [Kind.supported, text]⟩ supported

theorem checkShapeExact {d : Declaration} :
    d.checkShape = .ok () ↔
      d.shape = .interface ∧ d.fields = [] ∧ (∀ m ∈ d.members, m.hasBody = false) ∧ d.parents = [] := by
  unfold Declaration.checkShape
  cases shape : d.shape with
  | concrete => simp
  | interface =>
    cases d.fields with
    | cons field rest => simp
    | nil =>
      cases found : d.members.find? (·.hasBody) with
      | some m =>
        have body : m.hasBody = true := by simpa using List.find?_some found
        have bodied : ¬ ∀ m ∈ d.members, m.hasBody = false := fun bare => by
          simp [bare m (List.mem_of_find?_eq_some found)] at body
        simp [bodied]
      | none =>
        have bare : ∀ m ∈ d.members, m.hasBody = false := by simpa using found
        cases d.parents with
        | nil => simpa using bare
        | cons parent rest => simp

theorem ofDeclarationExact {d : Declaration} {c : Contract} :
    Contract.ofDeclaration d = .ok c ↔
      d.checkShape = .ok () ∧ c.name = d.name ∧ c.fingerprint = d.fingerprint ∧
        Slot.ofMembers d.name [] d.members = .ok (c.properties.map Property.slot) ∧
        ∀ p ∈ c.properties, p.kind = .text := by
  have held : d.checkShape = .ok () → ∀ slots, Slot.ofMembers d.name [] d.members = .ok slots →
      ∀ s ∈ slots, s.members ≠ [] := fun shaped _ filled s inside =>
    ((Slot.collectsNil.ofMembers (checkShapeExact.mp shaped).2.2.1 filled).fits s inside).held
  simp only [Contract.ofDeclaration, bindAnswers]
  constructor
  · rintro ⟨_, shaped, slots, filled, pairs, paired, ps, judged, made⟩
    cases made
    obtain rfl := (ofSlotsExact (held shaped slots filled)).mp paired
    obtain ⟨rfl, textual⟩ := propertiesExact.mp judged
    rw [List.map_map] at filled
    exact ⟨shaped, rfl, rfl, filled, textual⟩
  · rintro ⟨shaped, name, fingerprint, filled, textual⟩
    have paired : Pair.ofSlots d.name (c.properties.map Property.slot) =
        .ok (c.properties.map Property.pair) := by
      rw [ofSlotsExact (held shaped _ filled), List.map_map]
      rfl
    refine ⟨(), shaped, _, filled, _, paired, _, propertiesExact.mpr ⟨rfl, textual⟩, ?_⟩
    rw [← name, ← fingerprint]

end Realization
