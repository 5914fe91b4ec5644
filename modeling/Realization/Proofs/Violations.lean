import Realization.Proofs.Phases

/-!
The violations that each phase of validation looks for, said of the declaration alone: in the shape, then in the
members one by one, then in the pairing of the members, then in the kinds of the properties.
-/
namespace Realization

namespace Member

inductive Misfits (m : Member) : Misfit → Prop where
  | name (unread : ∀ property, ¬ Named accessorLead property m.name)
      (unwritten : ∀ property, ¬ Named mutatorLead property m.name) : Misfits m .unrecognizedName
  | arguments {property} (named : Named accessorLead property m.name) (params : m.params ≠ []) :
      Misfits m .accessorTakesArguments
  | void {property} (named : Named accessorLead property m.name) (params : m.params = [])
      (returns : m.returns = none) : Misfits m .accessorReturnsVoid
  | value {property} (named : Named mutatorLead property m.name) (returns : m.returns ≠ none) :
      Misfits m .mutatorReturnsValue
  | arity {property} (named : Named mutatorLead property m.name) (returns : m.returns = none)
      (params : m.params.length ≠ 1) : Misfits m .mutatorArity

/- What is wrong with a member that comes after those seen: it is a misfit, or one of them does the same. -/
inductive Unfit (seen : List Member) (m : Member) : String → Prop where
  | misfit {misfit} (misfits : m.Misfits misfit) : Unfit seen m misfit.describe
  | accessor {property} (reads : m.Reads property) (earlier : ∃ r ∈ seen, r.Reads property) :
      Unfit seen m "duplicate accessor for property"
  | mutator {property} (writes : m.Writes property) (earlier : ∃ w ∈ seen, w.Writes property) :
      Unfit seen m "duplicate mutator for property"

def Fitting (seen ms : List Member) : Prop :=
  ∀ before m after, ms = before ++ m :: after → ∀ reason, ¬ m.Unfit (seen ++ before) reason

end Member

namespace Declaration

def Bare (d : Declaration) : Prop :=
  d.shape = .interface ∧ d.fields = [] ∧ (∀ m ∈ d.members, m.hasBody = false) ∧ d.parents = []

def properties (d : Declaration) : List String := (d.members.filterMap Member.property?).eraseDups

def Lone (d : Declaration) (property : String) (m : Member) : Prop :=
  m ∈ d.members ∧ (m.Reads property ∧ (∀ w ∈ d.members, ¬ w.Writes property) ∨
    m.Writes property ∧ ∀ r ∈ d.members, ¬ r.Reads property)

def Unsupported (d : Declaration) (property : String) (read written : Kind) : Prop :=
  (∃ r ∈ d.members, r.Reads property ∧ r.returns = some read) ∧
    (∃ w ∈ d.members, w.Writes property ∧ w.params = [written]) ∧ (read ≠ written ∨ read ≠ .text)

inductive ShapeViolation (d : Declaration) : Violation → Prop where
  | concrete (shape : d.shape = .concrete) :
      ShapeViolation d (.notAnInterface d.name "declared as a class")
  | field {field rest} (interface : d.shape = .interface) (fields : d.fields = field :: rest) :
      ShapeViolation d (.notAnInterface d.name ("declares field '" ++ field ++ "'"))
  | body {m} (interface : d.shape = .interface) (fieldless : d.fields = [])
      (first : First (·.hasBody = true) d.members m) :
      ShapeViolation d (.notAnInterface d.name ("member '" ++ m.name ++ "' has an implementation"))
  | parent {parent rest} (interface : d.shape = .interface) (fieldless : d.fields = [])
      (bodiless : ∀ m ∈ d.members, m.hasBody = false) (parents : d.parents = parent :: rest) :
      ShapeViolation d (.extendsOther d.name parent)

inductive MemberViolation (d : Declaration) : Violation → Prop where
  | member {seen m rest reason} (members : d.members = seen ++ m :: rest) (fitting : Member.Fitting [] seen)
      (unfit : m.Unfit seen reason) : MemberViolation d (.invalidMember d.name m.name reason)

inductive PairingViolation (d : Declaration) : Violation → Prop where
  | lone {property m} (first : First (fun p => ∃ m, d.Lone p m) d.properties property)
      (lone : d.Lone property m) : PairingViolation d (.unpairedProperty d.name property m.name)

inductive KindViolation (d : Declaration) : Violation → Prop where
  | unsupported {property read written}
      (first : First (fun p => ∃ read written, d.Unsupported p read written) d.properties property)
      (unsupported : d.Unsupported property read written) :
      KindViolation d (.unsupportedProperty d.name property read written)

inductive FirstViolation (d : Declaration) (v : Violation) : Prop where
  | shape (violates : d.ShapeViolation v)
  | member (bare : d.Bare) (violates : d.MemberViolation v)
  | pairing (bare : d.Bare) (fitting : Member.Fitting [] d.members) (violates : d.PairingViolation v)
  | kind (bare : d.Bare) (fitting : Member.Fitting [] d.members)
      (paired : ∀ property ∈ d.properties, ∀ m, ¬ d.Lone property m) (violates : d.KindViolation v)

variable {d : Declaration} {v : Violation}

theorem FirstViolation.type (first : d.FirstViolation v) : v.type = d.name := by
  obtain violates | ⟨_, violates⟩ | ⟨_, _, violates⟩ | ⟨_, _, _, violates⟩ := first <;> cases violates <;> rfl

theorem loneExact {property : String} {m : Member} : d.Lone property m ↔
    m ∈ d.members ∧ ∃ side : Side, side.Serves m property ∧ ∀ o ∈ d.members, ¬ side.other.Serves o property := by
  unfold Lone
  rw [Side.someSide]
  rfl

theorem shapeStops : d.checkShape = .error v ↔ d.ShapeViolation v := by
  unfold checkShape
  constructor
  · intro stopped
    split at stopped
    · cases stopped
      exact .concrete (by assumption)
    · have interface : d.shape = .interface := by
        cases shape : d.shape with
        | interface => rfl
        | concrete => contradiction
      split at stopped
      · cases stopped
        exact .field interface (by assumption)
      · rename_i fieldless found
        cases stopped
        obtain ⟨body, earlier, later, whole, others⟩ := List.find?_eq_some_iff_append.mp found
        exact .body interface fieldless ⟨body, earlier, later, whole, by simpa using others⟩
      · rename_i fieldless found parents
        cases stopped
        exact .parent interface fieldless (by simpa using found) parents
      · contradiction
  · intro violates
    cases violates with
    | concrete shape => rw [if_pos shape]
    | field interface fields => simp [interface, fields]
    | body interface fieldless first =>
      obtain ⟨body, earlier, later, whole, others⟩ := first
      have found := List.find?_eq_some_iff_append.mpr ⟨body, earlier, later, whole, by simpa using others⟩
      simp [interface, fieldless, found]
    | parent interface fieldless bodiless parents =>
      have missed : d.members.find? (·.hasBody) = none := by simpa using bodiless
      simp [interface, fieldless, missed, parents]

end Declaration

namespace Member

variable {m : Member} {seen ms : List Member} {misfit : Misfit} {side : Side} {property : String}

theorem judgeMisfit (named : Named side.lead property m.name) :
    side.judge m property = .error misfit ↔ m.Misfits misfit := by
  constructor
  · intro judged
    cases side with
    | reading =>
      change accessorRole m property = .error misfit at judged
      unfold accessorRole at judged
      split at judged <;> cases judged
      · exact .arguments named (by simp_all)
      · exact .void named (by assumption) (by assumption)
    | writing =>
      change mutatorRole m property = .error misfit at judged
      unfold mutatorRole at judged
      split at judged <;> cases judged
      · exact .value named (by simp_all)
      · refine .arity named (by assumption) fun one => ?_
        obtain ⟨kind, single⟩ := List.length_eq_one_iff.mp one
        simp_all
  · intro misfits
    cases misfits with
    | name unread unwritten =>
      cases side with
      | reading => exact (unread property named).elim
      | writing => exact (unwritten property named).elim
    | arguments read params =>
      obtain rfl : side = .reading := Side.namedSame named read
      obtain ⟨kind, rest, params⟩ := List.exists_cons_of_ne_nil params
      simp only [Side.judge, accessorRole, params]
    | void read params returns =>
      obtain rfl : side = .reading := Side.namedSame named read
      simp only [Side.judge, accessorRole, params, returns]
    | value written returns =>
      obtain rfl : side = .writing := Side.namedSame named written
      obtain ⟨kind, returns⟩ := Option.ne_none_iff_exists'.mp returns
      simp only [Side.judge, mutatorRole, returns]
    | arity written returns params =>
      obtain rfl : side = .writing := Side.namedSame named written
      rcases found : m.params with _ | ⟨kind, _ | ⟨kind', rest⟩⟩
      · simp [Side.judge, mutatorRole, returns, found]
      · simp [found] at params
      · simp [Side.judge, mutatorRole, returns, found]

theorem roleMisfit : m.role = .error misfit ↔ m.Misfits misfit := by
  by_cases named : ∃ (side : Side) (property : String), Named side.lead property m.name
  · obtain ⟨side, property, named⟩ := named
    rw [roleNamed named, judgeMisfit named]
  · have nameless : ∀ (side : Side) property, ¬ Named side.lead property m.name :=
      fun side property named' => named ⟨side, property, named'⟩
    rw [roleUnnamed nameless]
    constructor
    · intro judged
      cases judged
      exact .name (nameless .reading) (nameless .writing)
    · intro misfits
      cases misfits with
      | name => rfl
      | arguments read => exact (nameless .reading _ read).elim
      | void read => exact (nameless .reading _ read).elim
      | value written => exact (nameless .writing _ written).elim
      | arity written => exact (nameless .writing _ written).elim

theorem Unfit.twice (serves : side.Serves m property) (earlier : ∃ r ∈ seen, side.Serves r property) :
    m.Unfit seen side.duplicate := by
  cases side with
  | reading => exact .accessor serves earlier
  | writing => exact .mutator serves earlier

theorem unfitCases {reason : String} (unfit : m.Unfit seen reason) :
    (∃ misfit, m.Misfits misfit ∧ reason = misfit.describe) ∨
      ∃ (side : Side) (property : String), side.Serves m property ∧ (∃ r ∈ seen, side.Serves r property) ∧
        reason = side.duplicate := by
  cases unfit with
  | misfit misfits => exact .inl ⟨_, misfits, rfl⟩
  | accessor reads earlier => exact .inr ⟨.reading, _, reads, earlier, rfl⟩
  | mutator writes earlier => exact .inr ⟨.writing, _, writes, earlier, rfl⟩

theorem fittingNil : Fitting seen [] := by
  intro before m after whole
  simp at whole

theorem fittingCons :
    Fitting seen (m :: ms) ↔ (∀ reason, ¬ m.Unfit seen reason) ∧ Fitting (seen ++ [m]) ms := by
  constructor
  · intro fitting
    refine ⟨fun reason unfit => fitting [] m ms rfl reason (by simpa using unfit), ?_⟩
    intro before m' after whole reason unfit
    refine fitting (m :: before) m' after (by rw [whole]; rfl) reason ?_
    simpa using unfit
  · rintro ⟨here, later⟩ before m' after whole reason unfit
    cases before with
    | nil =>
      cases whole
      exact here reason (by simpa using unfit)
    | cons first before =>
      cases whole
      exact later before m' after rfl reason (by simpa using unfit)

def Faulty (seen ms : List Member) (m : Member) (reason : String) : Prop :=
  ∃ before after, ms = before ++ m :: after ∧ Fitting seen before ∧ m.Unfit (seen ++ before) reason

theorem faultyCons {first : Member} {reason : String} : Faulty seen (first :: ms) m reason ↔
    first = m ∧ m.Unfit seen reason ∨
      (∀ reason, ¬ first.Unfit seen reason) ∧ Faulty (seen ++ [first]) ms m reason := by
  unfold Faulty
  rw [splitCons]
  simp only [fittingCons, fittingNil, List.append_nil, List.append_assoc, List.singleton_append, true_and]
  refine or_congr_right ⟨?_, ?_⟩
  · rintro ⟨before, after, whole, ⟨fits, fitting⟩, unfit⟩
    exact ⟨fits, before, after, whole, fitting, unfit⟩
  · rintro ⟨fits, before, after, whole, fitting, unfit⟩
    exact ⟨before, after, whole, ⟨fits, fitting⟩, unfit⟩

end Member

end Realization
