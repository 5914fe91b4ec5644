import Mathlib.Data.List.Forall2
import Realization.Proofs.Elements

/-!
A plan in the making beside a realization under way. The plan is made on a graph that stands still while realizing
changes the graph at every turn; what relates the two is which types are under way and which are done, and the
bodies started so far are the steps planned so far.
-/
namespace Realization

namespace Fault

def named : Fault → Fault
  | .invalidContract subject violation => .invalidContract (.plain subject.name) violation
  | .noCreator subject requiredBy rule =>
    .noCreator (.plain subject.name) (requiredBy.map fun t => .plain t.name) rule
  | .cyclic chain rule => .cyclic (chain.map fun t => .plain t.name) rule
  | .ruleFailed subject rule failure => .ruleFailed (.plain subject.name) rule failure
  | .previouslyFailed subject => .previouslyFailed (.plain subject.name)
  | .typeMismatch subject wanted found => .typeMismatch (.plain subject.name) wanted found
  | .depthExceeded subject limit => .depthExceeded (.plain subject.name) limit
  | .refused refusal => .refused refusal
  | .internal reason => .internal reason

end Fault

def Event.start? : Event → Option (RuleId × Locator)
  | .started id locator => some (id, locator)
  | .noted _ => none

def Step.Carried (r : Registry) (step : Step) (start : RuleId × Locator) : Prop :=
  ∃ rule, r.rule? start.1 = some rule ∧ rule.locator = start.2 ∧ step.rule = some start.2 ∧
    rule.subject.same step.subject = true ∧ step.kind = rule.body.stepKind

namespace Graph

def Runs (r : Registry) (steps : List Step) (events : List Event) : Prop :=
  List.Forall₂ (Step.Carried r) (steps.filter (·.rule.isSome)) (events.filterMap Event.start?)

theorem Runs.synthesis {r : Registry} {steps : List Step} {events : List Event}
    (runs : Runs r steps events) (subject : TypeRef) :
    Runs r (steps ++ [⟨.synthesize, subject, none⟩]) events := by
  simpa [Runs] using runs

theorem Runs.start {r : Registry} {steps : List Step} {events : List Event}
    (runs : Runs r steps events) {id : RuleId} {rule : Rule} {subject : TypeRef}
    (known : r.rule? id = some rule) (applies : rule.subject.same subject = true)
    (notes : List String) :
    Runs r (steps ++ [⟨rule.body.stepKind, subject, some rule.locator⟩])
      (events ++ .started id rule.locator :: notes.map .noted) := by
  have silent : (notes.map Event.noted).filterMap Event.start? = [] := by
    induction notes with
    | nil => rfl
    | cons note rest ih => exact ih
  have carried : Step.Carried r ⟨rule.body.stepKind, subject, some rule.locator⟩ (id, rule.locator) :=
    ⟨rule, known, rfl, rfl, applies, rfl⟩
  unfold Runs at runs ⊢
  rw [List.filter_append, List.filterMap_append, List.filterMap_cons_some (by rfl), silent]
  exact List.rel_append runs (.cons carried .nil)

/- How a draft made on `g₀` stands to the graph at the same point of realizing: `base` is the journal
before, and the types on the stack are under way. -/
structure Shadows (g₀ : Graph) (base : List Event) (stack : List TypeRef) (g : Graph) (d : Draft) :
    Prop where
  rules : g.registry.rules = g₀.registry.rules
  entries : g.registry.entries = g₀.registry.entries
  settled : ∀ t, g₀.standing t ≠ .unrealized → g.standing t = g₀.standing t
  done : ∀ t, g₀.standing t = .unrealized → d.isDone t = true → ∃ e, g.standing t = .realized e
  underWay : ∀ t, g₀.standing t = .unrealized → d.isDone t = false →
    g.standing t = if stack.any (·.same t) then .realizing else .unrealized
  form : ∀ t, g.standing t = .unrealized → g.node? t = g₀.node? t
  journal : ∃ events, g.journal = base ++ events ∧ Runs g₀.registry d.steps events

variable {g₀ g g₁ : Graph} {base : List Event} {stack : List TypeRef} {d : Draft} {s t : TypeRef} {room : Nat}
  {via : Option Locator}

namespace Shadows

theorem indexed (shadows : Shadows g₀ base stack g d) (indexed : g₀.registry.Indexed) :
    g.registry.Indexed := indexed.congr shadows.rules shadows.entries

theorem rule? (shadows : Shadows g₀ base stack g d) (id : RuleId) :
    g.registry.rule? id = g₀.registry.rule? id := by
  simp only [Registry.rule?, shadows.rules]

theorem duties (shadows : Shadows g₀ base stack g d) (below : List TypeRef) (via : Option Locator)
    (s : TypeRef) : g.registry.duties below via s = g₀.registry.duties below via s :=
  Registry.dutiesKept shadows.rules shadows.entries

theorem resolve (shadows : Shadows g₀ base stack g d) (fresh : g.standing t = .unrealized) :
    g.resolve t = g₀.resolve t := by
  unfold Graph.resolve Registry.resolve? Registry.entry?
  rw [shadows.form t fresh, shadows.entries]

theorem views (shadows : Shadows g₀ base stack g d) (t : TypeRef) :
    g₀.standing t ≠ .unrealized ∧ g.standing t = g₀.standing t ∨
      g₀.standing t = .unrealized ∧ (d.isDone t = true ∧ (∃ e, g.standing t = .realized e) ∨
        d.isDone t = false ∧ g.standing t = if stack.any (·.same t) then .realizing else .unrealized) := by
  by_cases before : g₀.standing t = .unrealized
  · cases done : d.isDone t with
    | true => exact .inr ⟨before, .inl ⟨rfl, shadows.done t before done⟩⟩
    | false => exact .inr ⟨before, .inr ⟨rfl, shadows.underWay t before done⟩⟩
  · exact .inl ⟨before, shadows.settled t before⟩

theorem origin (shadows : Shadows g₀ base stack g d) (fresh : g.standing t = .unrealized) :
    g₀.standing t = .unrealized ∧ d.isDone t = false ∧ stack.any (·.same t) = false := by
  rcases shadows.views t with ⟨started, same⟩ | ⟨before, ⟨_, e, realized⟩ | ⟨undone, under⟩⟩
  · exact absurd (same.symm.trans fresh) started
  · cases fresh.symm.trans realized
  · rw [fresh] at under
    split at under
    · contradiction
    · rename_i offStack
      exact ⟨before, undone, eq_false_of_ne_true offStack⟩

theorem track (shadows : Shadows g₀ base stack g d) (started : g.standing s ≠ .unrealized) :
    Shadows g₀ base stack (g.track s) d where
  rules := shadows.rules
  entries := shadows.entries
  settled t other := (standingTrack g s t).trans (shadows.settled t other)
  done t fresh isDone := by simpa using shadows.done t fresh isDone
  underWay t fresh undone := (standingTrack g s t).trans (shadows.underWay t fresh undone)
  form t fresh := by
    rw [standingTrack] at fresh
    rw [nodeTrack, if_neg, shadows.form t fresh]
    intro same
    rw [standingCongr (TypeRef.sameIff.mp same), fresh] at started
    contradiction
  journal := shadows.journal

theorem synthesis (shadows : Shadows g₀ base stack g d) (v w : Verdicts) (subject : TypeRef) :
    Shadows g₀ base stack (g.withVerdicts v)
      (Draft.step { d with verdicts := w } .synthesize subject none) where
  rules := shadows.rules
  entries := shadows.entries
  settled := shadows.settled
  done := shadows.done
  underWay := shadows.underWay
  form := shadows.form
  journal := by
    obtain ⟨events, whole, runs⟩ := shadows.journal
    exact ⟨events, whole, runs.synthesis subject⟩

theorem ran (shadows : Shadows g₀ base stack g d) {id : RuleId} {rule : Rule} {subject : TypeRef}
    (known : g.registry.rule? id = some rule) (applies : rule.subject.same subject = true)
    (outcome : Outcome Element) :
    Shadows g₀ base stack (g.ran id rule outcome)
      (d.step rule.body.stepKind subject (some rule.locator)) where
  rules := shadows.rules
  entries := shadows.entries
  settled := shadows.settled
  done := shadows.done
  underWay := shadows.underWay
  form := shadows.form
  journal := by
    obtain ⟨events, whole, runs⟩ := shadows.journal
    rw [shadows.rule?] at known
    refine ⟨_, ?_, runs.start known applies outcome.notes⟩
    simp only [Graph.ran, record, whole, List.append_assoc]

theorem enter (shadows : Shadows g₀ base stack g d) (fresh : g.standing s = .unrealized) :
    Shadows g₀ base (stack ++ [s]) (g.enter s) d where
  rules := shadows.rules
  entries := shadows.entries
  settled t other := by
    rw [standingEnter, if_neg]
    · exact shadows.settled t other
    · intro same
      rw [← standingCongr (TypeRef.sameIff.mp same), (shadows.origin fresh).1] at other
      contradiction
  done t before isDone := by
    obtain ⟨e, realized⟩ := shadows.done t before isDone
    rw [standingEnter, if_neg]
    · exact ⟨e, realized⟩
    · intro same
      rw [← standingCongr (TypeRef.sameIff.mp same), fresh] at realized
      contradiction
  underWay t before undone := by
    rw [standingEnter, shadows.underWay t before undone, List.any_append]
    simp only [List.any_cons, List.any_nil, Bool.or_false]
    cases s.same t <;> cases stack.any (·.same t) <;> rfl
  form t unrealized := by
    rw [standingEnter] at unrealized
    split at unrealized
    · contradiction
    · rename_i other
      exact (enterOther other).trans (shadows.form t unrealized)
  journal := shadows.journal

theorem settle (shadows : Shadows g₀ base (stack ++ [s]) g₁ d) (grows : (g.enter s).Grows g₁)
    (before : g₀.standing s = .unrealized) (e : Element) :
    Shadows g₀ base stack (g₁.mark s (.realized e)) (d.finish s) where
  rules := shadows.rules
  entries := shadows.entries
  settled t other := by
    rw [standingSettle grows, if_neg]
    · exact shadows.settled t other
    · intro same
      rw [← standingCongr (TypeRef.sameIff.mp same), before] at other
      contradiction
  done t fresh isDone := by
    rw [standingSettle grows]
    cases same : s.same t with
    | true => exact ⟨e, if_pos rfl⟩
    | false =>
      simp only [Draft.isDone, Draft.finish, List.any_append, List.any_cons, same, List.any_nil,
        Bool.or_false] at isDone
      obtain ⟨e', realized⟩ := shadows.done t fresh isDone
      exact ⟨e', realized⟩
  underWay t fresh undone := by
    simp only [Draft.isDone, Draft.finish, List.any_append, List.any_cons, List.any_nil,
      Bool.or_false, Bool.or_eq_false_iff] at undone
    have kept := shadows.underWay t fresh undone.1
    simp [standingSettle grows, kept, undone.2]
  form t unrealized := by
    rw [standingSettle grows] at unrealized
    split at unrealized
    · contradiction
    · rename_i other
      simpa [other] using shadows.form t unrealized
  journal := shadows.journal

theorem visitPresent (shadows : Shadows g₀ base stack g d) (resting : g₀.Resting) {e : Element}
    (present : g.standing t = .realized e) : visitNode g₀ room stack via t d = (.ok (), d) := by
  rw [visitNodeNamed resting.coherent.sound.indexed]
  rcases shadows.views t with ⟨_, same⟩ | ⟨before, ⟨done, _⟩ | ⟨_, under⟩⟩
  · rw [← same, present]
  · rw [before, done]
    rfl
  · rw [present] at under
    split at under <;> contradiction

theorem visitFailed (shadows : Shadows g₀ base stack g d) (resting : g₀.Resting)
    (failed : g.standing t = .failed) :
    visitNode g₀ room stack via t d = (.error (.previouslyFailed (g₀.resolve t)), d) := by
  rw [visitNodeNamed resting.coherent.sound.indexed]
  rcases shadows.views t with ⟨_, same⟩ | ⟨_, ⟨_, e, realized⟩ | ⟨_, under⟩⟩
  · rw [← same, failed]
  · cases failed.symm.trans realized
  · rw [failed] at under
    split at under <;> contradiction

theorem visitBusy (shadows : Shadows g₀ base stack g d) (resting : g₀.Resting)
    (busy : g.standing t = .realizing) :
    visitNode g₀ room stack via t d = (.error (.cyclic (chainTo stack (g₀.resolve t)) via), d) := by
  rw [visitNodeNamed resting.coherent.sound.indexed]
  rcases shadows.views t with ⟨_, same⟩ | ⟨before, ⟨_, e, realized⟩ | ⟨undone, under⟩⟩
  · exact absurd (same.symm.trans busy) (resting.quiet t)
  · cases busy.symm.trans realized
  · rw [busy] at under
    split at under
    · rename_i onStack
      rw [before, undone, onStack]
      rfl
    · contradiction

theorem visitFresh (shadows : Shadows g₀ base stack g d) (resting : g₀.Resting)
    (fresh : g.standing t = .unrealized) :
    visitNode g₀ room stack via t d =
      match room with
      | 0 => (.error (.depthExceeded (g₀.resolve t) g₀.settings.maxDepth), d)
      | room + 1 =>
        match planDuties (visitNode g₀ room (stack ++ [g₀.resolve t]))
            (g₀.registry.duties stack via (g₀.resolve t)) d with
        | (.error fault, d) => (.error fault, d)
        | (.ok (), d) => (.ok (), d.finish (g₀.resolve t)) := by
  obtain ⟨before, undone, offStack⟩ := shadows.origin fresh
  rw [visitNodeNamed resting.coherent.sound.indexed, before, undone, offStack]
  rfl

theorem visitOpen (shadows : Shadows g₀ base stack g d) (resting : g₀.Resting)
    (fresh : g.standing t = .unrealized) :
    visitNode g₀ (room + 1) stack via t d =
      match planDuties (visitNode g₀ room (stack ++ [g.resolve t]))
          (g.registry.duties stack via (g.resolve t)) d with
      | (.error fault, d) => (.error fault, d)
      | (.ok (), d) => (.ok (), d.finish (g.resolve t)) := by
  rw [shadows.visitFresh resting fresh, shadows.resolve fresh, shadows.duties]

end Shadows

end Graph

end Realization
