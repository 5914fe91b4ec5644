import Realization.Proofs.Cycles
import Realization.Proofs.Elements
import Realization.Proofs.Failing

/-!
The engine never answers with a fault of its own. An instance is only ever synthesized of a managed type, a
body is only started on inputs that are there, and the walk around a cycle never gets stuck; so the turns
that would end in an internal fault are not taken.
-/
namespace Realization.Graph

open Relation

variable {limit : Nat} {stack : List TypeRef} {duties : List Duty} {own : Option Element}
  {g g' : Graph} {s t : TypeRef} {via : Option Locator} {m : Moment} {id : RuleId} {rule : Rule}
  {result : Except Fault (Option Element)}

def Proper {α : Type} (answer : Except Fault α) : Prop := ∀ reason, answer ≠ .error (.internal reason)

theorem properOk {α : Type} (a : α) : Proper (.ok a : Except Fault α) := by
  intro reason same
  contradiction

theorem Onward.extends (onward : g.Onward g') : g.Extends g' where
  verdicts := onward.verdicts
  form := onward.form
  stored t e found := by
    rw [storedIff] at found ⊢
    rw [onward.settled t (by simp [found]), found]

structure Founded (g : Graph) : Prop where
  indexed : g.registry.Indexed
  initializers : ∀ rule ∈ g.registry.rules, rule.isInitializer = true →
    ∃ m ∈ g.registry.mentions, m.same rule.subject = true ∧ m.isManaged = true
  tracked : g.Tracked

theorem Coherent.founded (coherent : g.Coherent) : g.Founded :=
  ⟨coherent.sound.indexed, coherent.sound.initializers, coherent.tracked⟩

namespace Founded

theorem onward (founded : g.Founded) (onward : g.Onward g') : g'.Founded where
  indexed := founded.indexed.congr onward.rules onward.entries
  initializers := by
    simp only [Registry.mentions, onward.rules]
    exact founded.initializers
  tracked := founded.tracked.kept (by simp only [Registry.mentions, onward.rules]) onward.extends

theorem initializer (founded : g.Founded) (found : g.registry.creator? t = some (id, rule))
    (initializes : rule.isInitializer = true) : (g.resolve t).isManaged = true := by
  obtain ⟨_, inside, _, applies⟩ := founded.indexed.creatorFound found
  obtain ⟨m, mentioned, same, managed⟩ := founded.initializers rule inside initializes
  obtain ⟨n, node, keeps⟩ := founded.tracked m mentioned
  have named : m.name = t.name := (TypeRef.sameIff.mp same).trans (TypeRef.sameIff.mp applies)
  rw [resolveForm ((nodeCongr named g).symm.trans node) (keeps managed)]
  exact keeps managed

theorem synthesis (founded : g.Founded) {below : List TypeRef}
    (member : .synthesize s ∈ g.registry.duties below via (g.resolve t)) : s.isManaged = true := by
  rcases founded.indexed.dutyCases member with ⟨same, ⟨⟨id, rule⟩, creator, initializes⟩ | ⟨_, managed⟩⟩ |
    ⟨other, _⟩ | ⟨_, _, _, _, _, ⟨_, _, other⟩ | other⟩
  · cases same
    rw [g.registry.creatorCongr (resolveName founded.indexed t)] at creator
    exact founded.initializer creator initializes
  · cases same
    exact managed
  · contradiction
  · contradiction
  · contradiction

end Founded

theorem contractForFault {verdicts verdicts' : Verdicts} {fault : Fault} (managed : s.isManaged = true)
    (answer : contractFor s verdicts = (.error fault, verdicts')) :
    ∃ violation, fault = .invalidContract s violation := by
  cases s with
  | plain name => contradiction
  | managed d =>
    unfold contractFor at answer
    dsimp only [TypeRef.declaration?] at answer
    split at answer <;> cases answer
    exact ⟨_, rfl⟩

theorem contractForProper (managed : s.isManaged = true) (verdicts : Verdicts) :
    Proper (contractFor s verdicts).1 := by
  intro reason same
  obtain ⟨violation, other⟩ := contractForFault managed (Prod.ext same rfl)
  contradiction

theorem Comes.managed (comes : Comes limit [] [.input none t] own g m) (founded : g.Founded)
    (duty : m.duty = .synthesize s) : s.isManaged = true := by
  rcases comes.frame with ⟨_, before, rest, whole, _⟩ |
    ⟨below, via, u, g₁, onward, _, _, _, _, before, rest, whole, _⟩
  · have member : m.duty ∈ [Duty.input none t] := by
      rw [whole]
      simp
    rw [duty] at member
    simp at member
  · have member : .synthesize s ∈ g₁.registry.duties below via (g₁.resolve u) := by
      rw [whole, ← duty]
      simp
    exact (founded.onward onward).synthesis member

theorem Work.proper (work : Work limit [] [.input none t] own g result g') (founded : g.Founded) :
    Proper result := by
  rintro reason rfl
  obtain ⟨m, more, comes, raises, _⟩ := work.raises
  generalize internal : Fault.internal reason = fault at raises
  cases raises with
  | @unsynthesized _ s _ g _ _ answer =>
    subst internal
    exact contractForProper (comes.managed founded rfl) g.registry.verdicts reason (by rw [answer])
  | lacking | broke | failed | cyclic | deep => contradiction

theorem checkSourcesProper (g : Graph) (ts : List TypeRef) (verdicts : Verdicts) :
    Proper (g.checkSources ts verdicts).1 := by
  induction ts generalizing verdicts with
  | nil => exact properOk ()
  | cons t rest ih =>
    unfold checkSources
    split
    · exact ih verdicts
    · split
      · rename_i managed
        have proper := contractForProper managed verdicts
        rcases answer : contractFor t verdicts with ⟨fault | contract, verdicts'⟩ <;> rw [answer] at proper
        · rintro reason same
          cases same
          exact proper reason rfl
        · exact ih verdicts'
      · intro reason same
        cases same

theorem orderProper (tracked : g.Tracked) : Proper g.order := by
  intro reason same
  unfold order at same
  split at same
  · contradiction
  · rename_i name answer
    obtain ⟨walk, ends⟩ := Digraph.cycleFromEnds (dependenciesClosed tracked)
      (Digraph.sortCycle (dependenciesClosed tracked) answer)
    rw [cycleFault, ends] at same
    cases same

theorem finalizeProper (tracked : g.Tracked) : Proper g.finalize.1 := by
  intro reason same
  rcases finalizeFails same with sources | ordered
  · exact g.checkSourcesProper g.subjects g.registry.verdicts reason sources
  · exact orderProper tracked reason ordered

theorem startProper (resting : g.Resting) : Proper g.start.1 := by
  rw [startOpened]
  split
  · exact finalizeProper (g.openedStays.resting resting).coherent.tracked
  · exact properOk ()

theorem realizeProper (resting : g.Resting) (t : TypeRef) : Proper (g.realize t).1 := by
  have opened := startProper resting
  have rested := g.startStays.resting resting
  rcases opening : g.start with ⟨fault | _, h⟩ <;> rw [opening] at opened rested
  · unfold realize
    rw [opening]
    intro reason same
    cases same
    exact opened reason rfl
  · obtain ⟨result, h', work, ⟨e, _, answer, _⟩ | ⟨fault, rfl, answer⟩⟩ :=
      realizeRun opening rested.coherent.sound.indexed t <;> rw [answer]
    · exact properOk e
    · intro reason same
      cases same
      exact work.proper rested.coherent.founded reason rfl

theorem realizeAsProper (resting : g.Resting) {α : Type} (view : View α) (t : TypeRef) :
    Proper (g.realizeAs view t).1 := by
  have proper := realizeProper resting t
  unfold realizeAs
  rcases answer : g.realize t with ⟨fault | e, h⟩ <;> rw [answer] at proper
  · intro reason same
    cases same
    exact proper reason rfl
  · dsimp only
    split
    · exact properOk _
    · intro reason same
      cases same

theorem realizeEachProper (resting : g.Resting) (ts : List TypeRef) (reason : String) :
    .internal reason ∉ (realizeEach ts g).1 := by
  induction ts generalizing g with
  | nil => simp [realizeEach]
  | cons t rest ih =>
    rw [realizeEachFaults, List.mem_append, not_or]
    exact ⟨fun reported => realizeProper resting t reason (newsFaults reported), ih (realizeResting resting t)⟩

theorem visitNodeProper (founded : g.Founded) (room : Nat) (stack : List TypeRef) (via : Option Locator)
    (t : TypeRef) (d : Draft) : Proper (visitNode g room stack via t d).1 := by
  induction room using Nat.strong_induction_on generalizing stack via t d with
  | _ room ih =>
    intro reason answer
    rcases visitNodeStumps founded.indexed answer with same | ⟨_, same⟩ | ⟨_, ⟨_, same⟩ |
      ⟨left, rfl, duty, member, stumps⟩⟩
    · contradiction
    · contradiction
    · contradiction
    · cases stumps with
      | contract _ answer => exact contractForProper (founded.synthesis member) _ reason answer
      | input _ answer => exact ih left (Nat.lt_succ_self left) _ _ _ _ reason answer

theorem planProper (founded : g.Founded) (t : TypeRef) : Proper (g.plan t).1 := by
  have visited := visitNodeProper founded g.settings.maxDepth [] none t { verdicts := g.registry.verdicts }
  unfold plan
  rcases answer : g.visitNode g.settings.maxDepth [] none t { verdicts := g.registry.verdicts }
    with ⟨fault | _, d⟩ <;> rw [answer] at visited
  · intro reason same
    cases same
    exact visited reason rfl
  · exact properOk d.steps

def Prepared (duties : List Duty) : Prop :=
  ∀ before s id rule after, duties = before ++ .run s id rule :: after →
    ∀ i ∈ rule.inputs, ∃ via, .input via i ∈ before

theorem preparedAppend {first second : List Duty} (left : Prepared first) (right : Prepared second) :
    Prepared (first ++ second) := by
  intro before s id rule after whole i declared
  rcases List.append_eq_append_iff.mp whole with ⟨more, rfl, rest⟩ | ⟨more, rfl, rest⟩
  · obtain ⟨via, member⟩ := right more s id rule after rest i declared
    exact ⟨via, List.mem_append_right _ member⟩
  · cases more with
    | nil =>
      obtain ⟨via, member⟩ := right [] s id rule after rest.symm i declared
      contradiction
    | cons duty more =>
      cases rest
      exact left before s id rule more rfl i declared

theorem preparedSilent (silent : ∀ s id rule, .run s id rule ∉ duties) : Prepared duties := by
  rintro before s id rule after rfl
  exact absurd (List.mem_append_right _ List.mem_cons_self) (silent s id rule)

theorem preparedRule (s : TypeRef) (id : RuleId) (rule : Rule) : Prepared (rule.duties s id) := by
  intro before s' id' rule' after whole i declared
  rcases List.eq_nil_or_concat after with rfl | ⟨more, last, rfl⟩
  · obtain ⟨rfl, run⟩ := List.append_inj' whole rfl
    cases run
    exact ⟨_, List.mem_map_of_mem declared⟩
  · have split : rule.inputs.map (.input (some rule.locator)) ++ [.run s id rule] =
        (before ++ .run s' id' rule' :: more) ++ [last] := by
      simpa [Rule.duties] using whole
    have member : Duty.run s' id' rule' ∈ rule.inputs.map (.input (some rule.locator)) := by
      rw [(List.append_inj' split rfl).1]
      simp
    simp at member

theorem preparedDuties (r : Registry) (below : List TypeRef) (via : Option Locator) (s : TypeRef) :
    Prepared (r.duties below via s) := by
  refine preparedAppend ?creation ?mutation
  case creation =>
    unfold Registry.creationDuties
    split
    · refine preparedAppend (preparedSilent ?_) (preparedRule _ _ _)
      split <;> simp
    · split <;> exact preparedSilent (by simp)
  case mutation =>
    unfold Registry.mutationDuties
    induction r.mutators s with
    | nil => exact preparedSilent (by simp)
    | cons p rest ih =>
      rw [List.flatMap_cons]
      exact preparedAppend (preparedRule _ _ _) ih

theorem Passes.supplied (passes : g.Passes t m) (indexed : g.registry.Indexed)
    (duty : m.duty = .run s id rule) : ∃ inputs, m.graph.inputsFor rule.inputs = .ok inputs := by
  obtain ⟨limit, below, via, u, g₁, onward, ⟨_, _, _, _, before, rest, whole, work⟩, _⟩ :=
    passes.building duty indexed
  refine inputsForStored fun i declared => ?_
  rw [duty] at whole
  obtain ⟨via', member⟩ := preparedDuties _ below via (g₁.resolve u) before s id rule rest whole i declared
  exact work.obtained (indexed.congr onward.rules onward.entries) member

/- Every rule stands where it can be run: with an instance to initialize or with an element to mutate. -/
structure Wired (g : Graph) : Prop where
  creators : ∀ t id rule, g.registry.creator? t = some (id, rule) →
    rule.creates = true ∧ (rule.isInitializer = true → (g.resolve t).isManaged = true)
  mutators : ∀ t id rule, (id, rule) ∈ g.registry.mutators t → rule.creates = false

theorem Founded.wired (founded : g.Founded) : g.Wired where
  creators _ _ _ found := ⟨(founded.indexed.creatorFound found).2.2.1, founded.initializer found⟩
  mutators _ _ _ listed := (founded.indexed.mutatorFound listed).2.2.1

structure Dependable (g : Graph) : Prop where
  realizes : ∀ t, Proper (g.realize t).1
  realizesAs : ∀ {α : Type} (view : View α) t, Proper (g.realizeAs view t).1
  realizesAll : ∀ reason, .internal reason ∉ g.realizeAll.1
  finalizes : Proper g.finalize.1
  orders : Proper g.order
  plans : ∀ t, Proper (g.plan t).1
  wired : g.Wired
  wiredThroughout : ∀ t m, g.Passes t m → m.graph.Wired
  managed : ∀ t m s, g.Passes t m → m.duty = .synthesize s → s.isManaged = true
  supplied : ∀ t m s id rule, g.Passes t m → m.duty = .run s id rule →
    ∃ inputs, m.graph.inputsFor rule.inputs = .ok inputs
  cyclic : ∀ name, g.dependencies.sort = .error name → TransGen g.dependencies.Edge name name
  onward : ∀ name, g.dependencies.sort = .error name → ∀ v ∈ g.dependencies.component name,
    ∃ w ∈ g.dependencies.component name, g.dependencies.stepBack? (g.dependencies.component name) v = some w

theorem engineDependable (reachable : g.Reachable) : g.Dependable := by
  have resting := reachable.resting
  have founded := resting.coherent.founded
  have closed := dependenciesClosed founded.tracked
  refine ⟨realizeProper resting, fun view t => realizeAsProper resting view t,
    realizeEachProper resting g.subjects, finalizeProper founded.tracked, orderProper founded.tracked,
    planProper founded, founded.wired, fun t m passes => (founded.onward passes.onward).wired,
    fun t m s passes duty => ?managed, fun t m s id rule passes => passes.supplied founded.indexed,
    fun name unsorted => Digraph.sortCycle closed unsorted,
    fun name unsorted v => Digraph.componentSteps closed (Digraph.sortCycle closed unsorted)⟩
  case managed =>
    obtain ⟨h, opening, comes⟩ := passes
    have stays := g.startStays
    rw [opening] at stays
    exact comes.managed (founded.onward stays.onward) duty

theorem engineDependableList :
    ((smallSession []).realize (.plain "List")).1 = .ok (.list ["a", "a"]) ∧ (smallSession []).Dependable :=
  ⟨by decide +kernel, engineDependable (smallSessionReachable [])⟩

end Realization.Graph
