import Realization.Proofs.Lifetime

/-!
Moments of realizing. Work passes through the duties one by one, those of the types that it enters
among them; a moment is such a duty about to be done, with the element so far and the graph as it is.
Whatever body the journal names, the request that started it passed through the moment of its start.
-/
namespace Realization.Graph

structure Moment where
  stack : List TypeRef
  duty : Duty
  own : Option Element
  graph : Graph

/- Work on the duties comes to a moment once all that precedes it has succeeded. -/
inductive Comes (limit : Nat) : List TypeRef → List Duty → Option Element → Graph → Moment → Prop where
  | here {stack duty rest own g} : Comes limit stack (duty :: rest) own g ⟨stack, duty, own, g⟩
  | later {stack duty rest own own₁ g g₁ m} (turn : Work limit stack [duty] own g (.ok own₁) g₁)
      (onward : Comes limit stack rest own₁ g₁ m) : Comes limit stack (duty :: rest) own g m
  | inside {stack via t rest own g m} (asks : g.registry.Asks stack via t)
      (fresh : g.standing (g.resolve t) = .unrealized) (room : stack.length < limit)
      (inner : Comes limit (stack ++ [g.resolve t]) (g.registry.duties stack via (g.resolve t)) none
        (g.enter (g.resolve t)) m) :
      Comes limit stack (.input via t :: rest) own g m

def Passes (g : Graph) (t : TypeRef) (m : Moment) : Prop :=
  ∃ h, g.start = (.ok (), h) ∧ Comes h.settings.maxDepth [] [.input none t] none h m

structure Moment.Starts (m : Moment) (id : RuleId) (rule : Rule) (inputs : Inputs) : Prop where
  duty : ∃ s, m.duty = .run s id rule ∧ rule.subject.same s = true
  known : m.graph.registry.rule? id = some rule
  ready : ∃ body, rule.body.start? m.own = some body
  given : m.graph.inputsFor rule.inputs = .ok inputs

def Begun (g : Graph) (k : Nat) (id : RuleId) (locator : Locator) (m : Moment) : Prop :=
  m.graph.journal = g.journal.take k ∧ ∃ rule inputs, m.Starts id rule inputs ∧ rule.locator = locator

variable {limit : Nat} {stack : List TypeRef} {duties : List Duty} {own : Option Element}
  {g g' : Graph} {t : TypeRef} {result : Except Fault (Option Element)} {k : Nat} {id : RuleId}
  {locator : Locator} {m : Moment}

/- What a moment in the midst of work keeps of an earlier graph; types may be under way meanwhile. -/
structure Onward (g g' : Graph) : Prop where
  rules : g'.registry.rules = g.registry.rules
  entries : g'.registry.entries = g.registry.entries
  settings : g'.settings = g.settings
  verdicts : g.registry.verdicts.Within g'.registry.verdicts
  journal : g.journal <+: g'.journal
  form : ∀ t n, g.node? t = some n →
    ∃ n', g'.node? t = some n' ∧ (n.subject.isManaged = true → n'.subject = n.subject)
  settled : ∀ t, g.standing t ≠ .unrealized → g'.standing t = g.standing t

theorem Onward.trans {h : Graph} (first : g.Onward g') (second : g'.Onward h) : g.Onward h where
  rules := second.rules.trans first.rules
  entries := second.entries.trans first.entries
  settings := second.settings.trans first.settings
  verdicts := first.verdicts.trans second.verdicts
  journal := first.journal.trans second.journal
  form t n found := by
    obtain ⟨n', found', kept⟩ := first.form t n found
    obtain ⟨n'', found'', kept'⟩ := second.form t n' found'
    refine ⟨n'', found'', fun managed => ?_⟩
    have same := kept managed
    rw [kept' (by rw [same]; exact managed), same]
  settled t started := by
    have here := first.settled t started
    rw [← here] at started
    exact (second.settled t started).trans here

theorem Grows.onward (grows : g.Grows g') : g.Onward g' where
  rules := grows.rules
  entries := grows.entries
  settings := grows.settings
  verdicts := grows.verdicts
  journal := grows.journal
  form := grows.form
  settled t started := (grows.standing t).kept started

theorem enterOnward {s : TypeRef} (fresh : g.standing s = .unrealized) : g.Onward (g.enter s) where
  rules := rfl
  entries := rfl
  settings := rfl
  verdicts := g.registry.verdicts.withinRefl
  journal := List.prefix_refl _
  form t n found := enterForm g s found
  settled t started := by
    rw [standingEnter, if_neg]
    intro same
    rw [← standingCongr (TypeRef.sameIff.mp same)] at started
    exact started fresh

theorem Stays.onward (stays : g.Stays g') : g.Onward g' where
  rules := stays.rules
  entries := stays.entries
  settings := stays.settings
  verdicts := stays.verdicts
  journal := stays.journal ▸ List.prefix_refl _
  form t n found := ⟨n, (stays.node t).trans found, fun _ => rfl⟩
  settled t _ := stays.standing t

theorem Comes.onward (comes : Comes limit stack duties own g m) : g.Onward m.graph := by
  induction comes with
  | here => exact (growsRefl _).onward
  | later turn _ ih => exact turn.grows.onward.trans ih
  | inside _ fresh _ _ ih => exact (enterOnward fresh).trans ih

theorem realizeOnward (resting : g.Resting) (t : TypeRef) : g.Onward (g.realize t).2 := by
  rcases realizeLeaves resting t with left | ⟨_, work⟩
  · rw [left]
    exact g.startStays.onward
  · exact g.startStays.onward.trans work.grows.onward

theorem Comes.coherent (comes : Comes limit stack duties own g m) (coherent : g.Coherent)
    (bounded : g.settings.maxDepth = limit) : m.graph.Coherent := by
  induction comes with
  | here => exact coherent
  | later turn _ ih => exact ih (turn.coherent coherent bounded) (by rw [turn.grows.settings, bounded])
  | inside _ fresh _ _ ih => exact ih (coherent.enter fresh) bounded

theorem Passes.opened (passes : g.Passes t m) :
    ∃ h, g.Stays h ∧ Comes h.settings.maxDepth [] [.input none t] none h m := by
  obtain ⟨h, opening, comes⟩ := passes
  have stays := g.startStays
  rw [opening] at stays
  exact ⟨h, stays, comes⟩

theorem Passes.onward (passes : g.Passes t m) : g.Onward m.graph := by
  obtain ⟨h, stays, comes⟩ := passes.opened
  exact stays.onward.trans comes.onward

theorem Passes.coherent (passes : g.Passes t m) (resting : g.Resting) : m.graph.Coherent := by
  obtain ⟨h, stays, comes⟩ := passes.opened
  exact comes.coherent (stays.resting resting).coherent rfl

def Moment.Amid (m : Moment) (limit : Nat) (stack : List TypeRef) (duties : List Duty)
    (own : Option Element) (g : Graph) : Prop :=
  m.stack = stack ∧ ∃ before rest, duties = before ++ m.duty :: rest ∧
    Work limit stack before own g (.ok m.own) m.graph

def Moment.Building (m : Moment) (limit : Nat) (below : List TypeRef) (via : Option Locator)
    (u : TypeRef) (g : Graph) : Prop :=
  g.registry.Asks below via u ∧ g.standing (g.resolve u) = .unrealized ∧ below.length < limit ∧
    m.Amid limit (below ++ [g.resolve u]) (g.registry.duties below via (g.resolve u)) none
      (g.enter (g.resolve u))

theorem Comes.frame (comes : Comes limit stack duties own g m) :
    m.Amid limit stack duties own g ∨
      ∃ below via u g₁, g.Onward g₁ ∧ m.Building limit below via u g₁ := by
  induction comes with
  | here => exact .inl ⟨rfl, [], _, rfl, .done⟩
  | later turn _ ih =>
    rcases ih with ⟨same, before, rest, rfl, work⟩ | ⟨below, via, u, g₁, onward, building⟩
    · exact .inl ⟨same, _ :: before, rest, rfl, turn.andThen work⟩
    · exact .inr ⟨below, via, u, g₁, turn.grows.onward.trans onward, building⟩
  | inside asks fresh room _ ih =>
    rcases ih with amid | ⟨below, via, u, g₁, onward, building⟩
    · exact .inr ⟨_, _, _, _, (growsRefl _).onward, asks, fresh, room, amid⟩
    · exact .inr ⟨below, via, u, g₁, (enterOnward fresh).trans onward, building⟩

theorem Passes.building {s : TypeRef} {rule : Rule} (passes : g.Passes t m)
    (duty : m.duty = .run s id rule) (indexed : g.registry.Indexed) :
    ∃ limit below via u g₁, g.Onward g₁ ∧ m.Building limit below via u g₁ ∧ s = g₁.resolve u := by
  obtain ⟨h, stays, comes⟩ := passes.opened
  rcases comes.frame with ⟨_, before, rest, whole, _⟩ | ⟨below, via, u, g₁, onward, building⟩
  · have member : m.duty ∈ [.input none t] := by
      rw [whole]
      simp
    rw [duty] at member
    simp at member
  · have start := stays.onward.trans onward
    obtain ⟨_, before, rest, whole, _⟩ := building.2.2.2
    have member : .run s id rule ∈ g₁.registry.duties below via (g₁.resolve u) := by
      rw [whole, ← duty]
      simp
    exact ⟨_, below, via, u, g₁, start, building,
      (indexed.congr start.rules start.entries).dutyOwner member rfl⟩

theorem Begun.later (begun : g.Begun k id locator m) (journal : g.journal <+: g'.journal)
    (inside : k < g.journal.length) : g'.Begun k id locator m := by
  obtain ⟨more, whole⟩ := journal
  refine ⟨?_, begun.2⟩
  rw [begun.1, ← whole, List.take_append_of_le_length (Nat.le_of_lt inside)]

theorem entryBefore {event : Event} (journal : g.journal <+: g'.journal)
    (found : g'.journal[k]? = some event) :
    (k < g.journal.length ∧ g.journal[k]? = some event) ∨ g.journal.length ≤ k := by
  obtain ⟨more, whole⟩ := journal
  rcases Nat.lt_or_ge k g.journal.length with inside | after
  · rw [← whole, List.getElem?_append_left inside] at found
    exact .inl ⟨inside, found⟩
  · exact .inr after

theorem ranStart {started : RuleId} {rule : Rule} {outcome : Outcome Element}
    (old : g.journal.length ≤ k)
    (event : (g.ran started rule outcome).journal[k]? = some (.started id locator)) :
    k = g.journal.length ∧ id = started ∧ rule.locator = locator := by
  unfold ran record at event
  dsimp only at event
  rw [List.getElem?_append_right old] at event
  cases offset : k - g.journal.length with
  | zero =>
    rw [offset] at event
    simp only [List.getElem?_cons_zero, Option.some.injEq, Event.started.injEq] at event
    exact ⟨by omega, event.1.symm, event.2⟩
  | succ n =>
    rw [offset, List.getElem?_cons_succ] at event
    simp at event

theorem ranBegun {s : TypeRef} {started : RuleId} {rule : Rule} {body : Inputs → Outcome Element}
    {inputs : Inputs} (known : g.registry.rule? started = some rule)
    (applies : rule.subject.same s = true) (starts : rule.body.start? own = some body)
    (given : g.inputsFor rule.inputs = .ok inputs) (old : g.journal.length ≤ k)
    (event : (g.ran started rule (body inputs)).journal[k]? = some (.started id locator)) :
    (g.ran started rule (body inputs)).Begun k id locator ⟨stack, .run s started rule, own, g⟩ := by
  obtain ⟨rfl, rfl, located⟩ := ranStart old event
  refine ⟨?_, rule, inputs, ⟨⟨s, rfl, applies⟩, known, ⟨body, starts⟩, given⟩, located⟩
  simp [ran, record]

theorem Work.begins (work : Work limit stack duties own g result g') (old : g.journal.length ≤ k)
    (event : g'.journal[k]? = some (.started id locator)) :
    ∃ m, Comes limit stack duties own g m ∧ g'.Begun k id locator m := by
  have unwritten : ∀ h : Graph, h.journal.length ≤ k → h.journal[k]? = some (.started id locator) →
      False := by
    intro h old event
    rw [List.getElem?_eq_none old] at event
    contradiction
  induction work with
  | done | lacking | unsynthesized | failed | cyclic | deep => exact (unwritten _ old event).elim
  | synthesized answer _ ih =>
    obtain ⟨m, comes, begun⟩ := ih old event
    exact ⟨m, .later (.synthesized answer .done) comes, begun⟩
  | ran known applies starts given outcome later ih =>
    rcases entryBefore later.grows.journal event with ⟨inside, here⟩ | after
    · exact ⟨_, .here, (ranBegun known applies starts given old here).later later.grows.journal inside⟩
    · obtain ⟨m, comes, begun⟩ := ih after event
      exact ⟨m, .later (.ran known applies starts given outcome .done) comes, begun⟩
  | broke known applies starts given _ =>
    exact ⟨_, .here, ranBegun known applies starts given old event⟩
  | present asks settled _ ih =>
    obtain ⟨m, comes, begun⟩ := ih old event
    exact ⟨m, .later (.present asks settled .done) comes, begun⟩
  | built asks fresh room inner later ih ih' =>
    rcases entryBefore later.grows.journal event with ⟨inside, here⟩ | after
    · obtain ⟨m, comes, begun⟩ := ih old here
      exact ⟨m, .inside asks fresh room comes, begun.later later.grows.journal inside⟩
    · obtain ⟨m, comes, begun⟩ := ih' after event
      exact ⟨m, .later (.built asks fresh room inner .done) comes, begun⟩
  | unbuilt asks fresh room _ ih =>
    obtain ⟨m, comes, begun⟩ := ih old event
    exact ⟨m, .inside asks fresh room comes, begun⟩

theorem realizeBegins (resting : g.Resting) (old : g.journal.length ≤ k)
    (event : (g.realize t).2.journal[k]? = some (.started id locator)) :
    ∃ m, g.Passes t m ∧ (g.realize t).2.Begun k id locator m := by
  have stays := g.startStays
  rcases opening : g.start with ⟨fault | _, h⟩ <;> rw [opening] at stays
  · unfold realize at event
    rw [opening] at event
    dsimp only at event
    rw [stays.journal, List.getElem?_eq_none old] at event
    contradiction
  · obtain ⟨_, work⟩ := realizeWork opening (stays.resting resting).coherent.sound.indexed t
    rw [← stays.journal] at old
    obtain ⟨m, comes, begun⟩ := work.begins old event
    exact ⟨m, ⟨h, opening, comes⟩, begun⟩

@[simp] theorem journalTracks (ts : List TypeRef) (g : Graph) : (ts.foldl track g).journal = g.journal := by
  rw [tracksNodes]

@[simp] theorem journalOfRegistry (registry : Registry) (settings : Settings) :
    (ofRegistry registry settings).journal = [] :=
  journalTracks _ _

@[simp] theorem registerJournal (rule : Rule) (g : Graph) : (g.register rule).2.journal = g.journal := by
  unfold register
  split
  · rfl
  · split
    · rfl
    · exact journalTracks rule.mentions _

theorem singleRequests (operations : List Operation) (g : Graph) :
    ∃ singles, g.run operations = g.run singles ∧ Operation.realizeAll ∉ singles := by
  induction operations generalizing g with
  | nil => exact ⟨[], rfl, by simp⟩
  | cons operation rest ih =>
    obtain ⟨singles, same, without⟩ := ih (g.perform operation)
    have whole : g.run (operation :: rest) = (g.perform operation).run singles := same
    cases operation with
    | realizeAll =>
      refine ⟨g.subjects.map .realize ++ singles, ?_, by simpa using without⟩
      rw [whole]
      unfold run
      rw [List.foldl_append]
      exact congrArg (fun h : Graph => h.run singles) (realizeEachRun g.subjects g)
    | register | finalize | plan | realize => exact ⟨_ :: singles, whole, by simpa using without⟩

theorem runBegins (resting : g.Resting) {operations : List Operation}
    (singles : Operation.realizeAll ∉ operations) (old : g.journal.length ≤ k)
    (event : (g.run operations).journal[k]? = some (.started id locator)) :
    ∃ before t later m, g.run operations = ((g.run before).realize t).2.run later ∧
      (g.run before).Passes t m ∧ (g.run operations).Begun k id locator m := by
  induction operations generalizing g with
  | nil =>
    rw [run, List.foldl_nil, List.getElem?_eq_none old] at event
    contradiction
  | cons operation rest ih =>
    have rested := performResting resting operation
    have others : Operation.realizeAll ∉ rest := fun member => singles (List.mem_cons_of_mem _ member)
    have onward : (g.perform operation).journal.length ≤ k → ∃ before t later m,
        g.run (operation :: rest) = ((g.run before).realize t).2.run later ∧
          (g.run before).Passes t m ∧ (g.run (operation :: rest)).Begun k id locator m := by
      intro after
      obtain ⟨before, t, later, m, found⟩ := ih rested others after event
      exact ⟨operation :: before, t, later, m, found⟩
    cases operation with
    | register rule => exact onward (by rwa [perform, registerJournal])
    | finalize => exact onward (by rwa [perform, g.finalizeStays.journal])
    | plan t => exact onward (by rwa [perform, (planStays resting.coherent.sound.indexed t).journal])
    | realizeAll => exact absurd List.mem_cons_self singles
    | realize t =>
      have grown := (runAges rested rest).1.journal
      rcases entryBefore grown event with ⟨inside, here⟩ | after
      · obtain ⟨m, passes, begun⟩ := realizeBegins resting old here
        exact ⟨[], t, rest, m, rfl, passes, begun.later grown inside⟩
      · exact onward after

theorem Reachable.begins (reachable : g.Reachable) (event : g.journal[k]? = some (.started id locator)) :
    ∃ (g₀ : Graph) (t : TypeRef) (later : List Operation) (m : Moment), g₀.Reachable ∧
      g = (g₀.realize t).2.run later ∧ g₀.Passes t m ∧ g.Begun k id locator m := by
  obtain ⟨registry, settings, operations, start, rfl⟩ := reachable
  obtain ⟨singles, same, without⟩ := singleRequests operations (ofRegistry registry settings)
  rw [same] at event ⊢
  obtain ⟨before, t, later, m, whole, passes, begun⟩ :=
    runBegins (ofRegistryResting start.sound settings) without (by simp) event
  exact ⟨_, t, later, m, ⟨registry, settings, before, start, rfl⟩, whole, passes, begun⟩

end Realization.Graph
