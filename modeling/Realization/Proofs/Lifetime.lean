import Realization.Proofs.Elements
import Realization.Proofs.Underway

/-!
The life of a graph. Whatever an operation answers, it only adds to the graph: nodes keep their places,
rules and journal grow at the end, and a type goes at most once from unrealized to realized or failed.
What one operation leaves of a graph is thus what every later one finds.
-/
namespace Realization.Graph

/- A check that has passed holds until a further rule is accepted. -/
structure Ages (g g' : Graph) : Prop where
  names : g.names <+: g'.names
  standing : ∀ t, (g.standing t).Leads (g'.standing t)
  rules : g.registry.rules <+: g'.registry.rules
  settings : g'.settings = g.settings
  started : g.isStarted = true → g'.isStarted = true
  checked : g.isFinalized = true →
    g'.isFinalized = true ∨ g.registry.rules.length < g'.registry.rules.length
  journal : g.journal <+: g'.journal

variable {g g' h : Graph} {t : TypeRef}

theorem agesRefl (g : Graph) : g.Ages g :=
  ⟨List.prefix_refl _, fun _ => .inl rfl, List.prefix_refl _, rfl, id, .inl, List.prefix_refl _⟩

theorem Ages.trans (first : g.Ages g') (second : g'.Ages h) : g.Ages h where
  names := first.names.trans second.names
  standing t := (first.standing t).trans (second.standing t)
  rules := first.rules.trans second.rules
  settings := second.settings.trans first.settings
  started before := second.started (first.started before)
  checked before := by
    have longer := first.rules.length_le
    have longer' := second.rules.length_le
    rcases first.checked before with kept | more
    · rcases second.checked kept with kept | more
      · exact .inl kept
      · exact .inr (by omega)
    · exact .inr (by omega)
  journal := first.journal.trans second.journal

theorem Ages.stored (ages : g.Ages g') {e : Element} (found : g.stored t = some e) :
    g'.stored t = some e := storedLeads (ages.standing t) found

theorem trackedNames (g : Graph) (t : TypeRef) : g.names <+: (g.track t).names := by
  unfold names track
  rw [Node.trackNames]
  split
  · exact List.prefix_refl _
  · exact List.prefix_append _ _

theorem tracksNames (ts : List TypeRef) (g : Graph) : g.names <+: (ts.foldl track g).names := by
  induction ts generalizing g with
  | nil => exact List.prefix_refl _
  | cons t rest ih => exact (trackedNames g t).trans (ih _)

theorem enteredPlaces (g : Graph) (t : TypeRef) : g.names <+: (g.enter t).names := by
  rw [enter, markedNames]
  exact trackedNames g t

theorem Work.names {limit : Nat} {stack : List TypeRef} {duties : List Duty} {own : Option Element}
    {result : Except Fault (Option Element)} (work : Work limit stack duties own g result g') :
    g.names <+: g'.names := by
  induction work with
  | done | lacking | broke | unsynthesized => exact List.prefix_refl _
  | synthesized _ _ ih => exact ih
  | ran _ _ _ _ _ _ ih => exact ih
  | present _ _ _ ih => exact (trackedNames _ _).trans ih
  | failed | cyclic | deep => exact trackedNames _ _
  | built _ _ _ _ _ ih ih' =>
    rw [markedNames] at ih'
    exact (enteredPlaces _ _).trans (ih.trans ih')
  | unbuilt _ _ _ _ ih =>
    rw [markedNames]
    exact (enteredPlaces _ _).trans ih

theorem Work.ages {limit : Nat} {stack : List TypeRef} {duties : List Duty} {own : Option Element}
    {result : Except Fault (Option Element)} (work : Work limit stack duties own g result g') :
    g.Ages g' where
  names := work.names
  standing := work.grows.standing
  rules := work.grows.rules ▸ List.prefix_refl _
  settings := work.grows.settings
  started before := work.grows.started.trans before
  checked before := .inl (work.grows.finalized.trans before)
  journal := work.grows.journal

theorem Stays.ages (stays : g.Stays h) (started : g.isStarted = true → h.isStarted = true)
    (checked : g.isFinalized = true → h.isFinalized = true) : g.Ages h where
  names := stays.names ▸ List.prefix_refl _
  standing t := .inl (stays.standing t)
  rules := stays.rules ▸ List.prefix_refl _
  settings := stays.settings
  started := started
  checked before := .inl (checked before)
  journal := stays.journal ▸ List.prefix_refl _

theorem finalizeAges (g : Graph) : g.Ages g.finalize.2 :=
  g.finalizeStays.ages (fun before => g.finalizeFlags.1.trans before) g.finalizeFlags.2

theorem planAges (indexed : g.registry.Indexed) (t : TypeRef) : g.Ages (g.plan t).2 := by
  have flags : (g.plan t).2.isStarted = g.isStarted ∧ (g.plan t).2.isFinalized = g.isFinalized := by
    unfold plan
    split <;> exact ⟨rfl, rfl⟩
  exact (planStays indexed t).ages (fun before => flags.1.trans before) fun before => flags.2.trans before

theorem openedAges (g : Graph) : g.Ages g.opened :=
  g.openedStays.ages (fun _ => g.openedFlags.1) fun before => g.openedFlags.2.trans before

theorem startAges (g : Graph) : g.Ages g.start.2 ∧ g.start.2.isStarted = true := by
  rw [startOpened]
  split
  · exact ⟨g.openedAges.trans g.opened.finalizeAges, g.opened.finalizeFlags.1.trans g.openedFlags.1⟩
  · exact ⟨g.openedAges, g.openedFlags.1⟩

theorem realizeAges (resting : g.Resting) (t : TypeRef) :
    g.Ages (g.realize t).2 ∧ (g.realize t).2.isStarted = true := by
  obtain ⟨ages, started⟩ := g.startAges
  rcases realizeLeaves resting t with left | ⟨_, work⟩
  · rw [left]
    exact ⟨ages, started⟩
  · exact ⟨ages.trans work.ages, work.ages.started started⟩

theorem newsFaults {α : Type} {answer : Except Fault α} {fault : Fault} (reported : fault ∈ news answer) :
    answer = .error fault := by
  rcases answer with fault' | a
  · cases fault' <;> simp [news] at reported <;> rw [reported]
  · contradiction

theorem realizeEachKeeps {P : Graph → Prop} (keeps : ∀ h t, P h → P (h.realize t).2) (ts : List TypeRef)
    (start : P g) : P (realizeEach ts g).2 := by
  induction ts generalizing g with
  | nil => exact start
  | cons t rest ih =>
    rw [realizeEachNext]
    exact ih (keeps g t start)

theorem realizeEachRun (ts : List TypeRef) (g : Graph) :
    (realizeEach ts g).2 = g.run (ts.map .realize) := by
  induction ts generalizing g with
  | nil => rfl
  | cons t rest ih => exact (realizeEachNext t rest g).trans (ih _)

theorem insertAges (g : Graph) (rule : Rule) (verdicts : Verdicts) :
    g.Ages { rule.mentions.foldl track
      { g with registry := Registry.insert { g.registry with verdicts } rule } with isFinalized := false } := by
  let after : Graph := { g with registry := Registry.insert { g.registry with verdicts } rule }
  have grown := growsTracks rule.mentions after
  have rules : (rule.mentions.foldl track after).registry.rules = g.registry.rules ++ [rule] := grown.rules
  have kept : g.registry.rules <+: (rule.mentions.foldl track after).registry.rules := by
    rw [rules]
    exact List.prefix_append _ _
  have more : g.registry.rules.length < (rule.mentions.foldl track after).registry.rules.length := by
    rw [rules]
    simp
  exact ⟨tracksNames rule.mentions after, fun t => .inl (standingTracks rule.mentions after t), kept,
    grown.settings, fun before => grown.started.trans before, fun _ => .inr more, grown.journal⟩

theorem registerAges (resting : g.Resting) (rule : Rule) : g.Ages (g.register rule).2 := by
  unfold register
  split
  · exact agesRefl g
  · obtain ⟨verdicts, _, _, ⟨refusal, answer⟩ | ⟨answer, _⟩⟩ :=
      Registry.registerCases resting.coherent.sound rule <;> rw [answer]
    · exact ⟨List.prefix_refl _, fun _ => .inl rfl, List.prefix_refl _, rfl, id, .inl,
        List.prefix_refl _⟩
    · exact g.insertAges rule verdicts

theorem performAges (resting : g.Resting) (operation : Operation) : g.Ages (g.perform operation) := by
  have requests : ∀ h t, g.Ages h ∧ h.Resting → g.Ages (h.realize t).2 ∧ (h.realize t).2.Resting :=
    fun h t kept => ⟨kept.1.trans (realizeAges kept.2 t).1, realizeResting kept.2 t⟩
  cases operation with
  | register rule => exact registerAges resting rule
  | finalize => exact g.finalizeAges
  | plan t => exact planAges resting.coherent.sound.indexed t
  | realize t => exact (realizeAges resting t).1
  | realizeAll => exact (realizeEachKeeps requests g.subjects ⟨agesRefl g, resting⟩).1

theorem runAges (resting : g.Resting) (operations : List Operation) :
    g.Ages (g.run operations) ∧ (g.run operations).Resting := by
  induction operations generalizing g with
  | nil => exact ⟨agesRefl g, resting⟩
  | cons operation rest ih =>
    obtain ⟨later, rested⟩ := ih (performResting resting operation)
    exact ⟨(performAges resting operation).trans later, rested⟩

/- What a fresh graph has and every operation keeps, every graph has that operations lead to; to realize
all is to make requests, and needs no case of its own. -/
theorem Reachable.keeps {P : Graph → Prop} (reachable : g.Reachable)
    (fresh : ∀ registry settings, registry.Reachable → P (ofRegistry registry settings))
    (performs : ∀ h operation, operation ≠ .realizeAll → h.Reachable → P h → P (h.perform operation)) :
    P g := by
  obtain ⟨registry, settings, operations, start, rfl⟩ := reachable
  suffices kept : ∀ h : Graph, h.Reachable → P h → P (h.run operations) from
    kept _ ⟨registry, settings, [], start, rfl⟩ (fresh registry settings start)
  intro h reached holds
  induction operations generalizing h with
  | nil => exact holds
  | cons operation rest ih =>
    refine ih _ (reached.perform operation) ?_
    by_cases all : operation = .realizeAll
    · subst all
      have requests : ∀ k t, k.Reachable ∧ P k → (k.realize t).2.Reachable ∧ P (k.realize t).2 :=
        fun k t kept => ⟨kept.1.perform (.realize t), performs k (.realize t) (by simp) kept.1 kept.2⟩
      exact (realizeEachKeeps requests h.subjects ⟨reached, holds⟩).2
    · exact performs h operation all reached holds

theorem Ages.place (ages : g.Ages g') {place : Nat} {n : Node} (found : g.nodes[place]? = some n) :
    ∃ n', g'.nodes[place]? = some n' ∧ n'.subject.name = n.subject.name := by
  have named : g.names[place]? = some n.subject.name := by simp [Graph.names, found]
  obtain ⟨inside, _⟩ := List.getElem?_eq_some_iff.mp named
  obtain ⟨more, whole⟩ := ages.names
  have kept : g'.names[place]? = some n.subject.name := by
    rw [← whole, List.getElem?_append_left inside, named]
  simpa [Graph.names] using kept

theorem memberStanding (distinct : (g.nodes.map (·.subject.name)).Nodup) {n : Node}
    (member : n ∈ g.nodes) : g.standing n.subject = n.progress :=
  progressStanding (by rw [progress?, nodeMember distinct member]; rfl)

theorem nodeLifeCycle (reachable : g.Reachable) :
    (∀ n ∈ g.nodes, n.progress ≠ .realizing) ∧ (g.nodes.map (·.subject.name)).Nodup ∧
    (∀ (operations : List Operation) (place : Nat) (n : Node), g.nodes[place]? = some n →
      ∃ n', (g.run operations).nodes[place]? = some n' ∧ n'.subject.name = n.subject.name ∧
        n.progress.Leads n'.progress) ∧
    ∀ {α : Type} (view : View α) (t : TypeRef), (g.realizeAs view t).2 = g.perform (.realize t) := by
  have resting := reachable.resting
  have distinct := resting.coherent.distinct
  refine ⟨fun n member busy => ?quiet, distinct, fun operations place n found => ?kept,
    fun view t => ?typed⟩
  case quiet => exact resting.quiet n.subject ((memberStanding distinct member).trans busy)
  case kept =>
    obtain ⟨ages, rested⟩ := runAges resting operations
    obtain ⟨n', found', same⟩ := ages.place found
    refine ⟨n', found', same, ?_⟩
    have step := ages.standing n.subject
    rw [memberStanding distinct (List.mem_of_getElem? found), ← standingCongr same,
      memberStanding rested.coherent.distinct (List.mem_of_getElem? found')] at step
    exact step
  case typed =>
    show (g.realizeAs view t).2 = (g.realize t).2
    unfold realizeAs
    rcases g.realize t with ⟨fault | e, g'⟩
    · rfl
    · dsimp only
      split <;> rfl

theorem nodeLifeCycleList :
    (smallSession [.realize (.plain "List")]).nodes[1]? =
        some ⟨.plain "List", .realized (.list ["a", "a"])⟩ ∧
      ∃ n', ((smallSession [.realize (.plain "List")]).run [.register startList, .realizeAll]).nodes[1]? =
          some n' ∧ n'.subject.name = "List" ∧
        (Progress.realized (.list ["a", "a"])).Leads n'.progress := by
  have found : (smallSession [.realize (.plain "List")]).nodes[1]? =
      some ⟨.plain "List", .realized (.list ["a", "a"])⟩ := by decide +kernel
  exact ⟨found, (nodeLifeCycle (smallSessionReachable _)).2.2.1 _ 1 _ found⟩

end Realization.Graph
