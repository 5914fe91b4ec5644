import Realization.Proofs.Discipline
import Realization.Proofs.Interleaving
import Realization.Proofs.Recheck

/-!
Graphs that differ only in what they remember. Both answer every registration, check, plan and request alike, and
differ in nothing more afterwards.
-/
namespace Realization

variable {forms : List TypeRef} {origin v w : Verdicts}

namespace Registry

variable {r : Registry} {rule : Rule}

theorem kinSelf (indexed : r.Indexed) (inside : ∀ m ∈ r.mentions, m ∈ forms) (apart : Apart forms) :
    Kin forms r r :=
  ⟨indexed, indexed, fun _ => rfl, fun _ => rfl, fun _ => rfl, inside, apart⟩

theorem checkContractsAlike (locator : Locator) (apart : Apart forms) {ts : List TypeRef}
    (inside : ∀ t ∈ ts, t ∈ forms) (like : Verdicts.Like forms origin v)
    (like' : Verdicts.Like forms origin w) :
    (checkContracts locator ts w).1 = (checkContracts locator ts v).1 := by
  induction ts generalizing v w with
  | nil => rfl
  | cons t rest ih =>
    obtain ⟨here, tail⟩ := List.forall_mem_cons.mp inside
    unfold checkContracts
    cases t with
    | plain name => exact ih tail like like'
    | managed d =>
      have same := (like' d here).trans (like d here).symm
      have learnt := like.validate apart here
      have learnt' := like'.validate apart here
      dsimp only [TypeRef.declaration?]
      rcases answer : v.validate d with ⟨verdict, v₁⟩
      rcases answer' : w.validate d with ⟨verdict', w₁⟩
      rw [answer, answer'] at same
      rw [answer] at learnt
      rw [answer'] at learnt'
      cases (show verdict' = verdict from same)
      cases verdict with
      | error violation => rfl
      | ok contract => exact ih tail learnt learnt'

theorem registerOver (r : Registry) (rule : Rule) {w : Verdicts}
    (same : (checkContracts rule.locator rule.mentions w).1 =
      (checkContracts rule.locator rule.mentions r.verdicts).1) :
    (register { r with verdicts := w } rule).1 = (r.register rule).1 ∧
      (register { r with verdicts := w } rule).2 = { (r.register rule).2 with
        verdicts := (register { r with verdicts := w } rule).2.verdicts } := by
  have opened : checkOpen { r with verdicts := w } rule = checkOpen r rule := rfl
  have subject : ∀ v, checkSubject { r with verdicts := v } rule = checkSubject r rule := fun _ => rfl
  unfold register
  rw [opened]
  cases r.checkOpen rule with
  | error refusal => exact ⟨rfl, rfl⟩
  | ok _ =>
    dsimp only
    rcases answer : checkContracts rule.locator rule.mentions r.verdicts with ⟨outcome, v⟩
    rcases answer' : checkContracts rule.locator rule.mentions w with ⟨outcome', v'⟩
    rw [answer, answer'] at same
    cases (show outcome' = outcome from same)
    cases outcome with
    | error refusal => exact ⟨rfl, rfl⟩
    | ok _ =>
      simp only [checkConflictsKept, subject]
      cases r.checkConflicts rule.locator [] rule.mentions with
      | error refusal => exact ⟨rfl, rfl⟩
      | ok _ => cases r.checkSubject rule <;> exact ⟨rfl, rfl⟩

end Registry

namespace Graph

variable {g h g₁ h₁ : Graph} {t : TypeRef} {operations : List Operation} {fault : Fault}

def Operation.types : Operation → List TypeRef
  | .register rule => rule.mentions
  | .plan t | .realize t => [t]
  | .finalize | .realizeAll => []

theorem nodesListed (distinct : (g.nodes.map (·.subject.name)).Nodup) :
    g.nodes.map some = g.names.map fun name => g.node? (.plain name) := by
  rw [names, List.map_map]
  refine List.map_congr_left fun n member => ?_
  rw [← nodeMember distinct member]
  exact nodeCongr rfl g

theorem nodesSame (distinct : (g.nodes.map (·.subject.name)).Nodup)
    (distinct' : (h.nodes.map (·.subject.name)).Nodup) (names : h.names = g.names)
    (node : ∀ t, g.node? t = h.node? t) : h.nodes = g.nodes := by
  refine (List.map_inj_right fun _ _ => Option.some.inj).mp ?_
  rw [nodesListed distinct, nodesListed distinct', names]
  exact List.map_congr_left fun name _ => (node _).symm

theorem Orderly.tellingKept (orderly : g.Orderly) {r : Registry} (rules : g.registry.rules <+: r.rules) :
    g.journal.map (Event.telling r) = g.journal.map (Event.telling g.registry) := by
  refine List.map_congr_left fun event member => ?_
  cases event with
  | noted text => rfl
  | started id locator =>
    have started : id ∈ g.starts :=
      List.mem_map.mpr ⟨(id, locator), List.mem_filterMap.mpr ⟨_, member, rfl⟩, rfl⟩
    obtain ⟨_, owned, _⟩ := orderly.known started
    obtain ⟨rule, known, _⟩ := Option.map_eq_some_iff.mp owned
    simp only [Event.telling, known, Registry.ruleKept rules known]

theorem openedClosed (closed : g.settings.freezeOnFirstRealize = true → g.registry.isFrozen = true) :
    g.opened = { g with isStarted := true } := by
  unfold opened
  split
  · rename_i started
    rw [← started]
  · split
    · rename_i freezes
      have frozen : g.registry.freeze = g.registry := by rw [Registry.freeze, ← closed freezes]
      rw [frozen]
    · rfl

theorem checkSourcesAlike {c : Comparison} (kin : c.Kin) (g : Graph) {ts : List TypeRef}
    (inside : ∀ t ∈ ts, t ∈ c.forms) (remembers : c.Remembers v) (remembers' : c.Remembers w) :
    Alike (fun v w => c.Remembers v ∧ c.Remembers w) (g.checkSources ts v) (g.checkSources ts w) := by
  induction ts generalizing v w with
  | nil => exact ⟨rfl, remembers, remembers'⟩
  | cons t rest ih =>
    obtain ⟨here, tail⟩ := List.forall_mem_cons.mp inside
    unfold checkSources
    split
    · exact ih tail remembers remembers'
    · split
      · obtain ⟨fault, v₁, w₁, answer, answer', learnt⟩ | ⟨_, v₁, w₁, answer, answer', learnt⟩ :=
          (Comparison.contractForAlike kin here remembers remembers').cases <;> rw [answer, answer']
        · exact ⟨rfl, learnt⟩
        · exact ih tail learnt.1 learnt.2
      · exact ⟨rfl, remembers, remembers'⟩

/- Two graphs that differ at most in what they remember of these declarations, in whether they have been
started, and in the numbers under which they tell of bodies; to be started would close neither registry. -/
structure Peers (forms : List TypeRef) (origin : Verdicts) (g h : Graph) : Prop where
  registry : h.registry = { g.registry with verdicts := h.registry.verdicts }
  settings : h.settings = g.settings
  nodes : h.nodes = g.nodes
  finalized : h.isFinalized = g.isFinalized
  told : g.journal.map (Event.telling g.registry) = h.journal.map (Event.telling g.registry)
  remembers : Verdicts.Like forms origin g.registry.verdicts
  remembers' : Verdicts.Like forms origin h.registry.verdicts
  formed : ∀ t n, g.node? t = some n → n.subject ∈ forms
  inside : ∀ m ∈ g.registry.mentions, m ∈ forms
  closed : g.settings.freezeOnFirstRealize = true → g.registry.isFrozen = true

namespace Peers

theorem rules (peers : Peers forms origin g h) : h.registry.rules = g.registry.rules := by rw [peers.registry]

theorem entries (peers : Peers forms origin g h) : h.registry.entries = g.registry.entries := by
  rw [peers.registry]

theorem same (peers : Peers forms origin g h) : g.Matches h := ⟨peers.rules, peers.entries, peers.nodes⟩

abbrev comparison (forms : List TypeRef) (origin : Verdicts) (g : Graph) : Comparison :=
  ⟨g.registry, g.registry, forms, origin, g.settings⟩

theorem twin (peers : Peers forms origin g h) : (comparison forms origin g).Twin g h where
  rules := rfl
  entries := rfl
  rules' := peers.rules
  entries' := peers.entries
  settings := rfl
  settings' := peers.settings
  node t := by rw [node?, node?, peers.nodes]
  formed := peers.formed
  told := peers.told
  remembers := peers.remembers
  remembers' := peers.remembers'

theorem kin (peers : Peers forms origin g h) (apart : Apart forms) (indexed : g.registry.Indexed) :
    (comparison forms origin g).Kin :=
  Registry.kinSelf indexed peers.inside apart

theorem remember (peers : Peers forms origin g h) (remembers : Verdicts.Like forms origin v)
    (remembers' : Verdicts.Like forms origin w) :
    Peers forms origin (g.withVerdicts v) (h.withVerdicts w) where
  __ := peers
  registry := by
    show { h.registry with verdicts := w } = { g.registry with verdicts := w }
    rw [peers.registry]
  told := by
    have telling : Event.telling { g.registry with verdicts := v } = Event.telling g.registry :=
      Event.tellingKept rfl
    show g.journal.map (Event.telling { g.registry with verdicts := v }) =
      h.journal.map (Event.telling { g.registry with verdicts := v })
    rw [telling, peers.told]
  remembers := remembers
  remembers' := remembers'

theorem check (peers : Peers forms origin g h) (flag : Bool) :
    Peers forms origin { g with isFinalized := flag } { h with isFinalized := flag } where
  __ := peers
  finalized := rfl

theorem track (peers : Peers forms origin g h) (inside : t ∈ forms) :
    Peers forms origin (g.track t) (h.track t) where
  __ := peers
  nodes := congrArg (Node.track t) peers.nodes
  formed := (peers.twin.track inside).formed

theorem tracks {ts : List TypeRef} (peers : Peers forms origin g h) (inside : ∀ t ∈ ts, t ∈ forms) :
    Peers forms origin (ts.foldl Graph.track g) (ts.foldl Graph.track h) := by
  induction ts generalizing g h with
  | nil => exact peers
  | cons t rest ih =>
    obtain ⟨here, tail⟩ := List.forall_mem_cons.mp inside
    exact ih (peers.track here) tail

theorem registered {r r' : Registry} (peers : Peers forms origin g h) (orderly : g.Orderly) (orderly' : h.Orderly)
    (registry : r' = { r with verdicts := r'.verdicts }) (rules : g.registry.rules <+: r.rules)
    (frozen : r.isFrozen = g.registry.isFrozen) (inside : ∀ m ∈ r.mentions, m ∈ forms)
    (remembers : Verdicts.Like forms origin r.verdicts) (remembers' : Verdicts.Like forms origin r'.verdicts) :
    Peers forms origin { g with registry := r } { h with registry := r' } where
  registry := registry
  settings := peers.settings
  nodes := peers.nodes
  finalized := peers.finalized
  told := by
    have kept := orderly.tellingKept rules
    have kept' := orderly'.tellingKept (r := r) (peers.rules ▸ rules)
    rw [Event.tellingKept peers.rules] at kept'
    exact kept.trans (peers.told.trans kept'.symm)
  remembers := remembers
  remembers' := remembers'
  formed := peers.formed
  inside := inside
  closed freezes := frozen.trans (peers.closed freezes)

theorem register (peers : Peers forms origin g h) (apart : Apart forms) (sound : g.registry.Sound)
    (orderly : g.Orderly) (orderly' : h.Orderly) {rule : Rule} (inside : ∀ t ∈ rule.mentions, t ∈ forms) :
    (h.register rule).1 = (g.register rule).1 ∧ Peers forms origin (g.register rule).2 (h.register rule).2 := by
  have started : h.hasStarted rule.subject = g.hasStarted rule.subject := by
    simp only [hasStarted, progress?, node?, peers.nodes]
  have learnt := Registry.registerLike apart inside peers.remembers
  have learnt' := Registry.registerLike apart inside peers.remembers'
  obtain ⟨same, left⟩ := g.registry.registerOver rule
    (Registry.checkContractsAlike rule.locator apart inside peers.remembers peers.remembers')
  rw [← peers.registry] at same left
  have answered := fun rules frozen mentioned => peers.registered orderly orderly' left rules frozen mentioned
    learnt learnt'
  unfold Graph.register
  rw [started]
  rcases answer' : h.registry.register rule with ⟨outcome, r'⟩
  rw [answer'] at same answered
  obtain ⟨verdicts, _, _, ⟨refusal, answer⟩ | ⟨answer, _⟩⟩ := Registry.registerCases sound rule <;>
    rw [answer] at same answered ⊢ <;> cases (show outcome = _ from same) <;> split
  · exact ⟨rfl, peers⟩
  · exact ⟨rfl, answered (List.prefix_refl _) rfl peers.inside⟩
  · exact ⟨rfl, peers⟩
  · have grown := answered (List.prefix_append _ _) rfl fun m member => by
      rw [Registry.mentionsInsert] at member
      exact (List.mem_append.mp member).elim (peers.inside m) (inside m)
    exact ⟨rfl, (grown.tracks inside).check false⟩

theorem subjects (peers : Peers forms origin g h) (resting : g.Resting) : ∀ t ∈ g.subjects, t ∈ forms := by
  intro t member
  obtain ⟨n, listed, rfl⟩ := List.mem_map.mp member
  exact peers.formed _ n (nodeMember resting.coherent.distinct listed)

theorem finalize (peers : Peers forms origin g h) (apart : Apart forms) (resting : g.Resting) :
    Alike (Peers forms origin) g.finalize h.finalize := by
  have listed : h.subjects = g.subjects := by rw [Graph.subjects, peers.nodes, ← Graph.subjects]
  have sources := checkSourcesAlike (peers.kin apart resting.coherent.sound.indexed) g
    (peers.subjects resting) peers.remembers peers.remembers'
  have answer : g.finalize.1 = h.finalize.1 := by
    rw [finalizeAnswer, finalizeAnswer, peers.same.checkSources, peers.same.order, listed, sources.1]
  refine ⟨answer, ?_⟩
  rw [finalizeLeaves g, finalizeLeaves h, peers.same.checkSources, listed, ← answer, peers.finalized]
  exact (peers.remember sources.2.1 sources.2.2).check _

theorem plan (peers : Peers forms origin g h) (apart : Apart forms) (indexed : g.registry.Indexed)
    (inside : t ∈ forms) : Peers forms origin (g.plan t).2 (h.plan t).2 := by
  have planned := (Comparison.planAlike (peers.kin apart indexed) peers.twin inside).2
  obtain ⟨_, d, _, answer⟩ := g.planRun t
  obtain ⟨_, d', _, answer'⟩ := h.planRun t
  rw [answer, answer'] at planned ⊢
  exact peers.remember planned.remembers planned.remembers'

theorem opened (peers : Peers forms origin g h) : Peers forms origin g.opened h.opened := by
  rw [openedClosed peers.closed, openedClosed (by rw [peers.settings, peers.registry]; exact peers.closed)]
  exact { peers with }

theorem start (peers : Peers forms origin g h) (apart : Apart forms) (resting : g.Resting) :
    Alike (Peers forms origin) g.start h.start := by
  have opened := peers.opened
  rw [startOpened, startOpened, peers.settings, peers.finalized]
  split
  · exact opened.finalize apart (g.openedStays.resting resting)
  · exact ⟨rfl, opened⟩

theorem grow (peers : Peers forms origin g h) (grows : g.Grows g₁) (grows' : h.Grows h₁)
    (twin : (comparison forms origin g).Twin g₁ h₁) (nodes : h₁.nodes = g₁.nodes) :
    Peers forms origin g₁ h₁ where
  registry := by rw [grows'.registry, peers.registry, grows.registry]
  settings := by rw [grows'.settings, peers.settings, grows.settings]
  nodes := nodes
  finalized := by rw [grows'.finalized, peers.finalized, grows.finalized]
  told := by
    rw [Event.tellingKept grows.rules]
    exact twin.told
  remembers := twin.remembers
  remembers' := twin.remembers'
  formed := twin.formed
  inside m member := peers.inside m (by rwa [Registry.mentions, grows.rules] at member)
  closed freezes := by
    rw [grows.registry]
    exact peers.closed (grows.settings ▸ freezes)

theorem realize (peers : Peers forms origin g h) (apart : Apart forms) (resting : g.Resting)
    (resting' : h.Resting) (inside : t ∈ forms) : Alike (Peers forms origin) (g.realize t) (h.realize t) := by
  have rested := g.startStays.resting resting
  have rested' := h.startStays.resting resting'
  obtain ⟨fault, g₀, h₀, opening, opening', left⟩ | ⟨_, g₀, h₀, opening, opening', left⟩ :=
    (peers.start apart resting).cases <;> rw [opening] at rested <;> rw [opening'] at rested'
  · unfold Graph.realize
    rw [opening, opening']
    exact ⟨rfl, left⟩
  · have kin := left.kin apart rested.coherent.sound.indexed
    obtain ⟨answer, twin⟩ := Comparison.requestAlike kin left.twin inside opening opening'
    obtain ⟨_, work⟩ := realizeWork opening rested.coherent.sound.indexed t
    obtain ⟨_, work'⟩ := realizeWork opening' rested'.coherent.sound.indexed t
    refine ⟨answer, left.grow work.grows work'.grows twin ?_⟩
    have names := work.requestNames rested.coherent.sound.indexed rested.coherent.tracked
    have names' := work'.requestNames rested'.coherent.sound.indexed rested'.coherent.tracked
    refine nodesSame (work.resting rested rfl).coherent.distinct (work'.resting rested' rfl).coherent.distinct
      ?_ twin.node
    rw [names, names', ← left.twin.resolve kin, Graph.names, Graph.names,
      (left.track (left.twin.resolved kin inside)).nodes]

theorem realizeEach (peers : Peers forms origin g h) (apart : Apart forms) (resting : g.Resting)
    (resting' : h.Resting) {ts : List TypeRef} (inside : ∀ t ∈ ts, t ∈ forms) :
    Peers forms origin (Graph.realizeEach ts g).2 (Graph.realizeEach ts h).2 := by
  induction ts generalizing g h with
  | nil => exact peers
  | cons t rest ih =>
    obtain ⟨here, tail⟩ := List.forall_mem_cons.mp inside
    rw [realizeEachNext, realizeEachNext]
    exact ih (peers.realize apart resting resting' here).2 (realizeResting resting t)
      (realizeResting resting' t) tail

theorem perform (peers : Peers forms origin g h) (apart : Apart forms) (reachable : g.Reachable)
    (reachable' : h.Reachable) {operation : Operation} (inside : ∀ t ∈ operation.types, t ∈ forms) :
    Peers forms origin (g.perform operation) (h.perform operation) := by
  have resting := reachable.resting
  cases operation with
  | register rule =>
    exact (peers.register apart resting.coherent.sound reachable.orderly reachable'.orderly inside).2
  | finalize => exact (peers.finalize apart resting).2
  | plan t => exact peers.plan apart resting.coherent.sound.indexed (inside t List.mem_cons_self)
  | realize t => exact (peers.realize apart resting reachable'.resting (inside t List.mem_cons_self)).2
  | realizeAll =>
    have listed : h.subjects = g.subjects := by rw [Graph.subjects, peers.nodes, ← Graph.subjects]
    show Peers forms origin (Graph.realizeEach g.subjects g).2 (Graph.realizeEach h.subjects h).2
    rw [listed]
    exact peers.realizeEach apart resting reachable'.resting (peers.subjects resting)

theorem run (peers : Peers forms origin g h) (apart : Apart forms) (reachable : g.Reachable)
    (reachable' : h.Reachable) (operations : List Operation)
    (inside : ∀ t ∈ operations.flatMap Operation.types, t ∈ forms) :
    Peers forms origin (g.run operations) (h.run operations) ∧ (g.run operations).Reachable ∧
      (h.run operations).Reachable := by
  induction operations generalizing g h with
  | nil => exact ⟨peers, reachable, reachable'⟩
  | cons operation rest ih =>
    rw [List.flatMap_cons, List.forall_mem_append] at inside
    exact ih (peers.perform apart reachable reachable' inside.1) (reachable.perform operation)
      (reachable'.perform operation) inside.2

end Peers

end Graph

end Realization
