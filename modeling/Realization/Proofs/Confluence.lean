import Realization.Proofs.Justification

/-!
The order of requests does not matter. No mark contradicts what the rules settle beforehand, and once everything
was asked for every type has come to one of the two ends: it holds the element that the rules yield, or it has
failed and is to blame.
-/
namespace Realization.Graph

variable {g₀ g g₁ g' h : Graph} {s t u : TypeRef} {via : Option Locator} {limit : Nat} {own : Option Element}
  {result : Except Fault (Option Element)} {e : Element}

def Settled (g : Graph) (t : TypeRef) : Prop :=
  (∃ e, g.standing t = .realized e) ∨ g.standing t = .failed

theorem Grows.settled (grows : g.Grows g') (settled : g.Settled t) : g'.Settled t := by
  rcases settled with ⟨e, held⟩ | failed
  · exact .inl ⟨e, storedIff.mp (grows.stored (storedIff.mpr held))⟩
  · exact .inr (grows.failed failed)

theorem Work.settles {via : Option Locator} (work : Work limit [] [.input via t] own g result g')
    (resting : g.Resting) (bounded : g.settings.maxDepth = limit) : g'.Settled t := by
  have indexed := resting.coherent.sound.indexed
  cases work with
  | @present _ _ _ _ _ _ e _ _ asks settled later =>
    exact later.grows.settled (.inl ⟨e, by simpa [indexed] using settled⟩)
  | failed asks settled => exact .inr (by simpa [indexed] using settled)
  | cyclic asks busy => exact absurd busy (resting.quiet _)
  | deep asks fresh full =>
    rw [← bounded] at full
    exact absurd resting.coherent.depth (Nat.not_lt.mpr full)
  | @built _ _ _ _ _ _ e g₁ _ _ asks fresh free inner later =>
    exact later.grows.settled (.inl ⟨e, by simp [standingSettle inner.grows, indexed]⟩)
  | unbuilt asks fresh free inner => exact .inr (by simp [standingSettle inner.grows, indexed])

structure Led (g₀ g : Graph) : Prop where
  resting : g.Resting
  steady : g₀.Steady g
  just : g₀.Just g
  unchecked : g.settings.finalizeBeforeRealize = false
  small : g.nodes.length ≤ g.settings.maxDepth

theorem Stays.steady (stays : g.Stays g') (steady : g₀.Steady g) : g₀.Steady g' where
  rules := stays.rules.trans steady.rules
  entries := stays.entries.trans steady.entries
  subjects := by
    unfold Graph.subjects
    rw [stays.nodes]
    exact steady.subjects
  verdicts := steady.verdicts.trans stays.verdicts

theorem Led.stays (led : g₀.Led g) (stays : g.Stays g') : g₀.Led g' where
  resting := stays.resting led.resting
  steady := stays.steady led.steady
  just := led.just.congr stays.standing
  unchecked := by rw [stays.settings]; exact led.unchecked
  small := by
    rw [stays.nodes, stays.settings]
    exact led.small

theorem Led.realize (pristine : g₀.Pristine) (led : g₀.Led g) (admits : g₀.Admits t) :
    g₀.Led (g.realize t).2 ∧ (g.realize t).2.Settled t ∧
      ∀ u, g.Settled u → (g.realize t).2.Settled u := by
  have opening := startPasses (.inl led.unchecked)
  have stays := g.openedStays
  have started : g₀.Led g.opened := led.stays stays
  have underway := started.resting.underway started.small
  have fit : Fit g₀ g.opened [.input none t] := by
    refine ⟨fun via u member => ?_, by simp, by simp⟩
    cases List.mem_singleton.mp member
    exact admits
  have knows := fit.knows started.steady
  obtain ⟨_, work⟩ := realizeWork opening started.resting.coherent.sound.indexed t
  obtain ⟨steady, just, _⟩ := work.just pristine underway started.steady fit started.just
  obtain ⟨inside, _⟩ := work.underway underway knows
  refine ⟨⟨work.resting started.resting rfl, steady, just, ?_, ?_⟩, work.settles started.resting rfl,
    fun u settled => work.grows.settled ?_⟩
  · rw [work.grows.settings]
    exact started.unchecked
  · rw [work.grows.settings]
    exact inside.small
  · unfold Settled
    rw [stays.standing]
    exact settled

theorem Led.realizeEach (pristine : g₀.Pristine) (led : g₀.Led g) {ts : List TypeRef}
    (admits : ∀ t ∈ ts, g₀.Admits t) :
    g₀.Led (realizeEach ts g).2 ∧ (∀ t ∈ ts, (realizeEach ts g).2.Settled t) ∧
      ∀ u, g.Settled u → (realizeEach ts g).2.Settled u := by
  induction ts generalizing g with
  | nil => exact ⟨led, by simp, fun _ settled => settled⟩
  | cons t rest ih =>
    obtain ⟨first, here, kept⟩ := led.realize pristine (admits t List.mem_cons_self)
    obtain ⟨later, others, held⟩ := ih first fun u member => admits u (List.mem_cons_of_mem _ member)
    rw [realizeEachNext]
    refine ⟨later, fun u member => ?_, fun u settled => held u (kept u settled)⟩
    rcases List.mem_cons.mp member with rfl | member
    · exact held _ here
    · exact others u member

theorem Led.realizing (pristine : g₀.Pristine) (led : g₀.Led g) {ts : List TypeRef}
    (admits : ∀ t ∈ ts, g₀.Admits t) : g₀.Led (g.realizing ts) := by
  induction ts using List.reverseRecOn with
  | nil => exact led
  | append_singleton ts t ih =>
    rw [realizingSnoc]
    exact ((ih fun u member => admits u (List.mem_append_left _ member)).realize pristine
      (admits t (by simp))).1

theorem nodesStanding (distinct : (g.nodes.map (·.subject.name)).Nodup) :
    g.nodes = g.subjects.map fun s => ⟨s, g.standing s⟩ := by
  have each : ∀ n ∈ g.nodes, (⟨n.subject, g.standing n.subject⟩ : Node) = n := by
    intro n member
    have progress : g.standing n.subject = n.progress :=
      progressStanding (by rw [progress?, nodeMember distinct member]; rfl)
    rw [progress]
  calc
    g.nodes = g.nodes.map id := (List.map_id _).symm
    _ = g.nodes.map fun n => ⟨n.subject, g.standing n.subject⟩ :=
      List.map_congr_left fun n member => (each n member).symm
    _ = g.subjects.map fun s => ⟨s, g.standing s⟩ := by
      unfold subjects
      rw [List.map_map]
      rfl

theorem Led.ends (pristine : g₀.Pristine) (led : g₀.Led h) (settled : h.Settled t) :
    (∃ e, h.standing t = .realized e ∧ g₀.Yields t e ∧ ¬ g₀.Blamed t) ∨
      h.standing t = .failed ∧ g₀.Blamed t := by
  rcases settled with ⟨e, held⟩ | failed
  · have yields := (led.just t).1 e held
    exact .inl ⟨e, held, yields,
      yields.blameless pristine.coherent.sound pristine.coherent.tracked⟩
  · exact .inr ⟨failed, (led.just t).2 failed⟩

theorem Led.agree (pristine : g₀.Pristine) (first : g₀.Led g) (second : g₀.Led h)
    (settled : g.Settled t) (settled' : h.Settled t) : g.standing t = h.standing t := by
  rcases first.ends pristine settled with ⟨e, held, yields, blameless⟩ | ⟨failed, blamed⟩ <;>
    rcases second.ends pristine settled' with ⟨e', held', yields', blameless'⟩ | ⟨failed', blamed'⟩
  · rw [held, held', yields.unique pristine.coherent.sound yields']
  · exact absurd blamed' blameless
  · exact absurd blamed blameless'
  · rw [failed, failed']

structure Fresh (g : Graph) : Prop where
  reachable : g.Reachable
  unrealized : ∀ n ∈ g.nodes, n.progress = .unrealized
  small : g.nodes.length ≤ g.settings.maxDepth
  unchecked : g.settings.finalizeBeforeRealize = false

theorem steadyRefl (g : Graph) : g.Steady g := ⟨rfl, rfl, rfl, g.registry.verdicts.withinRefl⟩

theorem Fresh.pristine (start : g.Fresh) : g.Pristine :=
  ⟨start.reachable.resting.coherent, freshStanding start.unrealized⟩

theorem Fresh.led (start : h.Fresh) (steady : g.Steady h) : g.Led h where
  resting := start.reachable.resting
  steady := steady
  just t := by
    rw [start.pristine.fresh t]
    exact ⟨fun e impossible => by contradiction, fun impossible => by contradiction⟩
  unchecked := start.unchecked
  small := start.small

theorem Pristine.admits (pristine : g.Pristine) (known : g.resolve t ∈ g.subjects) : g.Admits t := by
  obtain ⟨n, member, form⟩ := List.mem_map.mp known
  have found := nodeMember pristine.coherent.distinct member
  rw [form, nodeCongr (resolveName pristine.coherent.sound.indexed t)] at found
  exact ⟨n, found, fun managed => by rw [form]; exact managed⟩

theorem Fresh.completed (start : g.Fresh) (start' : h.Fresh) (steady : g.Steady h) {ts : List TypeRef}
    (known : ∀ t ∈ ts, g.resolve t ∈ g.subjects) :
    g.Led (h.realizing ts).realizeAll.2 ∧
      ∀ t ∈ g.subjects, (h.realizing ts).realizeAll.2.Settled t := by
  have pristine := start.pristine
  have led := (start'.led steady).realizing pristine fun t member => pristine.admits (known t member)
  have every : ∀ t ∈ (h.realizing ts).subjects, g.Admits t := by
    rw [led.steady.subjects]
    intro t member
    exact pristine.admits (by rw [pristine.coherent.resolveSubject member]; exact member)
  obtain ⟨after, settled, _⟩ := led.realizeEach pristine every
  exact ⟨after, fun t member => settled t (by rw [led.steady.subjects]; exact member)⟩

theorem realizationConfluent (start : g.Fresh) (start' : h.Fresh) (steady : g.Steady h)
    {ts us : List TypeRef} (known : ∀ t ∈ ts, g.resolve t ∈ g.subjects)
    (known' : ∀ t ∈ us, g.resolve t ∈ g.subjects) :
    (g.realizing ts).realizeAll.2.nodes = (h.realizing us).realizeAll.2.nodes ∧
    ∀ n ∈ (g.realizing ts).realizeAll.2.nodes,
      ((∃ e, n.progress = .realized e) ↔ ¬ g.Blamed n.subject) ∧
      (n.progress = .failed ↔ g.Blamed n.subject) := by
  have pristine := start.pristine
  obtain ⟨led, settled⟩ := start.completed start (steadyRefl g) known
  obtain ⟨led', settled'⟩ := start.completed start' steady known'
  constructor
  · rw [nodesStanding led.resting.coherent.distinct, nodesStanding led'.resting.coherent.distinct,
      led.steady.subjects, led'.steady.subjects]
    refine List.map_congr_left fun t member => ?_
    rw [led.agree pristine led' (settled t member) (settled' t member)]
  · intro n member
    have progress : (g.realizing ts).realizeAll.2.standing n.subject = n.progress :=
      progressStanding (by rw [progress?, nodeMember led.resting.coherent.distinct member]; rfl)
    have listed : n.subject ∈ g.subjects := by
      rw [← led.steady.subjects]
      exact List.mem_map_of_mem member
    rw [← progress]
    rcases led.ends pristine (settled _ listed) with ⟨e, held, _, blameless⟩ | ⟨failed, blamed⟩
    · simp [held, blameless]
    · simp [failed, blamed]

theorem smallSessionFresh : (smallSession []).Fresh :=
  ⟨smallSessionReachable [], by decide +kernel, by decide +kernel, rfl⟩

theorem realizationConfluentList :
    ((smallSession []).realizing [.plain "List"]).realizeAll.2.nodes =
        ((smallSession []).realizing [.plain "Text", .plain "List"]).realizeAll.2.nodes ∧
      ∀ n ∈ ((smallSession []).realizing [.plain "List"]).realizeAll.2.nodes,
        ((∃ e, n.progress = .realized e) ↔ ¬ (smallSession []).Blamed n.subject) ∧
        (n.progress = .failed ↔ (smallSession []).Blamed n.subject) :=
  realizationConfluent smallSessionFresh smallSessionFresh (steadyRefl _) (by decide +kernel)
    (by decide +kernel)

end Realization.Graph
