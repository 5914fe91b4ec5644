import Realization.Proofs.Footprint
import Realization.Proofs.Foresight

/-!
What requests and plans that succeed leave behind: some types are realized now, all others are as they were, and
no refusal is in memory that was not there before. And a plan that succeeds gathers all that its type depends on.
-/
namespace Realization.Graph

variable {limit left : Nat} {stack : List TypeRef} {duties : List Duty} {own own₁ : Option Element}
  {g g' h : Graph} {s t : TypeRef} {via : Option Locator} {v : Verdicts} {contract : Contract}
  {visit : Visiting} {d d' d₁ e : Draft} {inside : String → Prop} {steps : List Step}

theorem Work.noHarsher (work : Work limit stack duties own g (.ok own₁) g') :
    g.registry.verdicts.NoHarsher g'.registry.verdicts := by
  generalize answer : Except.ok own₁ = outcome at work
  induction work generalizing own₁ with
  | done => exact Verdicts.noHarsherRefl _
  | synthesized made _ ih => exact (contractForNoHarsher made).trans (ih answer)
  | ran _ _ _ _ _ _ ih => exact ih answer
  | present _ _ _ ih => exact ih answer
  | built _ _ _ _ _ ih ih' => exact (ih rfl).trans (ih' answer)
  | unsynthesized | lacking | broke | failed | cyclic | deep | unbuilt => contradiction

/- What requests and plans that succeed leave of a graph: some types have been realized meanwhile, all others
are as they were. -/
structure Advances (g h : Graph) : Prop where
  rules : h.registry.rules = g.registry.rules
  entries : h.registry.entries = g.registry.entries
  settings : h.settings = g.settings
  standing : ∀ t, h.standing t = g.standing t ∨ g.standing t = .unrealized ∧ ∃ e, h.standing t = .realized e
  node : ∀ t, h.standing t = .unrealized → h.node? t = g.node? t
  verdicts : g.registry.verdicts.Within h.registry.verdicts
  noHarsher : g.registry.verdicts.NoHarsher h.registry.verdicts

theorem Advances.leads (advances : g.Advances h) (t : TypeRef) : (g.standing t).Leads (h.standing t) :=
  (advances.standing t).imp_right fun ⟨fresh, realized⟩ => ⟨fresh, .inr realized⟩

theorem Advances.trans (first : g.Advances g') (second : g'.Advances h) : g.Advances h where
  rules := second.rules.trans first.rules
  entries := second.entries.trans first.entries
  settings := second.settings.trans first.settings
  standing t := by
    rcases second.standing t with same | ⟨fresh, realized⟩
    · rw [same]
      exact first.standing t
    · rcases first.standing t with same | ⟨_, e, held⟩
      · exact .inr ⟨same.symm.trans fresh, realized⟩
      · rw [held] at fresh
        contradiction
  node t fresh := (second.node t fresh).trans (first.node t ((second.leads t).fresh fresh))
  verdicts := first.verdicts.trans second.verdicts
  noHarsher := first.noHarsher.trans second.noHarsher

theorem advancesRefl (g : Graph) : g.Advances g :=
  ⟨rfl, rfl, rfl, fun _ => .inl rfl, fun _ _ => rfl, g.registry.verdicts.withinRefl, Verdicts.noHarsherRefl _⟩

theorem Stays.advances (stays : g.Stays h) (noHarsher : g.registry.verdicts.NoHarsher h.registry.verdicts) :
    g.Advances h where
  rules := stays.rules
  entries := stays.entries
  settings := stays.settings
  standing t := .inl (stays.standing t)
  node t _ := stays.node t
  verdicts := stays.verdicts
  noHarsher := noHarsher

theorem Work.advances (work : Work limit stack [.input via t] own g (.ok own₁) h) (indexed : g.registry.Indexed)
    (tracked : g.Tracked) : g.Advances h where
  rules := work.grows.rules
  entries := work.grows.entries
  settings := work.grows.settings
  standing u := by
    rcases work.grows.standing u with same | ⟨fresh, failed | realized⟩
    · exact .inl same
    · rw [work.unfailed, fresh] at failed
      contradiction
    · exact .inr ⟨fresh, realized⟩
  node u fresh := by
    have other : t.name ≠ u.name := by
      intro named
      obtain ⟨e, held⟩ := work.obtained indexed (List.mem_singleton_self _)
      rw [storedIff, standingCongr named, fresh] at held
      contradiction
    rcases work.otherNode indexed tracked other with same | ⟨n, ended, _, _, rfl | ⟨e, rfl⟩, found⟩
    · exact same
    · rw [nodeStanding found] at fresh
      contradiction
    · rw [nodeStanding found] at fresh
      contradiction
  verdicts := work.grows.verdicts
  noHarsher := work.noHarsher

theorem realizeAdvances (resting : g.Resting) {e : Element} (answer : (g.realize t).1 = .ok e) :
    g.Advances (g.realize t).2 := by
  have started := g.startStays.resting resting
  rcases opening : g.start with ⟨fault | _, h⟩
  · simp only [realize, opening] at answer
    contradiction
  · have opened : g.Advances g.start.2 := g.startStays.advances (startNoHarsher (by rw [opening]))
    rw [opening] at started opened
    obtain ⟨result, h', work, ⟨_, rfl, told, _⟩ | ⟨_, _, told⟩⟩ :=
      realizeRun opening started.coherent.sound.indexed t <;> rw [told] at answer ⊢
    · exact opened.trans (work.advances started.coherent.sound.indexed started.coherent.tracked)
    · contradiction

namespace Advances

theorem fresh (advances : g.Advances h) (fresh : g.standing t = .unrealized) (missing : h.stored t = none) :
    h.standing t = .unrealized := by
  rcases advances.standing t with same | ⟨_, e, held⟩
  · exact same.trans fresh
  · rw [storedIff.mpr held] at missing
    contradiction

theorem stored (advances : g.Advances h) {e : Element} (held : g.stored t = some e) : h.stored t = some e :=
  storedLeads (advances.leads t) held

theorem resolve (advances : g.Advances h) (fresh : h.standing t = .unrealized) : h.resolve t = g.resolve t := by
  simp only [Graph.resolve, Registry.resolve?, Registry.entry?, advances.node t fresh, advances.entries]

end Advances

theorem visitNodePlans (resting : g.Resting) {room : Nat} :
    visitNode g room stack via t d = (.ok (), d') ↔
      (∃ e, g.standing t = .realized e) ∧ d' = d ∨
      g.standing t = .unrealized ∧ (d.isDone t = true ∧ d' = d ∨
        d.isDone t = false ∧ stack.any (·.same t) = false ∧ ∃ left d₁, room = left + 1 ∧
          planDuties (visitNode g left (stack ++ [g.resolve t])) (g.registry.duties stack via (g.resolve t)) d =
            (.ok (), d₁) ∧ d' = d₁.finish (g.resolve t)) := by
  have indexed := resting.coherent.sound.indexed
  rw [visitNodeNamed indexed]
  cases standing : g.standing t with
  | realizing => exact absurd standing (resting.quiet t)
  | failed => simp
  | realized e => simp [@eq_comm _ d' d]
  | unrealized =>
    cases d.isDone t with
    | true => simp [@eq_comm _ d' d]
    | false =>
      cases stack.any (·.same t) with
      | true => simp
      | false =>
        cases room with
        | zero => simp
        | succ room =>
          rcases planned : planDuties (visitNode g room (stack ++ [g.resolve t]))
            (g.registry.duties stack via (g.resolve t)) d with ⟨fault | _, d₁⟩
          · simp [planned]
          · simp [planned, @eq_comm _ d']

structure Gathers (inside : String → Prop) (d d' : Draft) : Prop where
  steps : ∃ more, d'.steps = d.steps ++ more ∧ ∀ step ∈ more, inside step.subject.name
  done : ∀ u, ¬ inside u.name → d'.isDone u = d.isDone u
  noHarsher : d.verdicts.NoHarsher d'.verdicts

theorem gathersRefl (inside : String → Prop) (d : Draft) : Gathers inside d d :=
  ⟨⟨[], by simp⟩, fun _ _ => rfl, d.verdicts.noHarsherRefl⟩

theorem Gathers.trans (first : Gathers inside d d₁) (second : Gathers inside d₁ d') : Gathers inside d d' where
  steps := by
    obtain ⟨more, whole, among⟩ := first.steps
    obtain ⟨more', whole', among'⟩ := second.steps
    refine ⟨more ++ more', by rw [whole', whole, List.append_assoc], fun step member => ?_⟩
    exact (List.mem_append.mp member).elim (among step) (among' step)
  done u outside := (second.done u outside).trans (first.done u outside)
  noHarsher := first.noHarsher.trans second.noHarsher

theorem gathersStep (here : inside s.name) (kind : Step.Kind) (rule : Option Locator) (d : Draft) :
    Gathers inside d (d.step kind s rule) where
  steps := ⟨[⟨kind, s, rule⟩], rfl, fun _ member => List.mem_singleton.mp member ▸ here⟩
  done _ _ := rfl
  noHarsher := d.verdicts.noHarsherRefl

theorem gathersRemember (noHarsher : d.verdicts.NoHarsher v) : Gathers inside d { d with verdicts := v } :=
  ⟨⟨[], by simp⟩, fun _ _ => rfl, noHarsher⟩

theorem gathersFinish (here : inside s.name) (d : Draft) : Gathers inside d (d.finish s) where
  steps := ⟨[], by simp [Draft.finish]⟩
  done u outside := by
    refine Draft.finishOther (fun named => outside ?_) d
    rw [← named]
    exact here
  noHarsher := d.verdicts.noHarsherRefl

theorem planDutiesGathers
    (visits : ∀ via t, .input via t ∈ duties → ∀ {d d'}, visit via t d = (.ok (), d') → Gathers inside d d')
    (owners : ∀ duty ∈ duties, ∀ u, duty.owner? = some u → inside u.name)
    (planned : planDuties visit duties d = (.ok (), d')) : Gathers inside d d' := by
  induction duties generalizing d with
  | nil =>
    cases planned
    exact gathersRefl inside _
  | cons duty rest ih =>
    obtain ⟨own, later⟩ := List.forall_mem_cons.mp owners
    have onward := fun {d : Draft} (planned : planDuties visit rest d = (.ok (), d')) =>
      ih (fun via t member => visits via t (List.mem_cons_of_mem _ member)) later planned
    cases duty with
    | synthesize s =>
      obtain ⟨contract, v, made, planned⟩ := planSynthesized.mp planned
      have synthesis := gathersStep (own s rfl) .synthesize none { d with verdicts := v }
      exact (gathersRemember (contractForNoHarsher made)).trans (synthesis.trans (onward planned))
    | input via t =>
      obtain ⟨d₁, visited, planned⟩ := planObtained.mp planned
      exact (visits via t List.mem_cons_self visited).trans (onward planned)
    | run s id rule =>
      exact (gathersStep (own s rfl) rule.body.stepKind (some rule.locator) d).trans (onward planned)
    | lack => cases planned

theorem visitNodeGathers (resting : g.Resting)
    (closed : ∀ {a b}, g.registry.Needs a b → inside a → inside b) (here : inside t.name) {room : Nat}
    (planned : visitNode g room stack via t d = (.ok (), d')) : Gathers inside d d' := by
  have indexed := resting.coherent.sound.indexed
  induction room using Nat.strongRecOn generalizing stack via t d d' with
  | ind room ih =>
    rcases (visitNodePlans resting).mp planned with ⟨_, rfl⟩ | ⟨_, ⟨_, rfl⟩ | ⟨_, _, left, d₁, rfl, inner, rfl⟩⟩
    · exact gathersRefl inside d'
    · exact gathersRefl inside d'
    · have own : inside (g.resolve t).name := by
        rw [resolveName indexed]
        exact here
      have inputs : ∀ via' i, .input via' i ∈ g.registry.duties stack via (g.resolve t) → ∀ {d d'},
          visitNode g left (stack ++ [g.resolve t]) via' i d = (.ok (), d') → Gathers inside d d' := by
        intro via' i member d d' visited
        exact ih left (Nat.lt_succ_self left) (closed (indexed.dutyAsks member).2.needs own) visited
      have owners : ∀ duty ∈ g.registry.duties stack via (g.resolve t), ∀ u, duty.owner? = some u →
          inside u.name := by
        intro duty member u owned
        rw [indexed.dutyOwner member owned]
        exact own
      exact (planDutiesGathers inputs owners inner).trans (gathersFinish own d₁)

theorem planAdvances (resting : g.Resting) (planned : (g.plan t).1 = .ok steps) : g.Advances (g.plan t).2 := by
  obtain ⟨d, visited, _⟩ := planVisits.mp planned
  have learnt : (g.plan t).2.registry.verdicts = d.verdicts := by
    unfold plan
    rw [visited]
    rfl
  have anywhere : Gathers (fun _ => True) { verdicts := g.registry.verdicts } d :=
    visitNodeGathers resting (fun _ _ => trivial) trivial visited
  refine (planStays resting.coherent.sound.indexed t).advances ?_
  rw [learnt]
  exact anywhere.noHarsher

end Realization.Graph
