import Realization.Proofs.Advances

/-!
Plans shrink as types are realized. What has been realized is closed under needs, so the walk over the other
types takes the same turns as before and at the same depth; it only passes over what is realized now. Whatever
contract an earlier plan counted on can still be had.
-/
namespace Realization.Graph

variable {left : Nat} {stack : List TypeRef} {duties : List Duty} {own : Option Element} {g h : Graph}
  {s t : TypeRef} {via : Option Locator} {v w : Verdicts} {contract : Contract} {visit visit' : Visiting}
  {d d' d₁ e : Draft} {steps : List Step}

def awaits (h : Graph) (step : Step) : Bool := (h.stored step.subject).isNone

def Holds (h : Graph) (a : String) : Prop := ∃ e, h.stored (.plain a) = some e

theorem holdsIff : h.Holds t.name ↔ ∃ e, h.stored t = some e := by
  have same : h.stored (.plain t.name) = h.stored t := by
    rw [Graph.stored, standingCongr (show TypeRef.name (.plain t.name) = t.name from rfl)]
    rfl
  rw [Holds, same]

/- A draft made on `g` and the one made on `h` at the same point of the walk: the second lacks the steps that
`h` no longer needs, and on the types that `h` has yet to realize they agree. -/
structure Abridged (g h : Graph) (d e : Draft) : Prop where
  steps : e.steps = d.steps.filter h.awaits
  done : ∀ t, h.stored t = none → e.isDone t = d.isDone t
  verdicts : g.registry.verdicts.Within d.verdicts
  verdicts' : g.registry.verdicts.Within e.verdicts

namespace Abridged

theorem step (abridged : Abridged g h d e) (missing : h.stored s = none) (kind : Step.Kind)
    (rule : Option Locator) : Abridged g h (d.step kind s rule) (e.step kind s rule) where
  __ := abridged
  steps := by
    have kept : h.awaits ⟨kind, s, rule⟩ = true := by rw [awaits, missing]; rfl
    simp [Draft.step, abridged.steps, List.filter_append, kept]

theorem remember (abridged : Abridged g h d e) (within : d.verdicts.Within v) (within' : e.verdicts.Within w) :
    Abridged g h { d with verdicts := v } { e with verdicts := w } :=
  ⟨abridged.steps, abridged.done, abridged.verdicts.trans within, abridged.verdicts'.trans within'⟩

theorem finish (abridged : Abridged g h d e) (s : TypeRef) : Abridged g h (d.finish s) (e.finish s) where
  __ := abridged
  done t missing := by
    have agree := abridged.done t missing
    simp only [Draft.isDone, Draft.finish, List.any_append] at agree ⊢
    rw [agree]

theorem gathers (abridged : Abridged g h d e) (gathers : Gathers h.Holds d d')
    (within : d.verdicts.Within d'.verdicts) : Abridged g h d' e where
  steps := by
    obtain ⟨more, whole, among⟩ := gathers.steps
    have none : more.filter h.awaits = [] := by
      refine List.filter_eq_nil_iff.mpr fun step member => ?_
      obtain ⟨e, held⟩ := holdsIff.mp (among step member)
      simp [awaits, held]
    rw [abridged.steps, whole, List.filter_append, none, List.append_nil]
  done t missing := by
    rw [abridged.done t missing, gathers.done t]
    rintro held
    obtain ⟨e, held⟩ := holdsIff.mp held
    rw [missing] at held
    contradiction
  verdicts := abridged.verdicts.trans within
  verdicts' := abridged.verdicts'

end Abridged

def Follows (g h : Graph) (walk walk' : Draft → Except Fault Unit × Draft) : Prop :=
  ∀ {d e d'}, Abridged g h d e → walk d = (.ok (), d') → ∃ e', walk' e = (.ok (), e') ∧ Abridged g h d' e'

theorem planDutiesFollows
    (visits : ∀ via t, .input via t ∈ duties → Follows g h (visit via t) (visit' via t))
    (owners : ∀ duty ∈ duties, ∀ u, duty.owner? = some u → h.stored u = none)
    (silent : ∀ u, .synthesize u ∉ duties) :
    Follows g h (planDuties visit duties) (planDuties visit' duties) := by
  induction duties with
  | nil =>
    intro d e d' abridged planned
    cases planned
    exact ⟨e, rfl, abridged⟩
  | cons duty rest ih =>
    obtain ⟨own, later⟩ := List.forall_mem_cons.mp owners
    have onward : Follows g h (planDuties visit rest) (planDuties visit' rest) :=
      ih (fun via t member => visits via t (List.mem_cons_of_mem _ member)) later
        fun u member => silent u (List.mem_cons_of_mem _ member)
    intro d e d' abridged planned
    cases duty with
    | synthesize s => exact absurd List.mem_cons_self (silent s)
    | input via t =>
      obtain ⟨d₁, visited, planned⟩ := planObtained.mp planned
      obtain ⟨e₁, visited', between⟩ := visits via t List.mem_cons_self abridged visited
      obtain ⟨e', planned', after⟩ := onward between planned
      exact ⟨e', planObtained.mpr ⟨e₁, visited', planned'⟩, after⟩
    | run s id rule => exact onward (abridged.step (own s rfl) rule.body.stepKind (some rule.locator)) planned
    | lack => cases planned

theorem dutiesSynthesis (r : Registry) (below : List TypeRef) (via : Option Locator) (s : TypeRef) :
    ∃ rest, (∀ u, .synthesize u ∉ rest) ∧
      (r.duties below via s = rest ∨ r.duties below via s = .synthesize s :: rest) := by
  have own : ∀ id (rule : Rule) u, .synthesize u ∉ rule.duties s id := by simp [Rule.duties]
  have mutation : ∀ u, .synthesize u ∉ r.mutationDuties s := by simp [Registry.mutationDuties, Rule.duties]
  unfold Registry.duties Registry.creationDuties
  rcases r.creator? s with _ | ⟨id, rule⟩
  · cases s.isManaged with
    | true => exact ⟨r.mutationDuties s, mutation, .inr rfl⟩
    | false => exact ⟨_, by simp [mutation], .inl rfl⟩
  · have silent : ∀ u, .synthesize u ∉ rule.duties s id ++ r.mutationDuties s := by
      simp [own, mutation]
    dsimp only
    cases rule.isInitializer with
    | true => exact ⟨_, silent, .inr rfl⟩
    | false => exact ⟨_, silent, .inl rfl⟩

def Granted (g : Graph) (stack : List TypeRef) (via : Option Locator) (t : TypeRef) (v w : Verdicts) : Prop :=
  g.standing t = .unrealized → .synthesize (g.resolve t) ∈ g.registry.duties stack via (g.resolve t) →
    ∀ contract v', contractFor (g.resolve t) v = (.ok contract, v') →
      ∃ contract' w', contractFor (g.resolve t) w = (.ok contract', w')

theorem Abridged.granted (abridged : Abridged g h d e) (coherent : g.Coherent)
    (mentioned : t ∈ g.registry.mentions) : Granted g stack via t d.verdicts e.verdicts := by
  intro fresh member _ _ _
  have homed : g.registry.creator? t = none → (g.resolve t).isManaged = true →
      ∃ n, g.node? t = some n ∧ n.subject.isManaged = true := by
    intro _ managed
    obtain ⟨n, found, keeps⟩ := coherent.tracked.admits coherent.sound.indexed mentioned
    exact ⟨n, found, keeps managed⟩
  obtain ⟨declaration, form, accepts⟩ := coherent.synthesisAccepted fresh homed member
  obtain ⟨contract, made⟩ := contractForAccepted (accepts.within abridged.verdicts')
  exact ⟨contract, e.verdicts, by rw [form]; exact made⟩

theorem dutiesAbridged (indexed : g.registry.Indexed) (fresh : g.standing t = .unrealized)
    (missing : h.stored (g.resolve t) = none) (granted : Granted g stack via t d.verdicts e.verdicts)
    (visits : ∀ via' i, .input via' i ∈ g.registry.duties stack via (g.resolve t) →
      Follows g h (visit via' i) (visit' via' i))
    (abridged : Abridged g h d e)
    (planned : planDuties visit (g.registry.duties stack via (g.resolve t)) d = (.ok (), d')) :
    ∃ e', planDuties visit' (g.registry.duties stack via (g.resolve t)) e = (.ok (), e') ∧
      Abridged g h d' e' := by
  have owners : ∀ duty ∈ g.registry.duties stack via (g.resolve t), ∀ u, duty.owner? = some u →
      h.stored u = none := by
    intro duty member u owned
    rw [indexed.dutyOwner member owned]
    exact missing
  unfold Granted at granted
  obtain ⟨rest, silent, same | same⟩ := dutiesSynthesis g.registry stack via (g.resolve t) <;>
    rw [same] at planned granted visits owners ⊢
  · exact planDutiesFollows visits owners silent abridged planned
  · -- both memories learn a verdict here, perhaps not the same one, so only what both had stays in common
    obtain ⟨contract, v, made, planned⟩ := planSynthesized.mp planned
    obtain ⟨contract', w, made'⟩ := granted fresh List.mem_cons_self contract v made
    have within := contractForWithin (g.resolve t) d.verdicts
    have within' := contractForWithin (g.resolve t) e.verdicts
    rw [made] at within
    rw [made'] at within'
    have between := (abridged.remember within within').step missing .synthesize none
    have onward : Follows g h (planDuties visit rest) (planDuties visit' rest) :=
      planDutiesFollows (fun via' i member => visits via' i (List.mem_cons_of_mem _ member))
        (fun duty member => owners duty (List.mem_cons_of_mem _ member)) silent
    obtain ⟨e', planned', after⟩ := onward between planned
    exact ⟨e', planSynthesized.mpr ⟨contract', w, made', planned'⟩, after⟩

/- The walk on `h` passes over what is realized there, which reaches nothing else, and takes the same turns as
on `g` for all other types. The induction is on the room, which is the same on both sides. -/
theorem visitNodeAbridged (advances : g.Advances h) (resting : g.Resting) (rested : h.Resting) {room : Nat}
    (granted : Granted g stack via t d.verdicts e.verdicts) (abridged : Abridged g h d e)
    (planned : visitNode g room stack via t d = (.ok (), d')) :
    ∃ e', visitNode h room stack via t e = (.ok (), e') ∧ Abridged g h d' e' := by
  have indexed := resting.coherent.sound.indexed
  induction room using Nat.strongRecOn generalizing stack via t d e d' with
  | ind room ih =>
    cases held : h.stored t with
    | some x =>
      -- on `g` the walk may go below `t` here, but never to a type that `h` has yet to realize
      have closed : ∀ {a b}, g.registry.Needs a b → h.Holds a → h.Holds b := by
        intro a b needs ⟨y, found⟩
        rw [← Registry.needsKept advances.rules] at needs
        exact rested.storedNeeds (u := .plain b) found (.single needs)
      have gathers := visitNodeGathers resting closed (holdsIff.mpr ⟨x, held⟩) planned
      have within := (visitNodeLeads indexed room stack via t d).verdicts
      rw [planned] at within
      have passed : visitNode h room stack via t e = (.ok (), e) :=
        (visitNodePlans rested).mpr (.inl ⟨⟨x, storedIff.mp held⟩, rfl⟩)
      exact ⟨e, passed, abridged.gathers gathers within⟩
    | none =>
      rcases (visitNodePlans resting).mp planned with ⟨⟨y, settled⟩, _⟩ | ⟨fresh, turn⟩
      · rw [advances.stored (storedIff.mpr settled)] at held
        contradiction
      · have still := advances.fresh fresh held
        have agree := abridged.done t held
        rcases turn with ⟨done, rfl⟩ | ⟨undone, apart, left, d₁, rfl, inner, rfl⟩
        · have passed : visitNode h room stack via t e = (.ok (), e) :=
            (visitNodePlans rested).mpr (.inr ⟨still, .inl ⟨agree.trans done, rfl⟩⟩)
          exact ⟨e, passed, abridged⟩
        · have missing : h.stored (g.resolve t) = none := by
            rw [stored, standingCongr (resolveName indexed t)]
            exact held
          have visits : ∀ via' i, .input via' i ∈ g.registry.duties stack via (g.resolve t) →
              Follows g h (visitNode g left (stack ++ [g.resolve t]) via' i)
                (visitNode h left (stack ++ [g.resolve t]) via' i) := by
            intro via' i member d e d' abridged visited
            exact ih left (Nat.lt_succ_self left)
              (abridged.granted resting.coherent (indexed.dutyMentioned member)) abridged visited
          obtain ⟨e₁, inner', between⟩ :=
            dutiesAbridged indexed fresh missing granted visits abridged inner
          have opened : visitNode h (left + 1) stack via t e = (.ok (), e₁.finish (g.resolve t)) := by
            refine (visitNodePlans rested).mpr (.inr ⟨still, .inr ?_⟩)
            rw [advances.resolve still, Registry.dutiesKept advances.rules advances.entries]
            exact ⟨agree.trans undone, apart, left, e₁, rfl, inner', rfl⟩
          exact ⟨e₁.finish (g.resolve t), opened, between.finish _⟩

theorem shrinks (advances : g.Advances h) (resting : g.Resting) (rested : h.Resting)
    (planned : (g.plan s).1 = .ok steps) : (h.plan s).1 = .ok (steps.filter h.awaits) := by
  obtain ⟨d, visited, rfl⟩ := planVisits.mp planned
  have start : Abridged g h { verdicts := g.registry.verdicts } { verdicts := h.registry.verdicts } :=
    ⟨rfl, fun _ _ => rfl, Verdicts.withinRefl _, advances.verdicts⟩
  obtain ⟨e, visited', abridged⟩ := visitNodeAbridged advances resting rested
    (fun _ _ _ _ made => contractForKept advances.verdicts advances.noHarsher made) start visited
  rw [← advances.settings] at visited'
  exact planVisits.mpr ⟨e, visited', abridged.steps⟩

theorem plansShrink (reachable : g.Reachable) (planned : (g.plan s).1 = .ok steps)
    (before : h = g ∨ h = (g.plan s).2) {e : Element} (answer : (h.realize t).1 = .ok e) :
    ((h.realize t).2.plan s).1 = .ok (steps.filter (h.realize t).2.awaits) := by
  have resting := reachable.resting
  have earlier : g.Advances h ∧ h.Resting := by
    rcases before with rfl | rfl
    · exact ⟨advancesRefl h, resting⟩
    · exact ⟨planAdvances resting planned, (reachable.perform (.plan s)).resting⟩
  obtain ⟨advances, rested⟩ := earlier
  exact shrinks (advances.trans (realizeAdvances rested answer)) resting (realizeResting rested t) planned

theorem plansShrinkList :
    let g := smallSession []
    ∃ steps e, (g.plan (.plain "List")).1 = .ok steps ∧ (g.realize (.plain "Text")).1 = .ok e ∧
      ((g.realize (.plain "Text")).2.plan (.plain "List")).1 =
        .ok [⟨.produce, .plain "List", some "start"⟩, ⟨.mutate, .plain "List", some "extend"⟩] := by
  intro g
  have planned : (g.plan (.plain "List")).1 = .ok [⟨.produce, .plain "Text", some "write"⟩,
      ⟨.produce, .plain "List", some "start"⟩, ⟨.mutate, .plain "List", some "extend"⟩] := by decide +kernel
  have answer : (g.realize (.plain "Text")).1 = .ok (.text "a") := by decide +kernel
  have shrunk := plansShrink (smallSessionReachable []) planned (.inl rfl) answer
  refine ⟨_, _, planned, answer, shrunk.trans ?_⟩
  decide +kernel

end Realization.Graph
