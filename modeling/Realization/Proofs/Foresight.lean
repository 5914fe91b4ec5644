import Realization.Proofs.Shadows

/-!
Plans foretell realizations: each turn of a realization is a turn of the plan, up to the first rule that fails.
Types are compared by name, since asking for a type may give its node a managed form.
-/
namespace Realization

namespace Graph

variable {g₀ g g₁ g' : Graph} {base : List Event} {stack : List TypeRef} {d d₁ d' : Draft}
  {s t : TypeRef} {limit room : Nat} {via : Option Locator}

theorem chainToNamed {t u : TypeRef} (named : t.name = u.name) (stack : List TypeRef) :
    (chainTo stack t).map (fun t => TypeRef.plain t.name) =
      (chainTo stack u).map fun t => TypeRef.plain t.name := by
  simp only [chainTo, TypeRef.sameCongr named, List.map_append, List.map_cons, List.map_nil, named]

theorem contractForAgain {v w : Verdicts} (within : (contractFor s v).2.Within w) :
    contractFor s w = ((contractFor s v).1, w) := by
  cases s with
  | plain name => rfl
  | managed declaration =>
    have found := v.validateFound declaration
    have kept : (contractFor (.managed declaration) v).2 = (v.validate declaration).2 := by
      simp only [contractFor, TypeRef.declaration?]
      split <;> rename_i answer <;> rw [answer]
    rw [kept] at within
    simp only [contractFor, TypeRef.declaration?, Verdicts.validateKnown (within _ _ found)]
    rcases v.validate declaration with ⟨violation | contract, v'⟩ <;> rfl

/- Whether the two share their memory or the realization knows all that the plan will learn. -/
theorem contractForeseen {v w last : Verdicts} (foreseen : v = w ∨ last.Within w)
    (later : (contractFor s v).2.Within last) :
    ∃ w', contractFor s w = ((contractFor s v).1, w') ∧
      ((contractFor s v).2 = w' ∨ last.Within w') ∧ (v = w → (contractFor s v).2 = w') := by
  rcases foreseen with rfl | known
  · exact ⟨_, rfl, .inl rfl, fun _ => rfl⟩
  · have again := contractForAgain (later.trans known)
    refine ⟨w, again, .inr known, ?_⟩
    rintro rfl
    rw [again]

theorem planSynthesisRest {visit : Visiting} (leads : ∀ via t (d : Draft), d.Leads (visit via t d).2)
    (s : TypeRef) (rest : List Duty) (d : Draft) :
    (contractFor s d.verdicts).2.Within (planDuties visit (.synthesize s :: rest) d).2.verdicts := by
  simp only [planDuties, planSynthesis]
  rcases contractFor s d.verdicts with ⟨fault | contract, v⟩
  · exact v.withinRefl
  · exact (planDutiesLeads leads rest (Draft.step { d with verdicts := v } .synthesize s none)).verdicts

theorem synthesisForeseen {visit : Visiting} (leads : ∀ via t (d : Draft), d.Leads (visit via t d).2)
    {rest : List Duty} {answer : Except Fault Unit} {outcome : Except Fault Contract} {v w : Verdicts}
    (planned : planDuties visit (.synthesize s :: rest) d = (answer, d'))
    (memory : d.verdicts = v ∨ d'.verdicts.Within v) (made : contractFor s v = (outcome, w)) :
    ∃ w', contractFor s d.verdicts = (outcome, w') ∧ (w' = w ∨ d'.verdicts.Within w) ∧
      (d.verdicts = v → w' = w) := by
  have within := planSynthesisRest leads s rest d
  rw [planned] at within
  obtain ⟨w', same, next, equal⟩ := contractForeseen memory within
  rw [made] at same
  cases same
  exact ⟨_, rfl, next, equal⟩

/- What the plan and the realization have in common once a type is taken up: the plan of what it needs, seen
from inside, and how the plan goes on when that one is made. -/
structure Opened (g₀ : Graph) (base : List Event) (limit room : Nat) (stack : List TypeRef) (s : TypeRef) (g : Graph)
    (duties rest : List Duty) (d d' : Draft) (answer answer₁ : Except Fault Unit) (d₁ : Draft) : Prop where
  size : room + (stack ++ [s]).length = limit
  told : planDuties (visitNode g₀ room (stack ++ [s])) duties d = (answer₁, d₁)
  shadows : Shadows g₀ base (stack ++ [s]) (g.enter s) d
  learnt : d₁.Leads d'
  memory : d.verdicts = g.registry.verdicts ∨ d₁.verdicts.Within g.registry.verdicts
  passed : answer₁ = .ok () →
    planDuties (visitNode g₀ (room + 1) stack) rest (d₁.finish s) = (answer, d')
  stopped : ∀ fault, answer₁ = .error fault → answer = .error fault

theorem Shadows.opened (shadows : Shadows g₀ base stack g d) (resting : g₀.Resting)
    (fresh : g.standing (g.resolve t) = .unrealized) (free : stack.length < limit)
    (size : room + stack.length = limit) {rest : List Duty} {answer : Except Fault Unit}
    (planned : planDuties (visitNode g₀ room stack) (.input via t :: rest) d = (answer, d'))
    (memory : d.verdicts = g.registry.verdicts ∨ d'.verdicts.Within g.registry.verdicts) :
    ∃ room' answer₁ d₁, room = room' + 1 ∧ Opened g₀ base limit room' stack (g.resolve t) g
      (g.registry.duties stack via (g.resolve t)) rest d d' answer answer₁ d₁ := by
  have indexed := resting.coherent.sound.indexed
  have here := (standingResolve (shadows.indexed indexed) t).symm.trans fresh
  obtain ⟨room, rfl⟩ : ∃ n, room = n + 1 := ⟨room - 1, by omega⟩
  have deeper : room + (stack ++ [g.resolve t]).length = limit := by
    simp only [List.length_append, List.length_singleton]
    omega
  simp only [planDuties, shadows.visitOpen resting here] at planned
  rcases told : planDuties (visitNode g₀ room (stack ++ [g.resolve t]))
    (g.registry.duties stack via (g.resolve t)) d with ⟨fault | _, d₁⟩ <;> rw [told] at planned
  · cases planned
    exact ⟨room, _, _, rfl, deeper, told, shadows.enter fresh, Draft.leadsRefl _, memory, by simp, by simp⟩
  · have later := planDutiesLeads (visitNodeLeads indexed (room + 1) stack) rest (d₁.finish (g.resolve t))
    dsimp only at planned
    rw [planned] at later
    have learnt := (Draft.leadsFinish d₁ (g.resolve t)).trans later
    exact ⟨room, _, d₁, rfl, deeper, told, shadows.enter fresh, learnt, memory.imp_right learnt.verdicts.trans,
      fun _ => planned, by simp⟩

def Broke (r : Registry) (base : List Event) (steps : List Step) (fault : Fault) (g : Graph) : Prop :=
  ∃ subject locator failure before last events, fault = .ruleFailed subject locator failure ∧
    before ++ [last] <+: steps ∧ last.rule = some locator ∧ last.subject = subject ∧
    g.journal = base ++ events ∧ Runs r (before ++ [last]) events

theorem Broke.later {r : Registry} {steps more : List Step} {fault : Fault}
    (broke : Broke r base steps fault g) (longer : steps <+: more) : Broke r base more fault g := by
  obtain ⟨subject, locator, failure, before, last, events, same, early, rest⟩ := broke
  exact ⟨subject, locator, failure, before, last, events, same, early.trans longer, rest⟩

def Foreseen (g₀ : Graph) (base : List Event) (stack : List TypeRef) (d d' : Draft)
    (answer : Except Fault Unit) (g g' : Graph) : Except Fault (Option Element) → Prop
  | .ok _ => answer = .ok () ∧ Shadows g₀ base stack g' d' ∧
      (d.verdicts = g.registry.verdicts → d'.verdicts = g'.registry.verdicts)
  | .error fault => (∃ fault', answer = .error fault' ∧ fault'.named = fault.named) ∨
      Broke g₀.registry base d'.steps fault g'

theorem Foreseen.after {result : Except Fault (Option Element)} {answer : Except Fault Unit}
    (foreseen : Foreseen g₀ base stack d₁ d' answer g₁ g' result)
    (equal : d.verdicts = g.registry.verdicts → d₁.verdicts = g₁.registry.verdicts) :
    Foreseen g₀ base stack d d' answer g g' result := by
  cases result with
  | error fault => exact foreseen
  | ok own => exact ⟨foreseen.1, foreseen.2.1, fun start => foreseen.2.2 (equal start)⟩

theorem Work.foreseen {duties : List Duty} {own : Option Element}
    {result : Except Fault (Option Element)} (resting : g₀.Resting)
    (work : Work limit stack duties own g result g') (bounded : g₀.settings.maxDepth = limit)
    {room : Nat} (size : room + stack.length = limit) {answer : Except Fault Unit} {d d' : Draft}
    (planned : planDuties (visitNode g₀ room stack) duties d = (answer, d'))
    (shadows : Shadows g₀ base stack g d)
    (memory : d.verdicts = g.registry.verdicts ∨ d'.verdicts.Within g.registry.verdicts) :
    Foreseen g₀ base stack d d' answer g g' result := by
  have indexed := resting.coherent.sound.indexed
  have leads := fun room stack => @visitNodeLeads g₀ indexed room stack
  induction work generalizing room answer d d' with
  | done =>
    cases planned
    exact ⟨rfl, shadows, id⟩
  | @synthesized stack s rest _ g contract verdicts _ _ made later ih =>
    obtain ⟨w, told, next, equal⟩ := synthesisForeseen (leads room stack) planned memory made
    simp only [planDuties, planSynthesis, told] at planned
    exact (ih size planned (shadows.synthesis _ _ s) next).after equal
  | @unsynthesized stack s rest _ g fault verdicts made =>
    obtain ⟨w, told, _⟩ := synthesisForeseen (leads room stack) planned memory made
    simp only [planDuties, planSynthesis, told] at planned
    cases planned
    exact .inl ⟨_, rfl, rfl⟩
  | lacking =>
    cases planned
    exact .inl ⟨_, rfl, rfl⟩
  | @ran _ _ id rule _ _ _ body inputs _ _ _ known applies _ _ _ later ih =>
    simp only [planDuties] at planned
    exact (ih size planned (shadows.ran known applies (body inputs)) memory).after fun same => same
  | @broke stack s id rule rest _ g body inputs failure known applies _ _ _ =>
    have longer := (planDutiesLeads (leads room stack) rest
      (d.step rule.body.stepKind s (some rule.locator))).steps
    simp only [planDuties] at planned
    rw [planned] at longer
    obtain ⟨events, whole, runs⟩ := (shadows.ran known applies (body inputs)).journal
    exact .inr ⟨s, rule.locator, failure, d.steps, _, events, rfl, longer, rfl, rfl, whole, runs⟩
  | @present stack via t rest _ g e _ _ asks settled later ih =>
    have here : g.standing t = .realized e :=
      (standingResolve (shadows.indexed indexed) t).symm.trans settled
    simp only [planDuties, shadows.visitPresent resting here] at planned
    exact ih size planned (shadows.track (by simp [settled])) memory
  | @failed stack via t rest _ g asks settled =>
    have named := resolveName (shadows.indexed indexed) t
    have here : g.standing t = .failed := (standingResolve (shadows.indexed indexed) t).symm.trans settled
    simp only [planDuties, shadows.visitFailed resting here] at planned
    cases planned
    exact .inl ⟨_, rfl, by simp only [Fault.named, named, resolveName indexed]⟩
  | @cyclic stack via t rest _ g asks busy =>
    have named := resolveName (shadows.indexed indexed) t
    have here : g.standing t = .realizing := (standingResolve (shadows.indexed indexed) t).symm.trans busy
    simp only [planDuties, shadows.visitBusy resting here] at planned
    cases planned
    refine .inl ⟨_, rfl, ?_⟩
    simp only [Fault.named, chainToNamed ((resolveName indexed t).trans named.symm)]
  | @deep stack via t rest _ g asks fresh full =>
    have named := resolveName (shadows.indexed indexed) t
    have here : g.standing t = .unrealized :=
      (standingResolve (shadows.indexed indexed) t).symm.trans fresh
    obtain rfl : room = 0 := by omega
    simp only [planDuties, shadows.visitFresh resting here] at planned
    cases planned
    exact .inl ⟨_, rfl, by simp only [Fault.named, named, resolveName indexed, bounded]⟩
  | @built stack via t rest _ g e g₁ _ _ asks fresh free inner later ih ih' =>
    obtain ⟨room, answer₁, d₁, rfl, opened⟩ := shadows.opened resting fresh free size planned memory
    obtain ⟨passed, shadows₁, equal⟩ := ih opened.size opened.told opened.shadows opened.memory
    have grown : d₁.verdicts = g₁.registry.verdicts ∨ d'.verdicts.Within g₁.registry.verdicts :=
      memory.imp equal fun known => known.trans inner.grows.verdicts
    exact (ih' size (opened.passed passed) (shadows₁.settle inner.grows (shadows.origin fresh).1 e) grown).after equal
  | @unbuilt stack via t rest _ g fault g₁ asks fresh free inner ih =>
    obtain ⟨room, answer₁, d₁, rfl, opened⟩ := shadows.opened resting fresh free size planned memory
    rcases ih opened.size opened.told opened.shadows opened.memory with ⟨fault', stopped, named⟩ | broke
    · exact .inl ⟨fault', opened.stopped fault' stopped, named⟩
    · exact .inr (Broke.later broke opened.learnt.steps)

def Step.Sourced (memory : Verdicts) (step : Step) : Prop :=
  ∃ declaration contract, step.subject = .managed declaration ∧
    memory.find? declaration.fingerprint = some (.ok contract) ∧
    ∃ examined : Declaration, examined.fingerprint = declaration.fingerprint ∧
      Contract.ofDeclaration examined = .ok contract

def Foretells (g h : Graph) (t : TypeRef) : Prop :=
  match (g.plan t).1 with
  | .ok steps =>
    (∀ step ∈ steps, step.kind = .synthesize → Step.Sourced (g.plan t).2.registry.verdicts step) ∧
    ∃ events, (h.realize t).2.journal = h.journal ++ events ∧
      ((∃ e, (h.realize t).1 = .ok e) ∧ Runs g.registry steps events ∨
        ∃ subject locator failure before last,
          (h.realize t).1 = .error (.ruleFailed subject locator failure) ∧
            before ++ [last] <+: steps ∧ last.rule = some locator ∧ last.subject = subject ∧
              Runs g.registry (before ++ [last]) events)
  | .error fault =>
    ∃ fault', (h.realize t).1 = .error fault' ∧
      (fault'.named = fault.named ∨
        ∃ subject locator failure, fault' = .ruleFailed subject locator failure)

theorem Stays.shadows {h : Graph} (stays : g.Stays h) (memory : Verdicts) :
    Shadows g h.journal [] h { verdicts := memory } where
  rules := stays.rules
  entries := stays.entries
  settled t _ := stays.standing t
  done t _ isDone := by simp [Draft.isDone] at isDone
  underWay t fresh _ := (stays.standing t).trans fresh
  form t _ := stays.node t
  journal := ⟨[], by simp, .nil⟩

theorem planRun (g : Graph) (t : TypeRef) :
    ∃ answer d, planDuties (visitNode g g.settings.maxDepth []) [.input none t]
        { verdicts := g.registry.verdicts } = (answer, d) ∧
      g.plan t = (answer.map fun _ => d.steps, g.withVerdicts d.verdicts) := by
  simp only [planDuties, plan]
  rcases g.visitNode g.settings.maxDepth [] none t { verdicts := g.registry.verdicts }
    with ⟨fault | _, d⟩
  · exact ⟨.error fault, d, rfl, rfl⟩
  · exact ⟨.ok (), d, rfl, rfl⟩

theorem foretellsStarted (resting : g.Resting) {h h₁ : Graph} (opening : h.start = (.ok (), h₁))
    (stays : g.Stays h₁) (journal : h₁.journal = h.journal)
    (memory : g.registry.verdicts = h₁.registry.verdicts ∨
      (g.plan t).2.registry.verdicts.Within h₁.registry.verdicts) : g.Foretells h t := by
  have indexed := resting.coherent.sound.indexed
  have depth : g.settings.maxDepth = h₁.settings.maxDepth := by rw [stays.settings]
  obtain ⟨answer, d, planned, plan⟩ := g.planRun t
  obtain ⟨result, h₂, work, ending⟩ := realizeRun opening (stays.resting resting).coherent.sound.indexed t
  have learnt : g.registry.verdicts = h₁.registry.verdicts ∨
      d.verdicts.Within h₁.registry.verdicts := by
    rw [plan] at memory
    exact memory
  have foreseen := work.foreseen resting depth depth planned (stays.shadows g.registry.verdicts) learnt
  have leads := planDutiesLeads (visitNodeLeads indexed g.settings.maxDepth []) [.input none t]
    { verdicts := g.registry.verdicts }
  rw [planned] at leads
  have sourced : ∀ step ∈ d.steps, step.kind = .synthesize → Step.Sourced d.verdicts step := by
    intro step member synthesis
    have empty : Draft.Accepted { verdicts := g.registry.verdicts } := fun step member => by contradiction
    obtain ⟨declaration, form, contract, found⟩ := leads.accepted empty step member synthesis
    exact ⟨declaration, contract, form, found, leads.genuine resting.coherent.sound.genuine _ _ found⟩
  unfold Foretells
  rw [plan]
  rcases ending with ⟨e, rfl, answered, _⟩ | ⟨fault, rfl, answered⟩ <;> rw [answered]
  · obtain ⟨rfl, shadows, _⟩ := foreseen
    obtain ⟨events, whole, runs⟩ := shadows.journal
    exact ⟨sourced, events, by rw [whole, journal], .inl ⟨⟨e, rfl⟩, runs⟩⟩
  · rcases foreseen with ⟨fault', rfl, named⟩ |
      ⟨subject, locator, failure, before, last, events, rfl, early, carried, same, whole, runs⟩
    · exact ⟨fault, rfl, .inl named.symm⟩
    · cases answer with
      | error fault' => exact ⟨_, rfl, .inr ⟨subject, locator, failure, rfl⟩⟩
      | ok _ =>
        exact ⟨sourced, events, by rw [whole, journal],
          .inr ⟨subject, locator, failure, before, last, rfl, early, carried, same, runs⟩⟩

theorem planForetells (reachable : g.Reachable) (t : TypeRef) :
    (g.plan t).2 = g.withVerdicts (g.plan t).2.registry.verdicts ∧
    ((g.plan t).2.start.1 = .ok () → g.Foretells (g.plan t).2 t) ∧
    (g.start.1 = .ok () → g.start.2.registry.verdicts = g.registry.verdicts → g.Foretells g t) := by
  have resting := reachable.resting
  have planned := planStays resting.coherent.sound.indexed t
  refine ⟨?_, fun started => ?_, fun started same => ?_⟩
  · obtain ⟨answer, d, _, plan⟩ := g.planRun t
    rw [plan]
    rfl
  · have stays := startStays (g.plan t).2
    rcases opening : (g.plan t).2.start with ⟨fault | _, h₁⟩ <;> rw [opening] at started stays
    · contradiction
    · exact foretellsStarted resting opening (planned.trans stays) stays.journal (.inr stays.verdicts)
  · have stays := g.startStays
    rcases opening : g.start with ⟨fault | _, h₁⟩ <;> rw [opening] at started stays same
    · contradiction
    · exact foretellsStarted resting opening stays stays.journal (.inl same.symm)

theorem planForetellsList :
    (smallSession []).Foretells ((smallSession []).plan (.plain "List")).2 (.plain "List") ∧
      (smallSession []).Foretells (smallSession []) (.plain "List") := by
  obtain ⟨_, after, directly⟩ := planForetells (smallSessionReachable []) (.plain "List")
  have starts : ((smallSession []).plan (.plain "List")).2.start.1 = .ok () := by decide +kernel
  have startsDirectly : (smallSession []).start.1 = .ok () := by decide +kernel
  exact ⟨after starts, directly startsDirectly rfl⟩

end Graph

end Realization
