import Realization.Proofs.CheckFaults

/-!
The calls that realizing makes. A request asks for its type, and whoever builds a type asks for the inputs of
its rules; these are all the calls there are. At each of them the types under way are those on the stack, a
chain of declared inputs, and whoever asks is a rule of the last of them. So a type that is asked for while it
is under way is found on the stack, and the type of the request itself is not under way.
-/
namespace Realization.Graph

def Obtains (enter : TypeRef → Graph → Except Fault Unit × Graph) (types : List TypeRef) (g : Graph)
    (u : TypeRef) (h : Graph) : Prop :=
  ∃ before after, types = before ++ u :: after ∧ enterAll enter before g = (.ok (), h)

inductive Calls (enter : Entering) (below : List TypeRef) (via : Option Locator) (s : TypeRef) (g : Graph) :
    Option Locator → TypeRef → Graph → Prop where
  | producer {id rule run u h} (creator : g.registry.creator? s = some (id, rule))
      (body : rule.body = .producer run) (obtains : Obtains (enter (some rule.locator)) rule.inputs g u h) :
      Calls enter below via s g (some rule.locator) u h
  | initializer {id rule run e g₁ u h} (creator : g.registry.creator? s = some (id, rule))
      (body : rule.body = .initializer run) (made : synthesize s g = (.ok e, g₁))
      (obtains : Obtains (enter (some rule.locator)) rule.inputs g₁ u h) :
      Calls enter below via s g (some rule.locator) u h
  | mutator {e g₁ before id rule after run e₁ g₂ u h} (created : create enter below via s g = (.ok e, g₁))
      (listed : g₁.registry.mutators s = before ++ (id, rule) :: after)
      (mutated : mutate enter s before e g₁ = (.ok e₁, g₂)) (body : rule.body = .mutator run)
      (obtains : Obtains (enter (some rule.locator)) rule.inputs g₂ u h) :
      Calls enter below via s g (some rule.locator) u h

/- The request for `t` asks for `u` on the graph `h` while the types on the stack are under way and so many more may
join them. -/
inductive Called (g : Graph) (t : TypeRef) :
    Nat → List TypeRef → Option Locator → TypeRef → Graph → Prop where
  | request {h} (opening : g.start = (.ok (), h)) : Called g t h.settings.maxDepth [] none t h
  | input {room stack via u h by' i k} (outer : Called g t (room + 1) stack via u h)
      (fresh : h.standing (h.resolve u) = .unrealized)
      (calls : Calls (realizeNode room (stack ++ [h.resolve u])) stack via (h.resolve u) (h.enter (h.resolve u))
        by' i k) :
      Called g t room (stack ++ [h.resolve u]) by' i k

def realizeBy (ask : Nat → List TypeRef → Entering) (g : Graph) (t : TypeRef) : Except Fault Element × Graph :=
  match g.start with
  | (.error fault, g) => (.error fault, g)
  | (.ok (), g) =>
    match ask g.settings.maxDepth [] none t g with
    | (.error fault, g) => (.error fault, g)
    | (.ok (), g) => (g.element t, g)

section
variable {enter enter' : Entering} {below : List TypeRef} {via : Option Locator} {s : TypeRef} {g : Graph}

theorem enterAllDetermined {ask ask' : TypeRef → Graph → Except Fault Unit × Graph} {types : List TypeRef}
    (same : ∀ u h, Obtains ask types g u h → ask' u h = ask u h) :
    enterAll ask' types g = enterAll ask types g := by
  induction types generalizing g with
  | nil => rfl
  | cons t rest ih =>
    unfold enterAll
    rw [same t g ⟨[], rest, rfl, rfl⟩]
    rcases answer : ask t g with ⟨fault | _, g₁⟩
    · rfl
    · refine ih fun u h => ?_
      rintro ⟨before, after, rfl, entered⟩
      refine same u h ⟨t :: before, after, rfl, ?_⟩
      unfold enterAll
      rw [answer]
      exact entered

theorem applyRuleDetermined {id : RuleId} {rule : Rule} {run : Inputs → Outcome Element}
    (same : ∀ u h, Obtains (enter (some rule.locator)) rule.inputs g u h →
      enter' (some rule.locator) u h = enter (some rule.locator) u h) :
    applyRule enter' s id rule run g = applyRule enter s id rule run g := by
  unfold applyRule
  rw [enterAllDetermined same]

theorem createDetermined (same : ∀ by' u h, Calls enter below via s g by' u h → enter' by' u h = enter by' u h) :
    create enter' below via s g = create enter below via s g := by
  unfold create
  rcases creator : g.registry.creator? s with _ | ⟨id, rule⟩
  · rfl
  · dsimp only
    cases body : rule.body with
    | producer run => exact applyRuleDetermined fun u h obtains => same _ u h (.producer creator body obtains)
    | initializer run =>
      dsimp only
      rcases made : synthesize s g with ⟨fault | e, g₁⟩
      · rfl
      · exact applyRuleDetermined fun u h obtains => same _ u h (.initializer creator body made obtains)
    | mutator run => rfl

theorem mutateDetermined {e : Element} {rules : List (RuleId × Rule)}
    (same : ∀ before id rule after run e₁ g₂ u h, rules = before ++ (id, rule) :: after →
      mutate enter s before e g = (.ok e₁, g₂) → rule.body = .mutator run →
      Obtains (enter (some rule.locator)) rule.inputs g₂ u h →
      enter' (some rule.locator) u h = enter (some rule.locator) u h) :
    mutate enter' s rules e g = mutate enter s rules e g := by
  induction rules generalizing e g with
  | nil => rfl
  | cons p rest ih =>
    obtain ⟨id, rule⟩ := p
    unfold mutate
    cases body : rule.body with
    | producer run => rfl
    | initializer run => rfl
    | mutator run =>
      dsimp only
      rw [applyRuleDetermined fun u h obtains => same [] id rule rest run e g u h rfl rfl body obtains]
      rcases applied : applyRule enter s id rule (run e) g with ⟨fault | e₁, g₁⟩
      · rfl
      · refine ih fun before id' rule' after run' e₂ g₂ u h whole mutated body' obtains => ?_
        refine same ((id, rule) :: before) id' rule' after run' e₂ g₂ u h (congrArg _ whole) ?_ body' obtains
        unfold mutate
        rw [body]
        dsimp only
        rw [applied]
        exact mutated

theorem buildDetermined (same : ∀ by' u h, Calls enter below via s g by' u h → enter' by' u h = enter by' u h) :
    build enter' below via s g = build enter below via s g := by
  unfold build
  rw [createDetermined same]
  rcases created : create enter below via s g with ⟨fault | e, g₁⟩
  · rfl
  · exact mutateDetermined fun before id rule after run e₁ g₂ u h listed mutated body obtains =>
      same _ u h (.mutator created listed mutated body obtains)

end

section
variable {ask : Nat → List TypeRef → Entering} {room : Nat} {stack : List TypeRef} {via : Option Locator}
  {g h : Graph} {t u : TypeRef}

/- No call is left out: whoever answers the calls of a request by what each leaves to him answers them right. -/
theorem Called.determined (called : g.Called t room stack via u h)
    (answers : ∀ room stack via u h, g.Called t room stack via u h →
      ask room stack via u h = callBy ask room stack via u h) :
    ask room stack via u h = realizeNode room stack via u h := by
  induction room generalizing stack via u h with
  | zero =>
    rw [answers _ _ _ _ _ called, realizeNodeCalls, callByTurns, callByTurns]
    cases h.standing (h.resolve u) <;> rfl
  | succ room ih =>
    rw [answers _ _ _ _ _ called, realizeNodeCalls, callByTurns, callByTurns]
    cases fresh : h.standing (h.resolve u) with
    | realized e => rfl
    | failed => rfl
    | realizing => rfl
    | unrealized =>
      exact congrArg (settle (h.resolve u)) (buildDetermined fun by' i k calls => ih (called.input fresh calls))

theorem realizeDetermined (answers : ∀ room stack via u h, g.Called t room stack via u h →
    ask room stack via u h = callBy ask room stack via u h) : g.realizeBy ask t = g.realize t := by
  unfold realizeBy realize
  rcases opening : g.start with ⟨fault | _, h⟩
  · rfl
  · have same := (Called.request opening).determined answers
    rcases answer : realizeNode h.settings.maxDepth [] none t h with ⟨fault | _, k⟩ <;>
      simp only [same, answer]

end

variable {limit room : Nat} {stack below : List TypeRef} {first second : List Duty} {own own₁ : Option Element}
  {g g₁ h : Graph} {s t u i : TypeRef} {via by' : Option Locator} {m : Moment}

theorem Work.comes (work : Work limit stack first own g (.ok own₁) g₁)
    (next : Comes limit stack second own₁ g₁ m) : Comes limit stack (first ++ second) own g m := by
  generalize answer : Except.ok own₁ = outcome at work
  induction work with
  | done => cases answer; exact next
  | synthesized made _ ih => exact .later (.synthesized made .done) (ih next answer)
  | ran known applies starts given outcome _ ih =>
    exact .later (.ran known applies starts given outcome .done) (ih next answer)
  | present asks settled _ ih => exact .later (.present asks settled .done) (ih next answer)
  | built asks fresh room inner _ _ ih => exact .later (.built asks fresh room inner .done) (ih next answer)
  | unsynthesized | lacking | broke | failed | cyclic | deep | unbuilt => contradiction

theorem Comes.before (comes : Comes limit stack first own g m) (second : List Duty) :
    Comes limit stack (first ++ second) own g m := by
  induction comes with
  | here => exact .here
  | later turn _ ih => exact .later turn ih
  | inside asks fresh room inner => exact .inside asks fresh room inner

theorem Comes.into (comes : Comes limit stack first own g ⟨below, .input via u, own₁, h⟩)
    (asks : h.registry.Asks below via u) (fresh : h.standing (h.resolve u) = .unrealized)
    (room : below.length < limit)
    (inner : Comes limit (below ++ [h.resolve u]) (h.registry.duties below via (h.resolve u)) none
      (h.enter (h.resolve u)) m) : Comes limit stack first own g m := by
  generalize here : Moment.mk below (.input via u) own₁ h = moment at comes
  induction comes with
  | here =>
    cases here
    exact .inside asks fresh room inner
  | later turn _ ih => exact .later turn (ih here)
  | inside asks' fresh' room' _ ih => exact .inside asks' fresh' room' (ih here)

theorem Comes.asks (comes : Comes limit stack first own g m) (indexed : g.registry.Indexed)
    (asked : ∀ via u, .input via u ∈ first → g.registry.Asks stack via u) (duty : m.duty = .input via u) :
    g.registry.Asks m.stack via u := by
  induction comes with
  | here => exact asked via u (duty ▸ List.mem_cons_self)
  | later turn _ ih =>
    have rules := turn.grows.rules
    refine (ih (indexed.congr rules turn.grows.entries) (fun via u member => ?_) duty).kept rules
    exact (asked via u (List.mem_cons_of_mem _ member)).kept rules.symm
  | inside _ _ _ _ ih => exact ih indexed (fun _ _ member => (indexed.dutyAsks member).1) duty

theorem Obtains.comes {enter : Entering} {types : List TypeRef} (enters : Enters limit stack enter)
    (ready : Ready limit g) (asks : ∀ t ∈ types, g.registry.Asks stack via t)
    (obtains : Obtains (enter via) types g u h) :
    Comes limit stack (types.map (.input via)) own g ⟨stack, .input via u, own, h⟩ := by
  obtain ⟨before, after, rfl, entered⟩ := obtains
  have works : Works limit stack (before.map (.input via)) own g (fun _ => own) (enterAll (enter via) before g) :=
    enterAllWorks enters ready fun t member => asks t (List.mem_append_left _ member)
  rw [entered] at works
  rw [List.map_append, List.map_cons]
  exact Work.comes works .here

theorem Calls.comes {enter : Entering} (enters : Enters limit (below ++ [s]) enter) (ready : Ready limit g)
    (calls : Calls enter below via s g by' u h) :
    ∃ own, Comes limit (below ++ [s]) (g.registry.duties below via s) none g
      ⟨below ++ [s], .input by' u, own, h⟩ := by
  unfold Registry.duties
  cases calls with
  | @producer id rule run _ _ creator body obtains =>
    obtain ⟨_, member, _, applies⟩ := ready.indexed.creatorFound creator
    have comes : Comes limit (below ++ [s]) (rule.inputs.map (.input (some rule.locator))) none g _ :=
      obtains.comes enters ready fun t declared => .input member applies declared
    refine ⟨none, Comes.before ?_ _⟩
    unfold Registry.creationDuties
    rw [creator]
    simp only [Rule.isInitializer, body]
    exact comes.before [.run s id rule]
  | @initializer id rule run e g₁ _ _ creator body made obtains =>
    obtain ⟨_, member, _, applies⟩ := ready.indexed.creatorFound creator
    have works : Works limit (below ++ [s]) [.synthesize s] none g some (synthesize s g) := synthesizeWorks s
    rw [made] at works
    have grows := works.grows
    have comes : Comes limit (below ++ [s]) (rule.inputs.map (.input (some rule.locator))) (some e) g₁ _ :=
      obtains.comes enters (ready.grow grows) fun t declared =>
        .input (grows.rules.symm ▸ member) applies declared
    refine ⟨some e, Comes.before ?_ _⟩
    unfold Registry.creationDuties
    rw [creator]
    simp only [Rule.isInitializer, body, if_true]
    exact Work.comes works (comes.before [.run s id rule])
  | @mutator e g₁ before id rule after run e₁ g₂ _ _ created listed mutated body obtains =>
    have creates := createWorks enters ready via
    rw [created] at creates
    have ready₁ := ready.grow creates.grows
    have found : ∀ p ∈ g₁.registry.mutators s, g₁.registry.rule? p.1 = some p.2 ∧
        p.2 ∈ g₁.registry.rules ∧ p.2.creates = false ∧ p.2.subject.same s = true :=
      fun p member => ready₁.indexed.mutatorFound member
    rw [listed] at found
    have mutates := mutateWorks enters ready₁ e fun p (member : p ∈ before) => by
      obtain ⟨known, _, rest⟩ := found p (List.mem_append_left _ member)
      exact ⟨known, rest⟩
    rw [mutated] at mutates
    obtain ⟨_, member, _, applies⟩ := found (id, rule) (by simp)
    have comes : Comes limit (below ++ [s]) (rule.inputs.map (.input (some rule.locator))) (some e₁) g₂ _ :=
      obtains.comes enters (ready₁.grow mutates.grows) fun t declared =>
        .input (mutates.grows.rules.symm ▸ member) applies declared
    have same : g.registry.mutators s = before ++ (id, rule) :: after := by
      rw [← listed, creates.grows.registry]
      rfl
    refine ⟨some e₁, Work.comes creates ?_⟩
    unfold Registry.mutationDuties
    rw [same, List.flatMap_append, List.flatMap_cons]
    exact Work.comes mutates ((comes.before [.run s id rule]).before _)

theorem Passes.asks (passes : g.Passes t m) (resting : g.Resting) (duty : m.duty = .input via u) :
    g.registry.Asks m.stack via u := by
  obtain ⟨k, stays, comes⟩ := passes.opened
  have indexed := (stays.resting resting).coherent.sound.indexed
  refine (comes.asks indexed (fun via u member => ?_) duty).kept stays.rules
  cases List.mem_singleton.mp member
  exact .request t

theorem Called.passes (called : g.Called t room stack via u h) (resting : g.Resting) :
    room + stack.length = g.settings.maxDepth ∧ ∃ own, g.Passes t ⟨stack, .input via u, own, h⟩ := by
  induction called with
  | @request h opening =>
    have settings : h.settings = g.settings := by rw [← g.startStays.settings, opening]
    exact ⟨congrArg (·.maxDepth) settings, none, h, opening, .here⟩
  | @input room stack via u h by' i k _ fresh calls ih =>
    obtain ⟨measured, own, passes⟩ := ih
    have rules := passes.onward.rules
    have asks := passes.asks resting rfl
    have indexed := resting.coherent.sound.indexed.congr rules passes.onward.entries
    have longer : room + (stack ++ [h.resolve u]).length = g.settings.maxDepth := by
      rw [List.length_append, List.length_singleton]
      omega
    have enters := realizeNodeWorks room longer
    have ready : Ready g.settings.maxDepth h := ⟨indexed, congrArg (·.maxDepth) passes.onward.settings⟩
    obtain ⟨own', inner⟩ := calls.comes enters (readyEnter ready (h.resolve u))
    obtain ⟨k₀, opening, comes⟩ := passes
    have settings : k₀.settings = g.settings := by rw [← g.startStays.settings, opening]
    rw [← settings] at inner measured
    have free : stack.length < k₀.settings.maxDepth := by omega
    exact ⟨longer, own', k₀, opening, comes.into (asks.kept rules.symm) fresh free inner⟩

theorem Called.produce {id : RuleId} {rule : Rule} {run : Inputs → Outcome Element} {rest : List TypeRef}
    (called : g.Called t (room + 1) stack via u h) (fresh : h.standing (h.resolve u) = .unrealized)
    (creator : h.registry.creator? (h.resolve u) = some (id, rule)) (body : rule.body = .producer run)
    (inputs : rule.inputs = i :: rest) :
    g.Called t room (stack ++ [h.resolve u]) (some rule.locator) i (h.enter (h.resolve u)) :=
  called.input fresh (.producer creator body ⟨[], rest, inputs, rfl⟩)

structure InStep (stack : List TypeRef) (via : Option Locator) (u : TypeRef) (h : Graph) : Prop where
  busy : ((h.nodes.filter (·.progress = .realizing)).map (·.subject.name)).Perm (stack.map (·.name))
  distinct : (stack.map (·.name)).Nodup
  linked : stack.IsChain fun a b =>
    ∃ rule ∈ h.registry.rules, rule.subject.same a = true ∧ rule.declares b = true
  asked : ∀ locator, via = some locator →
    ∃ rule ∈ h.registry.rules, rule.locator = locator ∧ u ∈ rule.inputs ∧
      ∃ top, stack.getLast? = some top ∧ rule.subject.same top = true
  found : h.progress? (h.resolve u) = some .realizing →
    ∃ place, stack.findIdx? (·.same (h.resolve u)) = some place
  direct : via = none → stack = [] ∧ h.progress? (h.resolve u) ≠ some .realizing

theorem Passes.inStep (passes : g.Passes t m) (resting : g.Resting) (duty : m.duty = .input via u) :
    InStep m.stack via u m.graph := by
  have stacked := passes.stacked resting
  have asks := (passes.asks resting duty).kept passes.onward.rules.symm
  have under : m.graph.progress? (m.graph.resolve u) = some .realizing →
      ∃ s ∈ m.stack, s.name = (m.graph.resolve u).name := fun busy =>
    (stacked.busy _).mp (progressStanding busy)
  refine ⟨stacked.underwayNames (passes.coherent resting).distinct, stacked.distinct, stacked.chain.imp ?linked,
    fun locator same => (same ▸ asks).given, fun busy => placeFound (under busy), fun none => ?direct⟩
  case linked =>
    rintro a b ⟨i, ⟨rule, member, own, declared⟩, named⟩
    exact ⟨rule, member, own, Rule.declaresNamed declared named.symm⟩
  case direct =>
    have empty := (none ▸ asks).direct
    rw [empty] at under
    exact ⟨empty, fun busy => by simpa using under busy⟩

theorem realizeCloses (resting : g.Resting) (chain : List TypeRef) :
    (g.realize t).1 ≠ .error (.cyclic chain none) := by
  intro answer
  rcases realizeStops resting answer with opening | ⟨m, passes, raises⟩
  · rcases finalizeFails (startStops opening) with sources | ordered
    · obtain ⟨_, _, _, _, _, _, stops⟩ := checkSourcesStops sources
      contradiction
    · obtain ⟨_, _, rule, _, located⟩ := orderBorneOut (g.openedStays.resting resting).coherent.tracked ordered
      contradiction
  · cases raises with
    | unsynthesized answer =>
      obtain ⟨violation, other⟩ := contractForFault (passes.managed resting rfl) answer
      contradiction
    | cyclic _ busy => exact ((passes.inStep resting rfl).direct rfl).2 (standingProgress busy (by simp))

theorem callsInStep (reachable : g.Reachable) (t : TypeRef) :
    (∀ room stack via u h, g.Called t room stack via u h → InStep stack via u h) ∧
    (∀ chain, (g.realize t).1 ≠ .error (.cyclic chain none)) ∧
    ∀ ask : Nat → List TypeRef → Entering, (∀ room stack via u h, g.Called t room stack via u h →
      ask room stack via u h = callBy ask room stack via u h) → g.realizeBy ask t = g.realize t := by
  have resting := reachable.resting
  refine ⟨fun room stack via u h called => ?_, realizeCloses resting, fun _ => realizeDetermined⟩
  obtain ⟨_, own, passes⟩ := called.passes resting
  exact passes.inStep resting rfl

theorem callsInStepHen :
    let g := circularSession []
    let hen := .plain "Hen"
    let egg := .plain "Egg"
    let k := (g.start.2.enter hen).enter egg
    g.Called hen 254 [hen, egg] (some "lay") hen k ∧ k.progress? (k.resolve hen) = some .realizing ∧
      InStep [hen, egg] (some "lay") hen k := by
  intro g hen egg k
  have hatches : g.start.2.registry.creator? hen = some (0, ⟨"hatch", hen, [egg], _⟩) := rfl
  have lays : (g.start.2.enter hen).registry.creator? egg = some (1, ⟨"lay", egg, [hen], _⟩) := rfl
  have opening : g.start = (.ok (), g.start.2) := rfl
  have first : g.Called hen 256 [] none hen g.start.2 := .request opening
  have second : g.Called hen 255 [hen] (some "hatch") egg (g.start.2.enter hen) :=
    first.produce (by decide +kernel) hatches rfl rfl
  have third : g.Called hen 254 [hen, egg] (some "lay") hen k :=
    second.produce (by decide +kernel) lays rfl rfl
  exact ⟨third, by decide +kernel,
    (callsInStep (circularSessionReachable []) hen).1 254 [hen, egg] (some "lay") hen k third⟩

end Realization.Graph
