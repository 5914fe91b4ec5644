import Realization.Proofs.Work

/-!
Realizing is work: whatever `realizeNode` answers, it answers by a run of `Work`. Reading an input
that was obtained cannot fail and a body is always of the sort that its place asks for, so the
internal faults of the engine are no turn that work can take.
-/
namespace Realization.Graph

variable {limit : Nat} {stack : List TypeRef} {own : Option Element} {g : Graph}

/- The answer is a run of work on these duties; `keep` is what the work leaves in hand. -/
def Works {α : Type} (limit : Nat) (stack : List TypeRef) (duties : List Duty)
    (own : Option Element) (g : Graph) (keep : α → Option Element)
    (answer : Except Fault α × Graph) : Prop :=
  Work limit stack duties own g (answer.1.map keep) answer.2

def Enters (limit : Nat) (stack : List TypeRef) (enter : Entering) : Prop :=
  ∀ via t g own, Ready limit g → g.registry.Asks stack via t →
    Works limit stack [.input via t] own g (fun _ => own) (enter via t g)

theorem enterAllWorks {enter : Entering} (enters : Enters limit stack enter)
    {via : Option Locator} {types : List TypeRef} (ready : Ready limit g)
    (asks : ∀ t ∈ types, g.registry.Asks stack via t) :
    Works limit stack (types.map (.input via)) own g (fun _ => own)
      (enterAll (enter via) types g) := by
  induction types generalizing g with
  | nil => exact .done
  | cons t rest ih =>
    have first := enters via t g own ready (asks t List.mem_cons_self)
    unfold enterAll
    rcases answer : enter via t g with ⟨fault | _, g₁⟩
    · rw [answer] at first
      exact Work.stop first _
    · rw [answer] at first
      have later : ∀ u ∈ rest, g₁.registry.Asks stack via u := by
        intro u member
        rw [first.grows.registry]
        cases asks u (List.mem_cons_of_mem _ member) with
        | request => exact .request u
        | input known same declared => exact .input known same declared
      exact Work.andThen first (ih (ready.grow first.grows) later)

theorem applyRuleWorks {below : List TypeRef} {subject : TypeRef} {enter : Entering}
    (enters : Enters limit (below ++ [subject]) enter) (ready : Ready limit g) {id : RuleId}
    {rule : Rule} (known : g.registry.rule? id = some rule)
    (applies : rule.subject.same subject = true) {run : Inputs → Outcome Element}
    (starts : rule.body.start? own = some run) :
    Works limit (below ++ [subject]) (rule.duties subject id) own g some
      (applyRule enter subject id rule run g) := by
  have asks : ∀ t ∈ rule.inputs, g.registry.Asks (below ++ [subject]) (some rule.locator) t :=
    fun t declared => .input (List.mem_of_getElem? known) applies declared
  have entered : Works limit (below ++ [subject]) (rule.inputs.map (.input (some rule.locator))) own g
      (fun _ => own) (enterAll (enter (some rule.locator)) rule.inputs g) :=
    enterAllWorks enters ready asks
  unfold applyRule Rule.duties
  rcases answer : enterAll (enter (some rule.locator)) rule.inputs g with ⟨fault | _, g₁⟩
  · rw [answer] at entered
    exact Work.stop entered _
  · rw [answer] at entered
    have obtained : ∀ t ∈ rule.inputs, ∃ e, g₁.stored t = some e := fun t declared =>
      Work.obtained entered ready.indexed (List.mem_map_of_mem declared)
    obtain ⟨inputs, given⟩ := inputsForStored obtained
    have stillKnown : g₁.registry.rule? id = some rule := by
      rw [entered.grows.registry]
      exact known
    dsimp only
    rw [given]
    refine Work.andThen entered ?_
    unfold runBody
    dsimp only
    cases outcome : (run inputs).result with
    | error failure => exact .broke stillKnown applies starts given outcome
    | ok e => exact .ran stillKnown applies starts given outcome .done

theorem synthesizeWorks (subject : TypeRef) :
    Works limit stack [.synthesize subject] own g some (synthesize subject g) := by
  unfold synthesize
  rcases answer : contractFor subject g.registry.verdicts with ⟨fault | contract, verdicts⟩
  · exact .unsynthesized answer
  · exact .synthesized answer .done

theorem createWorks {below : List TypeRef} {subject : TypeRef} {enter : Entering}
    (enters : Enters limit (below ++ [subject]) enter) (ready : Ready limit g)
    (via : Option Locator) :
    Works limit (below ++ [subject]) (g.registry.creationDuties below via subject) none g some
      (create enter below via subject g) := by
  unfold create Registry.creationDuties
  cases found : g.registry.creator? subject with
  | none =>
    dsimp only
    split
    · exact synthesizeWorks subject
    · exact .lacking
  | some p =>
    obtain ⟨id, rule⟩ := p
    obtain ⟨known, _, creates, applies⟩ := ready.indexed.creatorFound found
    cases body : rule.body with
    | producer run =>
      simp only [Rule.isInitializer, body]
      exact applyRuleWorks enters ready known applies (by rw [body]; rfl)
    | initializer run =>
      simp only [Rule.isInitializer, body, if_true]
      have made : Works limit (below ++ [subject]) [.synthesize subject] none g some
          (synthesize subject g) := synthesizeWorks subject
      rcases answer : synthesize subject g with ⟨fault | e, g₁⟩
      · rw [answer] at made
        exact Work.stop made _
      · rw [answer] at made
        have stillKnown : g₁.registry.rule? id = some rule := by
          rw [made.grows.registry]
          exact known
        exact Work.andThen made
          (applyRuleWorks enters (ready.grow made.grows) stillKnown applies (by rw [body]; rfl))
    | mutator run => simp [Rule.creates, Body.creates, body] at creates

theorem mutateWorks {below : List TypeRef} {subject : TypeRef} {enter : Entering}
    (enters : Enters limit (below ++ [subject]) enter) (ready : Ready limit g) (e : Element)
    {rules : List (RuleId × Rule)}
    (listed : ∀ p ∈ rules, g.registry.rule? p.1 = some p.2 ∧ p.2.creates = false ∧
      p.2.subject.same subject = true) :
    Works limit (below ++ [subject]) (rules.flatMap fun (id, rule) => rule.duties subject id)
      (some e) g some (mutate enter subject rules e g) := by
  induction rules generalizing e g with
  | nil => exact .done
  | cons p rest ih =>
    obtain ⟨id, rule⟩ := p
    obtain ⟨known, mutates, applies⟩ := listed (id, rule) List.mem_cons_self
    unfold mutate
    cases body : rule.body with
    | producer run => simp [Rule.creates, Body.creates, body] at mutates
    | initializer run => simp [Rule.creates, Body.creates, body] at mutates
    | mutator run =>
      dsimp only
      have applied : Works limit (below ++ [subject]) (rule.duties subject id) (some e) g some
          (applyRule enter subject id rule (run e) g) :=
        applyRuleWorks enters ready known applies (by rw [body]; rfl)
      rw [List.flatMap_cons]
      rcases answer : applyRule enter subject id rule (run e) g with ⟨fault | e₁, g₁⟩
      · rw [answer] at applied
        exact Work.stop applied _
      · rw [answer] at applied
        refine Work.andThen applied (ih (ready.grow applied.grows) e₁ fun q member => ?_)
        rw [applied.grows.registry]
        exact listed q (List.mem_cons_of_mem _ member)

theorem buildWorks {below : List TypeRef} {subject : TypeRef} {enter : Entering}
    (enters : Enters limit (below ++ [subject]) enter) (ready : Ready limit g)
    (via : Option Locator) :
    Works limit (below ++ [subject]) (g.registry.duties below via subject) none g some
      (build enter below via subject g) := by
  have created := createWorks enters ready via
  unfold build Registry.duties
  rcases answer : create enter below via subject g with ⟨fault | e, g₁⟩
  · rw [answer] at created
    exact Work.stop created _
  · rw [answer] at created
    have sameMutators : g₁.registry.mutators subject = g.registry.mutators subject := by
      rw [created.grows.registry]
      rfl
    refine Work.andThen created ?_
    unfold Registry.mutationDuties
    rw [← sameMutators]
    refine mutateWorks enters (ready.grow created.grows) e fun p member => ?_
    obtain ⟨known, _, mutates, applies⟩ :=
      (ready.grow created.grows).indexed.mutatorFound (show (p.1, p.2) ∈ _ from member)
    exact ⟨known, mutates, applies⟩

theorem readyEnter (ready : Ready limit g) (t : TypeRef) : Ready limit (g.enter t) :=
  ⟨ready.indexed, ready.limit⟩

/- A call that leaves the calls which it makes to `ask`. -/
def callBy (ask : Nat → List TypeRef → Entering) : Nat → List TypeRef → Entering
  | room, stack, via, requested, g =>
    let subject := g.resolve requested
    let g := g.track subject
    match g.progress? subject with
    | some (.realized _) => (.ok (), g)
    | some .failed => (.error (.previouslyFailed subject), g)
    | some .realizing => (.error (.cyclic (chainTo stack subject) via), g)
    | _ =>
      match room with
      | 0 => (.error (.depthExceeded subject g.settings.maxDepth), g)
      | room + 1 =>
        settle subject (build (ask room (stack ++ [subject])) stack via subject (g.mark subject .realizing))

theorem realizeNodeCalls (room : Nat) (stack : List TypeRef) (via : Option Locator) (t : TypeRef) (g : Graph) :
    realizeNode room stack via t g = callBy realizeNode room stack via t g := by
  rcases known : (g.track (g.resolve t)).progress? (g.resolve t) with _ | _ | _ | _ | _ <;>
    cases room <;> simp only [realizeNode, callBy, known]

theorem callByTurns (ask : Nat → List TypeRef → Entering) (room : Nat) (stack : List TypeRef)
    (via : Option Locator) (t : TypeRef) (g : Graph) :
    callBy ask room stack via t g =
      match g.standing (g.resolve t), room with
      | .realized _, _ => (.ok (), g.track (g.resolve t))
      | .failed, _ => (.error (.previouslyFailed (g.resolve t)), g.track (g.resolve t))
      | .realizing, _ => (.error (.cyclic (chainTo stack (g.resolve t)) via), g.track (g.resolve t))
      | .unrealized, 0 =>
        (.error (.depthExceeded (g.resolve t) g.settings.maxDepth), g.track (g.resolve t))
      | .unrealized, room + 1 =>
        settle (g.resolve t) (build (ask room (stack ++ [g.resolve t])) stack via (g.resolve t)
          (g.enter (g.resolve t))) := by
  have tracked := progressTrack g (g.resolve t) (g.resolve t)
  rw [if_pos (TypeRef.sameSelf _)] at tracked
  unfold callBy standing
  dsimp only
  rw [tracked]
  cases (g.progress? (g.resolve t)).getD .unrealized <;> cases room <;> rfl

theorem realizeNodeTurns (room : Nat) (stack : List TypeRef) (via : Option Locator) (t : TypeRef)
    (g : Graph) :
    realizeNode room stack via t g =
      match g.standing (g.resolve t), room with
      | .realized _, _ => (.ok (), g.track (g.resolve t))
      | .failed, _ => (.error (.previouslyFailed (g.resolve t)), g.track (g.resolve t))
      | .realizing, _ => (.error (.cyclic (chainTo stack (g.resolve t)) via), g.track (g.resolve t))
      | .unrealized, 0 =>
        (.error (.depthExceeded (g.resolve t) g.settings.maxDepth), g.track (g.resolve t))
      | .unrealized, room + 1 =>
        settle (g.resolve t) (build (realizeNode room (stack ++ [g.resolve t])) stack via (g.resolve t)
          (g.enter (g.resolve t))) := by
  rw [realizeNodeCalls, callByTurns]

theorem realizeNodeWorks (room : Nat) {stack : List TypeRef} (size : room + stack.length = limit) :
    Enters limit stack (realizeNode room stack) := by
  induction room generalizing stack with
  | zero =>
    intro via t g own ready asks
    rw [realizeNodeTurns]
    cases standing : g.standing (g.resolve t) with
    | realized e => exact .present asks standing .done
    | failed => exact .failed asks standing
    | realizing => exact .cyclic asks standing
    | unrealized =>
      dsimp only
      rw [ready.limit]
      exact .deep asks standing (by omega)
  | succ room ih =>
    intro via t g own ready asks
    rw [realizeNodeTurns]
    cases standing : g.standing (g.resolve t) with
    | realized e => exact .present asks standing .done
    | failed => exact .failed asks standing
    | realizing => exact .cyclic asks standing
    | unrealized =>
      have enters : Enters limit (stack ++ [g.resolve t]) (realizeNode room (stack ++ [g.resolve t])) :=
        ih (by simp only [List.length_append, List.length_singleton]; omega)
      have built := buildWorks enters (readyEnter ready (g.resolve t)) via
      dsimp only
      rcases answer : build (realizeNode room (stack ++ [g.resolve t])) stack via (g.resolve t)
          (g.enter (g.resolve t)) with ⟨fault | e, g₁⟩
      · rw [answer] at built
        exact .unbuilt asks standing (by omega) built
      · rw [answer] at built
        exact .built asks standing (by omega) built .done

end Realization.Graph
