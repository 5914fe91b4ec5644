import Realization.Graph.Plan
import Realization.Proofs.Work

/-!
Planning goes through the same duties as realizing. A draft only grows while it is planned: steps
are added at the end, a type that is done stays done, and every instance that a step would
synthesize has a verdict of acceptance in memory.
-/
namespace Realization

def Body.stepKind : Body → Step.Kind
  | .producer _ => .produce
  | .initializer _ => .initializer
  | .mutator _ => .mutate

namespace Graph

/- Every duty is planned as it would be met, up to the first fault. -/
def planDuties (visit : Visiting) : List Duty → Draft → Except Fault Unit × Draft
  | [], d => (.ok (), d)
  | .synthesize subject :: rest, d =>
    match planSynthesis subject d with
    | (.error fault, d) => (.error fault, d)
    | (.ok (), d) => planDuties visit rest d
  | .input via t :: rest, d =>
    match visit via t d with
    | (.error fault, d) => (.error fault, d)
    | (.ok (), d) => planDuties visit rest d
  | .run subject _ rule :: rest, d =>
    planDuties visit rest (d.step rule.body.stepKind subject (some rule.locator))
  | .lack subject requiredBy via :: _, d => (.error (.noCreator subject requiredBy via), d)

theorem planSynthesized {visit : Visiting} {s : TypeRef} {rest : List Duty} {d d' : Draft} :
    planDuties visit (.synthesize s :: rest) d = (.ok (), d') ↔
      ∃ contract v, contractFor s d.verdicts = (.ok contract, v) ∧
        planDuties visit rest (Draft.step { d with verdicts := v } .synthesize s none) = (.ok (), d') := by
  simp only [planDuties, planSynthesis]
  rcases contractFor s d.verdicts with ⟨fault | contract, v⟩ <;> simp [and_assoc]

theorem planObtained {visit : Visiting} {via : Option Locator} {t : TypeRef} {rest : List Duty} {d d' : Draft} :
    planDuties visit (.input via t :: rest) d = (.ok (), d') ↔
      ∃ d₁, visit via t d = (.ok (), d₁) ∧ planDuties visit rest d₁ = (.ok (), d') := by
  simp only [planDuties]
  rcases visit via t d with ⟨fault | _, d₁⟩ <;> simp

theorem planAppend (visit : Visiting) (first second : List Duty) (d : Draft) :
    planDuties visit (first ++ second) d =
      match planDuties visit first d with
      | (.error fault, d) => (.error fault, d)
      | (.ok (), d) => planDuties visit second d := by
  induction first generalizing d with
  | nil => rfl
  | cons duty rest ih =>
    cases duty with
    | synthesize subject =>
      simp only [List.cons_append, planDuties]
      rcases planSynthesis subject d with ⟨fault | _, d⟩
      · rfl
      · exact ih d
    | input via t =>
      simp only [List.cons_append, planDuties]
      rcases visit via t d with ⟨fault | _, d⟩
      · rfl
      · exact ih d
    | run subject id rule => exact ih _
    | lack => rfl

theorem visitAllDuties (visit : Visiting) (via : Option Locator) (types : List TypeRef) (d : Draft) :
    visitAll (visit via) types d = planDuties visit (types.map (.input via)) d := by
  induction types generalizing d with
  | nil => rfl
  | cons t rest ih =>
    simp only [visitAll, List.map_cons, planDuties]
    rcases visit via t d with ⟨fault | _, d⟩
    · rfl
    · exact ih d

theorem planRuleDuties (visit : Visiting) {kind : Step.Kind} (subject : TypeRef) (id : RuleId)
    {rule : Rule} (fits : rule.body.stepKind = kind) (d : Draft) :
    planRule visit kind subject rule d = planDuties visit (rule.duties subject id) d := by
  unfold planRule Rule.duties
  rw [planAppend, visitAllDuties]
  rcases planDuties visit (rule.inputs.map (.input (some rule.locator))) d with ⟨fault | _, d⟩
  · rfl
  · simp only [planDuties, fits]

theorem planMutationsDuties (visit : Visiting) (subject : TypeRef) {rules : List (RuleId × Rule)}
    (mutate : ∀ p ∈ rules, p.2.creates = false) (d : Draft) :
    planMutations visit subject rules d =
      planDuties visit (rules.flatMap fun (id, rule) => rule.duties subject id) d := by
  induction rules generalizing d with
  | nil => rfl
  | cons p rest ih =>
    obtain ⟨id, rule⟩ := p
    have fits : rule.body.stepKind = .mutate := by
      have kind := mutate (id, rule) List.mem_cons_self
      cases body : rule.body <;> simp [Rule.creates, Body.creates, body, Body.stepKind] at kind ⊢
    rw [List.flatMap_cons, planAppend, ← planRuleDuties visit subject id fits]
    unfold planMutations
    rcases planRule visit .mutate subject rule d with ⟨fault | _, d⟩
    · rfl
    · exact ih (fun q member => mutate q (List.mem_cons_of_mem _ member)) d

theorem planCreationDuties {g : Graph} (indexed : g.registry.Indexed) (visit : Visiting)
    (stack : List TypeRef) (via : Option Locator) (subject : TypeRef) (d : Draft) :
    planCreation g visit stack via subject d =
      planDuties visit (g.registry.creationDuties stack via subject) d := by
  unfold planCreation Registry.creationDuties
  cases found : g.registry.creator? subject with
  | none =>
    dsimp only
    split
    · simp only [planDuties]
      rcases planSynthesis subject d with ⟨fault | _, d⟩ <;> rfl
    · rfl
  | some p =>
    obtain ⟨id, rule⟩ := p
    have creates := (indexed.creatorFound found).2.2.1
    cases body : rule.body with
    | producer run =>
      simp only [Rule.isInitializer, body]
      exact planRuleDuties visit subject id (by rw [body]; rfl) d
    | initializer run =>
      simp only [Rule.isInitializer, body, if_true, List.singleton_append, planDuties]
      rcases planSynthesis subject d with ⟨fault | _, d⟩
      · rfl
      · exact planRuleDuties visit subject id (by rw [body]; rfl) d
    | mutator run => simp [Rule.creates, Body.creates, body] at creates

theorem planBuildDuties {g : Graph} (indexed : g.registry.Indexed) (visit : Visiting)
    (stack : List TypeRef) (via : Option Locator) (subject : TypeRef) (d : Draft) :
    planBuild g visit stack via subject d =
      match planDuties visit (g.registry.duties stack via subject) d with
      | (.error fault, d) => (.error fault, d)
      | (.ok (), d) => (.ok (), d.finish subject) := by
  have mutate : ∀ p ∈ g.registry.mutators subject, p.2.creates = false :=
    fun p member => (indexed.mutatorFound (show (p.1, p.2) ∈ _ from member)).2.2.1
  unfold planBuild Registry.duties Registry.mutationDuties
  rw [planAppend, planCreationDuties indexed]
  rcases planDuties visit (g.registry.creationDuties stack via subject) d with ⟨fault | _, d⟩
  · rfl
  · have mutations := planMutationsDuties visit subject mutate d
    dsimp only
    generalize planMutations visit subject (g.registry.mutators subject) d = answer at mutations ⊢
    subst mutations
    rfl

end Graph

namespace Draft

def Accepted (d : Draft) : Prop :=
  ∀ step ∈ d.steps, step.kind = .synthesize →
    ∃ declaration, step.subject = .managed declaration ∧ d.verdicts.Accepts declaration

structure Leads (d d' : Draft) : Prop where
  steps : d.steps <+: d'.steps
  done : d.done <+: d'.done
  verdicts : d.verdicts.Within d'.verdicts
  genuine : d.verdicts.Genuine → d'.verdicts.Genuine
  accepted : d.Accepted → d'.Accepted

theorem leadsRefl (d : Draft) : d.Leads d :=
  ⟨List.prefix_refl _, List.prefix_refl _, d.verdicts.withinRefl, id, id⟩

theorem Leads.trans {a b c : Draft} (first : a.Leads b) (second : b.Leads c) : a.Leads c where
  steps := first.steps.trans second.steps
  done := first.done.trans second.done
  verdicts := first.verdicts.trans second.verdicts
  genuine start := second.genuine (first.genuine start)
  accepted start := second.accepted (first.accepted start)

theorem isDoneCongr {t u : TypeRef} (named : t.name = u.name) (d : Draft) : d.isDone t = d.isDone u := by
  simp only [Draft.isDone, TypeRef.sameCongr named]

theorem finishOther {s t : TypeRef} (other : s.name ≠ t.name) (d : Draft) : (d.finish s).isDone t = d.isDone t := by
  have apart : s.same t = false := by
    rw [Bool.eq_false_iff, Ne, TypeRef.sameIff]
    exact other
  simp [Draft.isDone, Draft.finish, apart]

theorem Leads.isDone {d d' : Draft} (leads : d.Leads d') {t : TypeRef} (done : d.isDone t = true) :
    d'.isDone t = true := by
  obtain ⟨s, member, same⟩ := List.any_eq_true.mp done
  exact List.any_eq_true.mpr ⟨s, leads.done.subset member, same⟩

theorem leadsStep (d : Draft) {kind : Step.Kind} (real : kind ≠ .synthesize) (subject : TypeRef)
    (rule : Option Locator) : d.Leads (d.step kind subject rule) where
  steps := List.prefix_append _ _
  done := List.prefix_refl _
  verdicts := d.verdicts.withinRefl
  genuine := id
  accepted start step member synthesis := by
    rcases List.mem_append.mp member with old | new
    · exact start step old synthesis
    · cases List.mem_singleton.mp new
      contradiction

theorem leadsFinish (d : Draft) (subject : TypeRef) : d.Leads (d.finish subject) :=
  ⟨List.prefix_refl _, List.prefix_append _ _, d.verdicts.withinRefl, id, id⟩

theorem leadsRemember (d : Draft) {verdicts : Verdicts} (within : d.verdicts.Within verdicts)
    (genuine : d.verdicts.Genuine → verdicts.Genuine) : d.Leads { d with verdicts } where
  steps := List.prefix_refl _
  done := List.prefix_refl _
  verdicts := within
  genuine := genuine
  accepted start step member synthesis := by
    obtain ⟨declaration, subject, accepts⟩ := start step member synthesis
    exact ⟨declaration, subject, accepts.within within⟩

end Draft

namespace Graph

theorem planSynthesisLeads (subject : TypeRef) (d : Draft) : d.Leads (planSynthesis subject d).2 := by
  have within := contractForWithin subject d.verdicts
  have genuine := @contractForGenuine subject d.verdicts
  unfold planSynthesis
  rcases answer : contractFor subject d.verdicts with ⟨fault | contract, verdicts⟩
  · rw [answer] at within genuine
    exact d.leadsRemember within genuine
  · rw [answer] at within genuine
    have remembered := d.leadsRemember within genuine
    refine ⟨List.prefix_append _ _, List.prefix_refl _, within, genuine, fun start => ?_⟩
    intro step member synthesis
    rcases List.mem_append.mp member with old | new
    · exact remembered.accepted start step old synthesis
    · cases List.mem_singleton.mp new
      obtain ⟨declaration, same, found⟩ := contractForDeclared answer
      exact ⟨declaration, same, contract, found⟩

theorem planDutiesLeads {visit : Visiting} (leads : ∀ via t (d : Draft), d.Leads (visit via t d).2)
    (duties : List Duty) (d : Draft) : d.Leads (planDuties visit duties d).2 := by
  induction duties generalizing d with
  | nil => exact d.leadsRefl
  | cons duty rest ih =>
    cases duty with
    | synthesize subject =>
      have first := planSynthesisLeads subject d
      unfold planDuties
      rcases answer : planSynthesis subject d with ⟨fault | _, d₁⟩ <;> rw [answer] at first
      · exact first
      · exact first.trans (ih d₁)
    | input via t =>
      have first := leads via t d
      unfold planDuties
      rcases answer : visit via t d with ⟨fault | _, d₁⟩ <;> rw [answer] at first
      · exact first
      · exact first.trans (ih d₁)
    | run subject id rule =>
      have real : rule.body.stepKind ≠ .synthesize := by cases rule.body <;> simp [Body.stepKind]
      exact (d.leadsStep real subject _).trans (ih _)
    | lack => exact d.leadsRefl

theorem visitNodeTurns {g : Graph} (indexed : g.registry.Indexed) (room : Nat)
    (stack : List TypeRef) (via : Option Locator) (t : TypeRef) (d : Draft) :
    visitNode g room stack via t d =
      match g.standing (g.resolve t) with
      | .realized _ => (.ok (), d)
      | .failed => (.error (.previouslyFailed (g.resolve t)), d)
      | _ =>
        if d.isDone (g.resolve t) then (.ok (), d)
        else if stack.any (·.same (g.resolve t)) then
          (.error (.cyclic (chainTo stack (g.resolve t)) via), d)
        else
          match room with
          | 0 => (.error (.depthExceeded (g.resolve t) g.settings.maxDepth), d)
          | room + 1 =>
            match planDuties (visitNode g room (stack ++ [g.resolve t]))
                (g.registry.duties stack via (g.resolve t)) d with
            | (.error fault, d) => (.error fault, d)
            | (.ok (), d) => (.ok (), d.finish (g.resolve t)) := by
  unfold visitNode standing
  dsimp only
  cases room with
  | zero => rcases g.progress? (g.resolve t) with _ | _ | _ | _ | _ <;> rfl
  | succ room =>
    rcases g.progress? (g.resolve t) with _ | _ | _ | _ | _ <;>
      simp only [Option.getD_some, Option.getD_none, planBuildDuties indexed]

theorem onStackCongr {t u : TypeRef} (named : t.name = u.name) (stack : List TypeRef) :
    stack.any (·.same t) = stack.any (·.same u) := by
  simp only [TypeRef.sameCongr named]

/- What a visit does depends on the name that is asked for alone. -/
theorem visitNodeNamed {g : Graph} (indexed : g.registry.Indexed) (room : Nat)
    (stack : List TypeRef) (via : Option Locator) (t : TypeRef) (d : Draft) :
    visitNode g room stack via t d =
      match g.standing t with
      | .realized _ => (.ok (), d)
      | .failed => (.error (.previouslyFailed (g.resolve t)), d)
      | _ =>
        if d.isDone t then (.ok (), d)
        else if stack.any (·.same t) then (.error (.cyclic (chainTo stack (g.resolve t)) via), d)
        else
          match room with
          | 0 => (.error (.depthExceeded (g.resolve t) g.settings.maxDepth), d)
          | room + 1 =>
            match planDuties (visitNode g room (stack ++ [g.resolve t]))
                (g.registry.duties stack via (g.resolve t)) d with
            | (.error fault, d) => (.error fault, d)
            | (.ok (), d) => (.ok (), d.finish (g.resolve t)) := by
  have named := resolveName indexed t
  rw [visitNodeTurns indexed, standingResolve indexed, Draft.isDoneCongr named, onStackCongr named]

theorem visitNodeLeads {g : Graph} (indexed : g.registry.Indexed) (room : Nat)
    (stack : List TypeRef) (via : Option Locator) (t : TypeRef) (d : Draft) :
    d.Leads (visitNode g room stack via t d).2 := by
  induction room generalizing stack via t d with
  | zero =>
    rw [visitNodeTurns indexed]
    split
    · exact d.leadsRefl
    · exact d.leadsRefl
    · split
      · exact d.leadsRefl
      · split <;> exact d.leadsRefl
  | succ room ih =>
    rw [visitNodeTurns indexed]
    split
    · exact d.leadsRefl
    · exact d.leadsRefl
    · split
      · exact d.leadsRefl
      · split
        · exact d.leadsRefl
        · have planned := planDutiesLeads (ih (stack ++ [g.resolve t]))
            (g.registry.duties stack via (g.resolve t)) d
          dsimp only
          rcases answer : planDuties (visitNode g room (stack ++ [g.resolve t]))
            (g.registry.duties stack via (g.resolve t)) d with ⟨fault | _, d₁⟩ <;> rw [answer] at planned
          · exact planned
          · exact planned.trans (d₁.leadsFinish _)

theorem planVisits {g : Graph} {t : TypeRef} {steps : List Step} : (g.plan t).1 = .ok steps ↔
    ∃ d, visitNode g g.settings.maxDepth [] none t { verdicts := g.registry.verdicts } = (.ok (), d) ∧
      d.steps = steps := by
  unfold plan
  rcases visitNode g g.settings.maxDepth [] none t { verdicts := g.registry.verdicts }
    with ⟨fault | _, d⟩ <;> simp

inductive Stumps (visit : Visiting) (start : Draft) : Duty → Fault → Prop where
  | contract {s d fault} (leads : start.Leads d) (answer : (contractFor s d.verdicts).1 = .error fault) :
      Stumps visit start (.synthesize s) fault
  | source {s requiredBy via} : Stumps visit start (.lack s requiredBy via) (.noCreator s requiredBy via)
  | input {via t d fault} (leads : start.Leads d) (answer : (visit via t d).1 = .error fault) :
      Stumps visit start (.input via t) fault

theorem planDutiesStumps {visit : Visiting} {duties : List Duty} {start d : Draft} {fault : Fault}
    (grows : ∀ via t (d : Draft), d.Leads (visit via t d).2) (leads : start.Leads d)
    (answer : (planDuties visit duties d).1 = .error fault) :
    ∃ duty ∈ duties, Stumps visit start duty fault := by
  induction duties generalizing d with
  | nil => contradiction
  | cons duty rest ih =>
    have later : ∀ {d' : Draft}, start.Leads d' → (planDuties visit rest d').1 = .error fault →
        ∃ x ∈ duty :: rest, Stumps visit start x fault := by
      intro d' leads answer
      obtain ⟨x, member, stumps⟩ := ih leads answer
      exact ⟨x, List.mem_cons_of_mem _ member, stumps⟩
    cases duty with
    | synthesize s =>
      have grown := planSynthesisLeads s d
      unfold planDuties at answer
      rcases made : planSynthesis s d with ⟨fault' | _, d'⟩ <;> rw [made] at answer grown
      · cases answer
        refine ⟨_, List.mem_cons_self, @Stumps.contract visit start s d fault leads ?_⟩
        unfold planSynthesis at made
        rcases given : contractFor s d.verdicts with ⟨fault' | contract, verdicts⟩ <;> rw [given] at made <;>
          cases made
        rfl
      · exact later (leads.trans grown) answer
    | input via t =>
      have grown := grows via t d
      unfold planDuties at answer
      rcases visited : visit via t d with ⟨fault' | _, d'⟩ <;> rw [visited] at answer grown
      · cases answer
        exact ⟨_, List.mem_cons_self, @Stumps.input visit start via t d fault leads (by rw [visited])⟩
      · exact later (leads.trans grown) answer
    | run s id rule =>
      have real : rule.body.stepKind ≠ .synthesize := by cases rule.body <;> simp [Body.stepKind]
      exact later (leads.trans (d.leadsStep real s _)) answer
    | lack s requiredBy via =>
      cases answer
      exact ⟨_, List.mem_cons_self, .source⟩

theorem visitNodeStumps {g : Graph} {room : Nat} {stack : List TypeRef} {via : Option Locator} {t : TypeRef}
    {d : Draft} {fault : Fault} (indexed : g.registry.Indexed)
    (answer : (visitNode g room stack via t d).1 = .error fault) :
    fault = .previouslyFailed (g.resolve t) ∨
      (∃ x ∈ stack, x.name = (g.resolve t).name) ∧ fault = .cyclic (chainTo stack (g.resolve t)) via ∨
      (∀ x ∈ stack, x.name ≠ (g.resolve t).name) ∧
        (room = 0 ∧ fault = .depthExceeded (g.resolve t) g.settings.maxDepth ∨
          ∃ left, room = left + 1 ∧ ∃ duty ∈ g.registry.duties stack via (g.resolve t),
            Stumps (visitNode g left (stack ++ [g.resolve t])) d duty fault) := by
  have onStack : stack.any (·.same (g.resolve t)) = true ↔ ∃ x ∈ stack, x.name = (g.resolve t).name := by
    simp only [List.any_eq_true, TypeRef.sameIff]
  rw [visitNodeTurns indexed] at answer
  split at answer
  · contradiction
  · cases answer
    exact .inl rfl
  · split at answer
    · contradiction
    · split at answer
      · rename_i under
        cases answer
        exact .inr (.inl ⟨onStack.mp under, rfl⟩)
      · rename_i apart
        have fresh : ∀ x ∈ stack, x.name ≠ (g.resolve t).name :=
          fun x member same => apart (onStack.mpr ⟨x, member, same⟩)
        cases room with
        | zero =>
          cases answer
          exact .inr (.inr ⟨fresh, .inl ⟨rfl, rfl⟩⟩)
        | succ left =>
          refine .inr (.inr ⟨fresh, .inr ⟨left, rfl, ?_⟩⟩)
          refine planDutiesStumps (visitNodeLeads indexed left (stack ++ [g.resolve t])) d.leadsRefl ?_
          dsimp only at answer
          rcases planned : planDuties (visitNode g left (stack ++ [g.resolve t]))
            (g.registry.duties stack via (g.resolve t)) d with ⟨fault' | _, d'⟩ <;> rw [planned] at answer
          · exact answer
          · contradiction

end Graph

end Realization
