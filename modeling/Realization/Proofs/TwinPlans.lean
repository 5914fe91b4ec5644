import Realization.Proofs.Planning
import Realization.Proofs.Twins

/-!
Planning on two graphs whose rules are the same in another order. The duties of a type are the same but for the
numbers of the rules, which no plan tells, so the drafts come out alike along the duties and so do the plans.
-/
namespace Realization

def Duty.unnumbered : Duty → Duty
  | .run subject _ rule => .run subject 0 rule
  | duty => duty

def Duty.Inside (forms : List TypeRef) : Duty → Prop
  | .input _ t | .synthesize t => t ∈ forms
  | _ => True

namespace Registry

variable {forms below : List TypeRef} {r r' : Registry} {via : Option Locator} {s : TypeRef}

theorem ruleUnnumbered (s : TypeRef) (id : RuleId) (rule : Rule) :
    (rule.duties s id).map Duty.unnumbered = rule.duties s 0 := by
  simp [Rule.duties, Duty.unnumbered, Function.comp_def]

theorem Kin.duties (kin : Kin forms r r') :
    (r.duties below via s).map Duty.unnumbered = (r'.duties below via s).map Duty.unnumbered := by
  have creation : (r.creationDuties below via s).map Duty.unnumbered =
      (r'.creationDuties below via s).map Duty.unnumbered := by
    have same := kin.creator s
    unfold creationDuties
    generalize r.creator? s = found at same ⊢
    generalize r'.creator? s = found' at same ⊢
    rcases found with _ | ⟨id, rule⟩ <;> rcases found' with _ | ⟨id', rule'⟩
    · rfl
    · contradiction
    · contradiction
    · cases (show some rule = some rule' from same)
      simp only [List.map_append, ruleUnnumbered]
  have mutation : ∀ q : Registry, (q.mutationDuties s).map Duty.unnumbered =
      ((q.mutators s).map (·.2)).flatMap fun rule => rule.duties s 0 := by
    intro q
    simp only [mutationDuties, List.map_flatMap, List.flatMap_map, ruleUnnumbered]
  simp only [Registry.duties, List.map_append, creation, mutation, kin.mutators]

theorem Kin.dutyInside (kin : Kin forms r r') (inside : s ∈ forms) :
    ∀ duty ∈ (r.duties below via s).map Duty.unnumbered, duty.Inside forms := by
  intro duty member
  obtain ⟨duty, listed, rfl⟩ := List.mem_map.mp member
  rcases kin.indexed.dutyCases listed with ⟨rfl, _⟩ | ⟨rfl, _⟩ |
    ⟨id, rule, _, mentioned, _, ⟨i, declared, rfl⟩ | rfl⟩
  · exact inside
  · trivial
  · exact kin.inside i (List.mem_flatMap.mpr ⟨rule, mentioned, List.mem_cons_of_mem _ declared⟩)
  · trivial

end Registry

theorem Graph.planDutiesUnnumbered (visit : Graph.Visiting) (duties : List Duty) (d : Draft) :
    Graph.planDuties visit (duties.map Duty.unnumbered) d = Graph.planDuties visit duties d := by
  induction duties generalizing d with
  | nil => rfl
  | cons duty rest ih => cases duty <;> simp only [List.map_cons, Duty.unnumbered, Graph.planDuties, ih]

namespace Comparison

variable {c : Comparison} {g h : Graph} {s t : TypeRef} {via : Option Locator} {stack : List TypeRef}
  {d d' : Draft}

structure Drafts (c : Comparison) (d d' : Draft) : Prop where
  steps : d.steps = d'.steps
  done : d.done = d'.done
  remembers : c.Remembers d.verdicts
  remembers' : c.Remembers d'.verdicts

theorem Drafts.isDone (drafts : c.Drafts d d') (s : TypeRef) : d.isDone s = d'.isDone s := by
  simp only [Draft.isDone, drafts.done]

theorem Drafts.finish (drafts : c.Drafts d d') (s : TypeRef) : c.Drafts (d.finish s) (d'.finish s) where
  __ := drafts
  done := by simp only [Draft.finish, drafts.done]

theorem Drafts.step (drafts : c.Drafts d d') (kind : Step.Kind) (s : TypeRef) (rule : Option Locator) :
    c.Drafts (d.step kind s rule) (d'.step kind s rule) where
  __ := drafts
  steps := by simp only [Draft.step, drafts.steps]

theorem Drafts.remember (drafts : c.Drafts d d') {v w : Verdicts} (remembers : c.Remembers v)
    (remembers' : c.Remembers w) : c.Drafts { d with verdicts := v } { d' with verdicts := w } :=
  ⟨drafts.steps, drafts.done, remembers, remembers'⟩

theorem planSynthesisAlike (kin : c.Kin) (drafts : c.Drafts d d') (inside : s ∈ c.forms) :
    Alike c.Drafts (Graph.planSynthesis s d) (Graph.planSynthesis s d') := by
  unfold Graph.planSynthesis
  obtain ⟨fault, v, w, answer, answer', learnt⟩ | ⟨contract, v, w, answer, answer', learnt⟩ :=
    (contractForAlike kin inside drafts.remembers drafts.remembers').cases <;> rw [answer, answer']
  · exact ⟨rfl, drafts.remember learnt.1 learnt.2⟩
  · exact ⟨rfl, (drafts.remember learnt.1 learnt.2).step .synthesize s none⟩

theorem planDutiesAlike (kin : c.Kin) {visit visit' : Graph.Visiting}
    (visits : ∀ via t d d', c.Drafts d d' → t ∈ c.forms → Alike c.Drafts (visit via t d) (visit' via t d'))
    {duties : List Duty} (inside : ∀ duty ∈ duties, duty.Inside c.forms) (drafts : c.Drafts d d') :
    Alike c.Drafts (Graph.planDuties visit duties d) (Graph.planDuties visit' duties d') := by
  induction duties generalizing d d' with
  | nil => exact ⟨rfl, drafts⟩
  | cons duty rest ih =>
    obtain ⟨here, tail⟩ := List.forall_mem_cons.mp inside
    cases duty with
    | synthesize s =>
      unfold Graph.planDuties
      obtain ⟨fault, d₁, d₁', answer, answer', left⟩ | ⟨_, d₁, d₁', answer, answer', left⟩ :=
        (planSynthesisAlike kin drafts here).cases <;> rw [answer, answer']
      · exact ⟨rfl, left⟩
      · exact ih tail left
    | input via t =>
      unfold Graph.planDuties
      obtain ⟨fault, d₁, d₁', answer, answer', left⟩ | ⟨_, d₁, d₁', answer, answer', left⟩ :=
        (visits via t d d' drafts here).cases <;> rw [answer, answer']
      · exact ⟨rfl, left⟩
      · exact ih tail left
    | run s id rule => exact ih tail (drafts.step _ s _)
    | lack => exact ⟨rfl, drafts⟩

theorem dutiesPlannedAlike (kin : c.Kin) (twin : c.Twin g h) {visit visit' : Graph.Visiting}
    (visits : ∀ via t d d', c.Drafts d d' → t ∈ c.forms → Alike c.Drafts (visit via t d) (visit' via t d'))
    (inside : s ∈ c.forms) (drafts : c.Drafts d d') (stack : List TypeRef) (via : Option Locator) :
    Alike c.Drafts (Graph.planDuties visit (g.registry.duties stack via s) d)
      (Graph.planDuties visit' (h.registry.duties stack via s) d') := by
  rw [Registry.dutiesKept twin.rules twin.entries, Registry.dutiesKept twin.rules' twin.entries',
    ← Graph.planDutiesUnnumbered visit, ← Graph.planDutiesUnnumbered visit', ← kin.duties]
  exact planDutiesAlike kin visits (kin.dutyInside inside) drafts

theorem visitNodeAlike (kin : c.Kin) (twin : c.Twin g h) (room : Nat) (stack : List TypeRef)
    (via : Option Locator) (t : TypeRef) (d d' : Draft) (drafts : c.Drafts d d') (inside : t ∈ c.forms) :
    Alike c.Drafts (Graph.visitNode g room stack via t d) (Graph.visitNode h room stack via t d') := by
  induction room generalizing stack via t d d' with
  | zero =>
    rw [Graph.visitNodeTurns (twin.ready kin).indexed, Graph.visitNodeTurns (twin.indexed' kin),
      ← twin.resolve kin, ← twin.standing, ← drafts.isDone, twin.settings, twin.settings']
    split
    · exact ⟨rfl, drafts⟩
    · exact ⟨rfl, drafts⟩
    · split
      · exact ⟨rfl, drafts⟩
      · split <;> exact ⟨rfl, drafts⟩
  | succ room ih =>
    have planned := dutiesPlannedAlike kin twin (ih (stack ++ [g.resolve t])) (twin.resolved kin inside)
      drafts stack via
    rw [Graph.visitNodeTurns (twin.ready kin).indexed, Graph.visitNodeTurns (twin.indexed' kin),
      ← twin.resolve kin, ← twin.standing, ← drafts.isDone]
    split
    · exact ⟨rfl, drafts⟩
    · exact ⟨rfl, drafts⟩
    · split
      · exact ⟨rfl, drafts⟩
      · split
        · exact ⟨rfl, drafts⟩
        · dsimp only
          obtain ⟨fault, d₁, d₁', answer, answer', left⟩ | ⟨_, d₁, d₁', answer, answer', left⟩ :=
            planned.cases <;> rw [answer, answer']
          · exact ⟨rfl, left⟩
          · exact ⟨rfl, left.finish _⟩

theorem planAlike (kin : c.Kin) (twin : c.Twin g h) (inside : t ∈ c.forms) :
    Alike c.Twin (g.plan t) (h.plan t) := by
  have fresh : c.Drafts { verdicts := g.registry.verdicts } { verdicts := h.registry.verdicts } :=
    ⟨rfl, rfl, twin.remembers, twin.remembers'⟩
  unfold Graph.plan
  rw [twin.settings, twin.settings']
  obtain ⟨fault, d₁, d₁', answer, answer', left⟩ | ⟨_, d₁, d₁', answer, answer', left⟩ :=
    (visitNodeAlike kin twin c.settings.maxDepth [] none t _ _ fresh inside).cases <;> rw [answer, answer']
  · exact ⟨rfl, twin.remember left.remembers left.remembers'⟩
  · exact ⟨congrArg Except.ok left.steps, twin.remember left.remembers left.remembers'⟩

end Comparison

end Realization
