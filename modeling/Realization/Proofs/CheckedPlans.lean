import Realization.Proofs.Assurance

/-!
After the static check planning succeeds for every known type, and planning that succeeds for all of them shows
that the check would pass: a plan visits whatever a type depends on, and visits nothing twice on its way.
-/
namespace Realization.Graph

open Relation

variable {g : Graph} {t u : TypeRef} {stack : List TypeRef} {via : Option Locator} {duties : List Duty}

theorem planDutiesAssured {visit : Visiting} (leads : ∀ via t (d : Draft), d.Leads (visit via t d).2)
    (assured : g.Assured duties)
    (visits : ∀ via t, .input via t ∈ duties → ∀ d : Draft, g.registry.verdicts.Within d.verdicts →
      (visit via t d).1 = .ok ()) {d : Draft} (within : g.registry.verdicts.Within d.verdicts) :
    (planDuties visit duties d).1 = .ok () := by
  induction duties generalizing d with
  | nil => rfl
  | cons duty rest ih =>
    have later := fun {d : Draft} => @ih assured.rest
      (fun via t member => visits via t (List.mem_cons_of_mem _ member)) d
    cases duty with
    | synthesize u =>
      obtain ⟨declaration, rfl, accepts⟩ := assured.accepted u List.mem_cons_self
      obtain ⟨contract, answer⟩ := contractForAccepted (accepts.within within)
      simp only [planDuties, planSynthesis, answer]
      exact later within
    | input via t =>
      have first := visits via t List.mem_cons_self d within
      have grown := (leads via t d).verdicts
      unfold planDuties
      rcases answer : visit via t d with ⟨fault | _, d₁⟩ <;> rw [answer] at first grown
      · contradiction
      · exact later (within.trans grown)
    | run subject id rule => exact later within
    | lack u requiredBy via => exact absurd List.mem_cons_self (assured.sourced u requiredBy via)

theorem visitChecked (coherent : g.Coherent) (fresh : ∀ t, g.standing t = .unrealized)
    (checked : g.Checked) (small : g.nodes.length ≤ g.settings.maxDepth) {room : Nat}
    (size : room + stack.length = g.settings.maxDepth) (chained : g.Chained stack)
    (asks : g.registry.Asks stack via t) (known : t.name ∈ g.names) {d : Draft}
    (within : g.registry.verdicts.Within d.verdicts) : (visitNode g room stack via t d).1 = .ok () := by
  have indexed := coherent.sound.indexed
  induction room generalizing stack via t d with
  | zero =>
    have free := chained.room known (chained.apart checked.acyclic asks)
    omega
  | succ room ih =>
    have apart := chained.apart checked.acyclic asks
    rw [visitNodeTurns indexed, fresh]
    dsimp only
    split
    · rfl
    · rw [if_neg (offStack (resolveName indexed t) apart)]
      have planned := planDutiesAssured (visitNodeLeads indexed room (stack ++ [g.resolve t]))
        (coherent.assured (fresh t) (checked.supplied t known (fresh t)) stack via)
        (fun by' i member d within => by
          exact ih (by rw [List.length_append, List.length_singleton]; omega)
            (chained.push asks (resolveName indexed t) known apart) (indexed.dutyAsks member).1
            (coherent.tracked.known (indexed.dutyMentioned member)) within) within
      rcases answer : planDuties (visitNode g room (stack ++ [g.resolve t]))
        (g.registry.duties stack via (g.resolve t)) d with ⟨fault | _, d₁⟩
      · rw [answer] at planned
        contradiction
      · rfl

def Grounded (g : Graph) (d : Draft) : Prop :=
  ∀ t, d.isDone t = true → Acc (fun b a => g.registry.Needs a b) t.name

theorem planDutiesGrounded {visit : Visiting} (leads : ∀ via t (d : Draft), d.Leads (visit via t d).2)
    (visits : ∀ via t (d : Draft), (visit via t d).1 = .ok () → g.Grounded d →
      g.Grounded (visit via t d).2 ∧ (visit via t d).2.isDone t = true)
    {d : Draft} (planned : (planDuties visit duties d).1 = .ok ()) (grounded : g.Grounded d) :
    g.Grounded (planDuties visit duties d).2 ∧
      ∀ via t, .input via t ∈ duties → (planDuties visit duties d).2.isDone t = true := by
  induction duties generalizing d with
  | nil => exact ⟨grounded, by simp⟩
  | cons duty rest ih =>
    have skip : ∀ {d' : Draft}, (∀ via t, duty ≠ .input via t) →
        (planDuties visit rest d').1 = .ok () → g.Grounded d' →
        g.Grounded (planDuties visit rest d').2 ∧
          ∀ via t, .input via t ∈ duty :: rest → (planDuties visit rest d').2.isDone t = true := by
      intro d' other planned grounded
      obtain ⟨after, done⟩ := ih planned grounded
      refine ⟨after, fun via t member => ?_⟩
      rcases List.mem_cons.mp member with same | member
      · exact absurd same.symm (other via t)
      · exact done via t member
    cases duty with
    | synthesize u =>
      simp only [planDuties, planSynthesis] at planned ⊢
      rcases answer : contractFor u d.verdicts with ⟨fault | contract, v⟩ <;> rw [answer] at planned
      · contradiction
      · exact skip (by simp) planned grounded
    | input via t =>
      have first := visits via t d
      unfold planDuties at planned ⊢
      rcases answer : visit via t d with ⟨fault | _, d₁⟩ <;> rw [answer] at first planned
      · contradiction
      · obtain ⟨between, here⟩ := first rfl grounded
        obtain ⟨after, done⟩ := ih planned between
        refine ⟨after, fun via' t' member => ?_⟩
        rcases List.mem_cons.mp member with same | member
        · cases same
          exact (planDutiesLeads leads rest d₁).isDone here
        · exact done via' t' member
    | run subject id rule => exact skip (by simp) planned grounded
    | lack u requiredBy via => contradiction

/- Where a plan succeeds on a graph that has not realized anything, no needs go on for ever. -/
theorem visitGrounded (sound : g.registry.Sound) (fresh : ∀ t, g.standing t = .unrealized) {room : Nat}
    {d : Draft} (planned : (visitNode g room stack via t d).1 = .ok ()) (grounded : g.Grounded d) :
    g.Grounded (visitNode g room stack via t d).2 ∧
      (visitNode g room stack via t d).2.isDone t = true := by
  have indexed := sound.indexed
  induction room generalizing stack via t d with
  | zero =>
    rw [visitNodeTurns indexed, fresh] at planned ⊢
    dsimp only at planned ⊢
    split at planned
    · rename_i done
      rw [if_pos done]
      exact ⟨grounded, (Draft.isDoneCongr (resolveName indexed t) d).symm.trans done⟩
    · split at planned <;> contradiction
  | succ room ih =>
    rw [visitNodeTurns indexed, fresh] at planned ⊢
    dsimp only at planned ⊢
    split at planned
    · rename_i done
      rw [if_pos done]
      exact ⟨grounded, (Draft.isDoneCongr (resolveName indexed t) d).symm.trans done⟩
    · split at planned
      · contradiction
      · rename_i undone apart
        rw [if_neg undone, if_neg apart]
        have inner := @planDutiesGrounded g (g.registry.duties stack via (g.resolve t)) _
          (visitNodeLeads indexed room (stack ++ [g.resolve t])) (fun via t d => ih) d
        rcases answer : planDuties (visitNode g room (stack ++ [g.resolve t]))
          (g.registry.duties stack via (g.resolve t)) d with ⟨fault | _, d₁⟩ <;>
          rw [answer] at planned inner
        · contradiction
        · obtain ⟨after, done⟩ := inner rfl grounded
          have here : Acc (fun b a => g.registry.Needs a b) (g.resolve t).name := by
            refine Acc.intro _ fun b needs => ?_
            obtain ⟨i, required, rfl⟩ := needs.requires
            obtain ⟨by', member⟩ := sound.requiredDuty stack via required
            exact after i (done by' i member)
          have finished : ∀ u, (d₁.finish (g.resolve t)).isDone u = true →
              d₁.isDone u = true ∨ (g.resolve t).name = u.name := by
            intro u known
            simpa [Draft.isDone, Draft.finish, TypeRef.same] using known
          refine ⟨fun u known => ?_, ?_⟩
          · rcases finished u known with known | same
            · exact after u known
            · rw [← same]
              exact here
          · simp [Draft.isDone, Draft.finish, TypeRef.same, resolveName indexed t]

theorem Coherent.planSupplied (coherent : g.Coherent) (fresh : ∀ t, g.standing t = .unrealized)
    (member : t ∈ g.subjects)
    (planned : (visitNode g g.settings.maxDepth [] none t { verdicts := g.registry.verdicts }).1 =
      .ok ()) : g.Supplied t := by
  intro missing
  have same := coherent.resolveSubject member
  obtain ⟨n, inside, rfl⟩ := List.mem_map.mp member
  refine ⟨n, nodeMember coherent.distinct inside, ?_⟩
  cases form : n.subject.isManaged with
  | true => rfl
  | false =>
    obtain ⟨room, depth⟩ := Nat.exists_eq_succ_of_ne_zero (Nat.pos_iff_ne_zero.mp coherent.depth)
    rw [depth, visitNodeTurns coherent.sound.indexed, fresh, same] at planned
    simp [Draft.isDone, Registry.duties, Registry.creationDuties, missing, form, planDuties] at planned

theorem checkedPlans (coherent : g.Coherent) (fresh : ∀ t, g.standing t = .unrealized)
    (small : g.nodes.length ≤ g.settings.maxDepth) :
    g.Checked ↔ ∀ t ∈ g.subjects, ∃ steps, (g.plan t).1 = .ok steps := by
  have told : ∀ t, (∃ steps, (g.plan t).1 = .ok steps) ↔
      (visitNode g g.settings.maxDepth [] none t { verdicts := g.registry.verdicts }).1 = .ok () := by
    intro t
    unfold plan
    rcases visitNode g g.settings.maxDepth [] none t { verdicts := g.registry.verdicts }
      with ⟨fault | _, d⟩ <;> simp
  constructor
  · intro checked t member
    obtain ⟨n, inside, rfl⟩ := List.mem_map.mp member
    exact (told _).mpr (visitChecked coherent fresh checked small rfl (chainedNil g) (.request _)
      (List.mem_map_of_mem inside) (Verdicts.withinRefl _))
  · intro plans
    have planned : ∀ t n, g.node? t = some n → n.subject ∈ g.subjects ∧
        (visitNode g g.settings.maxDepth [] none n.subject { verdicts := g.registry.verdicts }).1 =
          .ok () := by
      intro t n found
      have member : n.subject ∈ g.subjects := List.mem_map_of_mem (List.mem_of_find?_eq_some found)
      exact ⟨member, (told _).mp (plans _ member)⟩
    constructor
    · intro t known _ missing
      obtain ⟨n, found⟩ := nodeKnown known
      have named := nodeName found
      obtain ⟨member, answer⟩ := planned t n found
      obtain ⟨n', found', managed⟩ := coherent.planSupplied fresh member answer
        ((g.registry.creatorCongr named).trans missing)
      exact ⟨n', (nodeCongr named g).symm.trans found', managed⟩
    · intro a cycle
      obtain ⟨b, needs, _⟩ := TransGen.head'_iff.mp cycle
      obtain ⟨m, mentioned, rfl⟩ := needs.mentioned.1
      obtain ⟨n, found⟩ := nodeKnown (coherent.tracked.known mentioned)
      have empty : g.Grounded { verdicts := g.registry.verdicts } := fun t done => by
        simp [Draft.isDone] at done
      obtain ⟨grounded, done⟩ := visitGrounded coherent.sound fresh (planned m n found).2 empty
      have ground := grounded _ done
      rw [nodeName found] at ground
      exact accIrreflexive ground cycle

end Realization.Graph
