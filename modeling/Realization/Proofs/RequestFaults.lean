import Realization.Proofs.Judgement
import Realization.Proofs.Reporting
import Realization.Proofs.Stopping

/-!
What the faults of a request say is so. Planned or realized, a request that meets a cycle tells a circle of
needs and a rule that closes it; one that misses a source tells a type that has none, and on whose behalf it
was wanted.
-/
namespace Realization.Graph

open Relation

structure Sourceless (g : Graph) (s : TypeRef) : Prop where
  uncreated : ∀ rule ∈ g.registry.rules, ¬ (rule.creates = true ∧ rule.subject.same s = true)
  undeclared : ∀ m ∈ g.registry.mentions, m.same s = true → m.isManaged = false
  unmanaged : ∀ n, g.node? s = some n → n.subject.isManaged = false
  plain : s.isManaged = false

/- On whose behalf a type is wanted when `t` is asked for: that of whoever asks, or of a type needed for `t`
that has a rule which declares it. -/
inductive Wanted (g : Graph) (t : TypeRef) : TypeRef → Option TypeRef → Option Locator → Prop where
  | request {s} (named : s.name = t.name) : Wanted g t s none none
  | input {s u rule} (path : ReflTransGen g.registry.Needs t.name u.name) (member : rule ∈ g.registry.rules)
      (own : rule.subject.same u = true) (declared : rule.declares s = true) :
      Wanted g t s (some u) (some rule.locator)

def Warranted (g : Graph) (t : TypeRef) : Fault → Prop
  | .cyclic chain via =>
    g.registry.Circle chain ∧ ∃ rule ∈ g.registry.rules, rule.Closes chain ∧ via = some rule.locator
  | .noCreator s requiredBy via => g.Sourceless s ∧ g.Wanted t s requiredBy via
  | _ => True

variable {limit : Nat} {below : List TypeRef} {duties : List Duty} {own : Option Element}
  {g g₁ g' : Graph} {s t u : TypeRef} {via by' : Option Locator} {requiredBy : Option TypeRef} {fault : Fault}

theorem Sourceless.before (sourceless : g₁.Sourceless s) (onward : g.Onward g₁) : g.Sourceless s where
  uncreated := by
    rw [← onward.rules]
    exact sourceless.uncreated
  undeclared := by
    have undeclared := sourceless.undeclared
    simp only [Registry.mentions, onward.rules] at undeclared ⊢
    exact undeclared
  unmanaged n found := by
    obtain ⟨n', found', kept⟩ := onward.form s n found
    cases managed : n.subject.isManaged with
    | false => rfl
    | true => rw [← managed, ← kept managed, sourceless.unmanaged n' found']
  plain := sourceless.plain

theorem Wanted.before (wanted : g₁.Wanted t s requiredBy via) (onward : g.Onward g₁) :
    g.Wanted t s requiredBy via := by
  cases wanted with
  | request named => exact .request named
  | input path member own declared =>
    rw [Registry.needsKept onward.rules] at path
    rw [onward.rules] at member
    exact .input path member own declared

theorem Warranted.before (warranted : g₁.Warranted t fault) (onward : g.Onward g₁) : g.Warranted t fault := by
  cases fault with
  | cyclic chain via =>
    obtain ⟨circle, rule, member, closes⟩ := warranted
    exact ⟨circle.kept onward.rules, rule, onward.rules ▸ member, closes⟩
  | noCreator s requiredBy via => exact ⟨warranted.1.before onward, warranted.2.before onward⟩
  | _ => trivial

theorem Founded.sourceless (founded : g.Founded) (missing : g.registry.creator? (g.resolve u) = none)
    (plain : (g.resolve u).isManaged = false) : g.Sourceless (g.resolve u) where
  uncreated := founded.indexed.creatorMissing.mp missing
  undeclared m mentioned same := by
    obtain ⟨n, found, keeps⟩ := founded.tracked m mentioned
    have named := (TypeRef.sameIff.mp same).trans (resolveName founded.indexed u)
    cases managed : m.isManaged with
    | false => rfl
    | true =>
      rw [resolveForm ((nodeCongr named g).symm.trans found) (keeps managed), keeps managed] at plain
      contradiction
  unmanaged n found := by
    cases managed : n.subject.isManaged with
    | false => rfl
    | true =>
      have here := (nodeCongr (resolveName founded.indexed u) g).symm.trans found
      rw [resolveForm here managed, managed] at plain
      contradiction
  plain := plain

theorem Founded.lack (founded : g.Founded) (trail : g.registry.Trail t below) (asks : g.registry.Asks below via u)
    (first : below = [] → u.name = t.name)
    (member : .lack s requiredBy by' ∈ g.registry.duties below via (g.resolve u)) :
    g.Sourceless s ∧ g.Wanted t s requiredBy by' := by
  have named := resolveName founded.indexed u
  rcases founded.indexed.dutyCases member with ⟨other, _⟩ | ⟨same, missing, plain⟩ |
    ⟨_, _, _, _, _, ⟨_, _, other⟩ | other⟩
  · contradiction
  · cases same
    refine ⟨founded.sourceless missing plain, ?_⟩
    cases top : below.getLast? with
    | none =>
      have empty := List.getLast?_eq_none_iff.mp top
      subst empty
      cases asks.outermost
      exact .request (named.trans (first rfl))
    | some last =>
      obtain ⟨rule, inside, own, declared, rfl⟩ := asks.rule top
      exact .input (trail.reached (List.mem_of_getLast? top)) inside own (Rule.declaresNamed declared named)
  · contradiction
  · contradiction

theorem Work.warranted (work : Work limit [] [.input none t] own g (.error fault) g') (resting : g.Resting) :
    g.Warranted t fault := by
  obtain ⟨m, _, comes, raises, _⟩ := work.raises
  have founded := resting.coherent.founded
  have trail := comes.trail resting
  cases raises with
  | unsynthesized answer =>
    obtain ⟨violation, rfl⟩ := contractForFault (comes.managed founded rfl) answer
    trivial
  | broke | failed | deep => trivial
  | @cyclic stack _ u _ h asks busy =>
    have under := ((comes.stacked resting.stacked).busy _).mp busy
    have rules := comes.onward.rules
    exact trail.circles (asks.kept rules) (resolveName (founded.onward comes.onward).indexed u) under
  | @lacking _ s requiredBy by' _ h =>
    rcases comes.frame with ⟨_, before, rest, whole, _⟩ |
      ⟨below, via, u, g₁, onward, asks, _, _, entered, before, rest, whole, _⟩
    · have member : Duty.lack s requiredBy by' ∈ [Duty.input none t] := by
        rw [whole]
        simp
      simp at member
    · have member : .lack s requiredBy by' ∈ g₁.registry.duties below via (g₁.resolve u) := by
        rw [whole]
        simp
      have founded₁ := founded.onward onward
      rw [entered] at trail
      have first : below = [] → u.name = t.name := by
        rintro rfl
        rw [← resolveName founded₁.indexed u]
        exact trail.start _ rfl
      obtain ⟨sourceless, wanted⟩ := founded₁.lack (trail.below.kept onward.rules.symm) asks first member
      exact ⟨sourceless.before onward, wanted.before onward⟩

theorem planWarranted (founded : g.Founded) (answer : (g.plan t).1 = .error fault) : g.Warranted t fault := by
  cases planHalts founded answer with
  | failed | deep => trivial
  | @cyclic _ _ u pursues under =>
    exact pursues.trail.circles pursues.asks (resolveName founded.indexed u) under
  | unsynthesized managed _ answer =>
    obtain ⟨violation, rfl⟩ := contractForFault managed (Prod.ext answer rfl)
    trivial
  | lacking pursues member => exact founded.lack pursues.trail pursues.asks pursues.first member

theorem requestFaultsWarranted (reachable : g.Reachable) (t : TypeRef) :
    (g.start.1 = .ok () → ∀ fault, (g.realize t).1 = .error fault → g.Warranted t fault) ∧
    (∀ fault, (g.plan t).1 = .error fault → g.Warranted t fault) := by
  have resting := reachable.resting
  refine ⟨fun opening fault answer => ?realized, fun fault => planWarranted resting.coherent.founded⟩
  case realized =>
    have rested := g.startStays.resting resting
    obtain ⟨result, h', work, ⟨_, _, same, _⟩ | ⟨_, rfl, same⟩⟩ :=
      realizeRun (Prod.ext opening rfl) rested.coherent.sound.indexed t <;> rw [same] at answer <;> cases answer
    exact (work.warranted rested).before g.startStays.onward

def circularSession (operations : List Operation) : Graph :=
  let made : Body := .producer fun _ => ⟨[], .ok .unit⟩
  (ofRegistry {} {}).run ([.register ⟨"hatch", .plain "Hen", [.plain "Egg"], made⟩,
    .register ⟨"lay", .plain "Egg", [.plain "Hen"], made⟩,
    .register ⟨"cook", .plain "Meal", [.plain "Egg"], made⟩] ++ operations)

theorem circularSessionReachable (operations : List Operation) : (circularSession operations).Reachable :=
  ⟨{}, {}, _, ⟨[], [], rfl⟩, rfl⟩

theorem requestFaultsWarrantedMeal :
    let g := circularSession []
    let fault := .cyclic [.plain "Egg", .plain "Hen", .plain "Egg"] (some "hatch")
    g.start.1 = .ok () ∧ (g.realize (.plain "Meal")).1 = .error fault ∧ g.Warranted (.plain "Meal") fault := by
  intro g fault
  have opening : g.start.1 = .ok () := by decide +kernel
  have answer : (g.realize (.plain "Meal")).1 = .error fault := by decide +kernel
  exact ⟨opening, answer,
    (requestFaultsWarranted (circularSessionReachable []) (.plain "Meal")).1 opening fault answer⟩

end Realization.Graph
