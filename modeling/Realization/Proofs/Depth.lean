import Realization.Proofs.Judgement
import Realization.Proofs.Stopping

/-!
The depth guard. The stack of a request never holds more types than the graph allows to be under way at once,
and these are all that are under way; so the guard fires on a type only at the end of a chain of needs that is
longer by one than it allows, and never on the type that was asked for.
-/
namespace Realization.Graph

variable {limit k : Nat} {stack : List TypeRef} {duties : List Duty} {own : Option Element} {g : Graph}
  {s t : TypeRef} {m : Moment}

def underway (g : Graph) : Nat := g.nodes.countP (·.progress = .realizing)

theorem Stacked.underway (stacked : Stacked stack g) (distinct : (g.nodes.map (·.subject.name)).Nodup) :
    g.underway ≤ stack.length := by
  have same := (stacked.underwayNames distinct).length_eq
  rw [List.length_map, List.length_map] at same
  rw [Graph.underway, List.countP_eq_length_filter]
  exact Nat.le_of_eq same

theorem Comes.shallow (comes : Comes limit stack duties own g m) (within : stack.length ≤ limit) :
    m.stack.length ≤ limit := by
  induction comes with
  | here => exact within
  | later _ _ ih => exact ih within
  | inside _ _ room _ ih =>
    refine ih ?_
    rw [List.length_append, List.length_singleton]
    exact room

theorem Passes.shallow (passes : g.Passes t m) : m.stack.length ≤ g.settings.maxDepth := by
  obtain ⟨h, stays, comes⟩ := passes.opened
  rw [← stays.settings]
  exact comes.shallow (Nat.zero_le _)

theorem finalizeLevel : g.finalize.1 ≠ .error (.depthExceeded s k) := by
  intro failed
  rcases finalizeFails failed with missing | disordered
  · obtain ⟨_, _, _, _, _, _, stops⟩ := checkSourcesStops missing
    contradiction
  · unfold order cycleFault at disordered
    split at disordered
    · contradiction
    · split at disordered <;> cases disordered

/- The guard stops a request for `t` at `s`: a chain of needs from `t` to `s` holds one type more than the graph
allows to be under way. -/
structure Overruns (g : Graph) (t s : TypeRef) (k : Nat) : Prop where
  limit : k = g.settings.maxDepth
  chain : ∃ below, below.length = g.settings.maxDepth ∧ g.registry.Trail t (below ++ [s])

theorem Overruns.apart (overruns : g.Overruns t s k) (positive : 0 < g.settings.maxDepth) : s.name ≠ t.name := by
  obtain ⟨below, long, trail⟩ := overruns.chain
  cases below with
  | nil =>
    rw [← long] at positive
    contradiction
  | cons first rest =>
    rw [← trail.start first rfl]
    have distinct := trail.distinct
    simp only [List.cons_append, List.map_cons, List.nodup_cons, List.mem_map] at distinct
    exact fun same => distinct.1 ⟨s, by simp, same⟩

theorem realizeOverruns (resting : g.Resting) (answer : (g.realize t).1 = .error (.depthExceeded s k)) :
    g.Overruns t s k := by
  rcases realizeStops resting answer with opening | ⟨m, passes, raises⟩
  · exact absurd (startStops opening) finalizeLevel
  · have stacked := passes.stacked resting
    have trail := passes.trail resting
    have shallow := passes.shallow
    cases raises with
    | unsynthesized answer =>
      obtain ⟨violation, other⟩ := contractForFault (passes.managed resting rfl) answer
      contradiction
    | @deep stack via u _ h asks fresh full =>
      have named := resolveName stacked.indexed u
      have apart : ∀ x ∈ stack, x.name ≠ u.name := by
        intro x member same
        have busy := (stacked.busy (h.resolve u)).mpr ⟨x, member, same.trans named.symm⟩
        rw [fresh] at busy
        contradiction
      have filled : stack = [] → u.name = t.name := by
        rintro rfl
        exact absurd resting.coherent.depth (Nat.not_lt.mpr full)
      exact ⟨rfl, stack, Nat.le_antisymm shallow full,
        trail.push (asks.kept passes.onward.rules) filled named apart⟩

theorem planOverruns (founded : g.Founded) (answer : (g.plan t).1 = .error (.depthExceeded s k)) :
    g.Overruns t s k := by
  cases planHalts founded answer with
  | @deep stack via u pursues apart full =>
    have named := resolveName founded.indexed u
    rw [named] at apart
    exact ⟨rfl, stack, full, pursues.prolong named apart⟩
  | unsynthesized managed _ answer =>
    obtain ⟨violation, other⟩ := contractForFault managed (Prod.ext answer rfl)
    contradiction

theorem depthGuardExact (reachable : g.Reachable) (t : TypeRef) :
    1 ≤ g.settings.maxDepth ∧
    (∀ s k, (g.realize t).1 = .error (.depthExceeded s k) ∨ (g.plan t).1 = .error (.depthExceeded s k) →
      k = g.settings.maxDepth ∧ s.name ≠ t.name ∧
      ∃ below, below.length = k ∧ g.registry.Trail t (below ++ [s])) ∧
    ((∀ chain, g.registry.Trail t chain → chain.length ≤ g.settings.maxDepth) → ∀ s k,
      (g.realize t).1 ≠ .error (.depthExceeded s k) ∧ (g.plan t).1 ≠ .error (.depthExceeded s k)) ∧
    g.underway ≤ g.settings.maxDepth ∧ ∀ m, g.Passes t m → m.graph.underway ≤ g.settings.maxDepth := by
  have resting := reachable.resting
  have positive := resting.coherent.depth
  have overruns : ∀ s k, (g.realize t).1 = .error (.depthExceeded s k) ∨
      (g.plan t).1 = .error (.depthExceeded s k) → g.Overruns t s k := by
    rintro s k (answer | answer)
    · exact realizeOverruns resting answer
    · exact planOverruns resting.coherent.founded answer
  refine ⟨positive, fun s k answer => ?fires, fun short s k => ?silent, ?rest, fun m passes => ?moment⟩
  case fires =>
    have overrun := overruns s k answer
    obtain ⟨below, long, trail⟩ := overrun.chain
    exact ⟨overrun.limit, overrun.apart positive, below, long.trans overrun.limit.symm, trail⟩
  case silent =>
    have never : ¬ g.Overruns t s k := by
      intro overrun
      obtain ⟨below, long, trail⟩ := overrun.chain
      have fits := short _ trail
      rw [List.length_append, List.length_singleton] at fits
      omega
    exact ⟨fun answer => never (overruns s k (.inl answer)), fun answer => never (overruns s k (.inr answer))⟩
  case rest => exact (resting.stacked.underway resting.coherent.distinct).trans (Nat.zero_le _)
  case moment =>
    exact ((passes.stacked resting).underway (passes.coherent resting).distinct).trans passes.shallow

def bakingSession (limit : Nat) : Graph :=
  let made : Body := .producer fun _ => ⟨[], .ok .unit⟩
  (ofRegistry {} { maxDepth := limit }).run [.register ⟨"bake", .plain "Bread", [.plain "Dough"], made⟩,
    .register ⟨"knead", .plain "Dough", [.plain "Flour"], made⟩, .register ⟨"mill", .plain "Flour", [], made⟩]

theorem depthGuardExactFlour :
    let g := bakingSession 2
    let fault := .depthExceeded (.plain "Flour") 2
    (g.realize (.plain "Bread")).1 = .error fault ∧ (g.plan (.plain "Bread")).1 = .error fault ∧
      ∃ below, below.length = 2 ∧ g.registry.Trail (.plain "Bread") (below ++ [.plain "Flour"]) := by
  intro g fault
  have reachable : g.Reachable := ⟨{}, _, _, ⟨[], [], rfl⟩, rfl⟩
  have answer : (g.realize (.plain "Bread")).1 = .error fault := by decide +kernel
  obtain ⟨_, fires, _⟩ := depthGuardExact reachable (.plain "Bread")
  exact ⟨answer, by decide +kernel, (fires _ _ (.inl answer)).2.2⟩

example : ((bakingSession 0).realize (.plain "Flour")).1 = .ok .unit := by decide +kernel

end Realization.Graph
