import Realization.Proofs.Integrity
import Realization.Proofs.Trails

/-!
Where a request stops. A type that is asked for lies at the end of a trail of needs from the type of the
request; the fault that a plan answers is met there, by the type itself or by one of its duties, and the fault
of a realization is the one that opening it meets, or else is raised at a moment that it passes through.
-/
namespace Realization

structure Registry.Pursues (r : Registry) (t : TypeRef) (stack : List TypeRef) (via : Option Locator)
    (u : TypeRef) : Prop where
  trail : r.Trail t stack
  asks : r.Asks stack via u
  first : stack = [] → u.name = t.name

namespace Registry

variable {r : Registry} {stack : List TypeRef} {s t u i : TypeRef} {via via' : Option Locator}

theorem pursuesFirst (r : Registry) (t : TypeRef) : r.Pursues t [] none t :=
  ⟨.nil r t, .request t, fun _ => rfl⟩

theorem Pursues.prolong (pursues : r.Pursues t stack via u) (named : s.name = u.name)
    (apart : ∀ x ∈ stack, x.name ≠ u.name) : r.Trail t (stack ++ [s]) :=
  pursues.trail.push pursues.asks pursues.first named apart

theorem Pursues.input (pursues : r.Pursues t stack via u) (indexed : r.Indexed) (named : s.name = u.name)
    (apart : ∀ x ∈ stack, x.name ≠ u.name) (member : .input via' i ∈ r.duties stack via s) :
    r.Pursues t (stack ++ [s]) via' i :=
  ⟨pursues.prolong named apart, (indexed.dutyAsks member).1, by simp⟩

end Registry

namespace Graph

/- Why a plan for `t` that starts from this draft answers with the fault. -/
inductive Halts (g : Graph) (t : TypeRef) (start : Draft) : Fault → Prop where
  | failed {u} : Halts g t start (.previouslyFailed u)
  | cyclic {stack via u} (pursues : g.registry.Pursues t stack via u)
      (under : ∃ x ∈ stack, x.name = (g.resolve u).name) :
      Halts g t start (.cyclic (chainTo stack (g.resolve u)) via)
  | deep {stack via u} (pursues : g.registry.Pursues t stack via u)
      (apart : ∀ x ∈ stack, x.name ≠ (g.resolve u).name) (full : stack.length = g.settings.maxDepth) :
      Halts g t start (.depthExceeded (g.resolve u) g.settings.maxDepth)
  | unsynthesized {s d fault} (managed : s.isManaged = true) (leads : start.Leads d)
      (answer : (contractFor s d.verdicts).1 = .error fault) : Halts g t start fault
  | lacking {stack via u s requiredBy by'} (pursues : g.registry.Pursues t stack via u)
      (member : .lack s requiredBy by' ∈ g.registry.duties stack via (g.resolve u)) :
      Halts g t start (.noCreator s requiredBy by')

variable {room : Nat} {stack : List TypeRef} {g : Graph} {s t u : TypeRef} {via : Option Locator}
  {fault : Fault} {start d : Draft} {m : Moment}

theorem visitNodeHalts (founded : g.Founded) (pursues : g.registry.Pursues t stack via u)
    (measured : stack.length + room = g.settings.maxDepth) (leads : start.Leads d)
    (answer : (visitNode g room stack via u d).1 = .error fault) : g.Halts t start fault := by
  have named := resolveName founded.indexed u
  induction room using Nat.strong_induction_on generalizing stack via u d with
  | _ room ih =>
    rcases visitNodeStumps founded.indexed answer with rfl | ⟨under, rfl⟩ |
      ⟨apart, ⟨rfl, rfl⟩ | ⟨left, rfl, duty, member, stumps⟩⟩
    · exact .failed
    · exact .cyclic pursues under
    · exact .deep pursues apart measured
    · cases stumps with
      | contract grown answer => exact .unsynthesized (founded.synthesis member) (leads.trans grown) answer
      | source => exact .lacking pursues member
      | @input via' i d' _ grown answer =>
        rw [named] at apart
        have further := pursues.input founded.indexed named apart member
        have measured' : (stack ++ [g.resolve u]).length + left = g.settings.maxDepth := by
          rw [List.length_append, List.length_singleton]
          omega
        exact ih left (Nat.lt_succ_self left) further measured' (leads.trans grown) answer
          (resolveName founded.indexed i)

theorem planHalts (founded : g.Founded) (answer : (g.plan t).1 = .error fault) :
    g.Halts t { verdicts := g.registry.verdicts } fault := by
  unfold plan at answer
  rcases visited : g.visitNode g.settings.maxDepth [] none t { verdicts := g.registry.verdicts }
    with ⟨fault' | _, d⟩ <;> rw [visited] at answer
  · cases answer
    exact visitNodeHalts founded (g.registry.pursuesFirst t) (Nat.zero_add _) (Draft.leadsRefl _) (by rw [visited])
  · contradiction

theorem realizeStops (resting : g.Resting) (answer : (g.realize t).1 = .error fault) :
    g.start.1 = .error fault ∨ ∃ m, g.Passes t m ∧ m.Raises g.settings.maxDepth fault := by
  have stays := g.startStays
  rcases opening : g.start with ⟨fault' | _, h⟩ <;> rw [opening] at stays
  · unfold realize at answer
    rw [opening] at answer
    cases answer
    exact .inl rfl
  · obtain ⟨result, h', work, ⟨_, _, same, _⟩ | ⟨_, rfl, same⟩⟩ :=
      realizeRun opening (stays.resting resting).coherent.sound.indexed t <;> rw [same] at answer <;> cases answer
    obtain ⟨m, _, comes, raises, _⟩ := work.raises
    rw [← stays.settings]
    exact .inr ⟨m, ⟨h, opening, comes⟩, raises⟩

theorem startStops (answer : g.start.1 = .error fault) : g.opened.finalize.1 = .error fault := by
  rw [startOpened] at answer
  split at answer
  · exact answer
  · contradiction

namespace Passes

theorem stacked (passes : g.Passes t m) (resting : g.Resting) : Stacked m.stack m.graph := by
  obtain ⟨h, stays, comes⟩ := passes.opened
  exact comes.stacked (stays.resting resting).stacked

theorem trail (passes : g.Passes t m) (resting : g.Resting) : g.registry.Trail t m.stack := by
  obtain ⟨h, stays, comes⟩ := passes.opened
  exact (comes.trail (stays.resting resting)).kept stays.rules

theorem managed (passes : g.Passes t m) (resting : g.Resting) (duty : m.duty = .synthesize s) :
    s.isManaged = true := by
  obtain ⟨h, stays, comes⟩ := passes.opened
  exact comes.managed (stays.resting resting).coherent.founded duty

end Passes

end Graph

end Realization
