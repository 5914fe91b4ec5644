import Realization.Proofs.Failing

/-!
Trails of needs. The stack of a request is a trail: it starts at the type asked for, each type on it needs the
next, and none comes twice. A cyclic dependency is told as a circle, the end of such a trail once it has come
back to one of its types, and the rule named with it is the one that closes it.
-/
namespace Realization

open Relation

def Rule.Closes (rule : Rule) (chain : List TypeRef) : Prop :=
  ∃ lead s i, chain = lead ++ [s, i] ∧ rule.subject.same s = true ∧ rule.declares i = true

theorem Rule.declaresNamed {rule : Rule} {s i : TypeRef} (declared : i ∈ rule.inputs) (named : s.name = i.name) :
    rule.declares s = true :=
  List.any_eq_true.mpr ⟨i, declared, TypeRef.sameIff.mpr named.symm⟩

theorem Graph.placeFound {stack : List TypeRef} {s : TypeRef} (under : ∃ x ∈ stack, x.name = s.name) :
    ∃ place, stack.findIdx? (·.same s) = some place := by
  obtain ⟨x, member, named⟩ := under
  rw [← Option.isSome_iff_exists, List.findIdx?_isSome, List.any_eq_true]
  exact ⟨x, member, TypeRef.sameIff.mpr named⟩

theorem Graph.chainToSplit {stack : List TypeRef} {s : TypeRef} (under : ∃ x ∈ stack, x.name = s.name) :
    ∃ lead x rest, stack = lead ++ x :: rest ∧ x.name = s.name ∧ chainTo stack s = x :: rest ++ [s] := by
  obtain ⟨i, found⟩ := placeFound under
  obtain ⟨inside, same, _⟩ := List.findIdx?_eq_some_iff_getElem.mp found
  have split : stack.drop i = stack[i] :: stack.drop (i + 1) := List.drop_eq_getElem_cons inside
  refine ⟨stack.take i, stack[i], stack.drop (i + 1), ?_, TypeRef.sameIff.mp same, ?_⟩
  · rw [← split, List.take_append_drop]
  · unfold chainTo
    rw [found, Option.getD_some, split]

namespace Registry

/- A chain that ends where it starts, in which each type needs the next and none comes twice before the end. -/
structure Circle (r : Registry) (chain : List TypeRef) : Prop where
  long : 2 ≤ chain.length
  returns : chain.head?.map (·.name) = chain.getLast?.map (·.name)
  distinct : (chain.dropLast.map (·.name)).Nodup
  needs : chain.IsChain fun a b => r.Needs a.name b.name

theorem circleOf {r : Registry} {x s : TypeRef} {rest : List TypeRef} (back : x.name = s.name)
    (distinct : ((x :: rest).map (·.name)).Nodup)
    (needs : (x :: rest ++ [s]).IsChain fun a b => r.Needs a.name b.name) : r.Circle (x :: rest ++ [s]) where
  long := by simp
  returns := by
    rw [List.getLast?_concat]
    exact congrArg some back
  distinct := by rwa [List.dropLast_concat]
  needs := needs

structure Trail (r : Registry) (t : TypeRef) (stack : List TypeRef) : Prop where
  start : ∀ s ∈ stack.head?, s.name = t.name
  distinct : (stack.map (·.name)).Nodup
  needs : stack.IsChain fun a b => r.Needs a.name b.name

variable {r r' : Registry} {chain stack above : List TypeRef} {s t u : TypeRef} {via : Option Locator}

theorem Circle.kept (circle : r.Circle chain) (rules : r.rules = r'.rules) : r'.Circle chain where
  long := circle.long
  returns := circle.returns
  distinct := circle.distinct
  needs := by
    rw [← needsKept rules]
    exact circle.needs

namespace Trail

theorem kept (trail : r.Trail t stack) (rules : r.rules = r'.rules) : r'.Trail t stack where
  start := trail.start
  distinct := trail.distinct
  needs := by
    rw [← needsKept rules]
    exact trail.needs

theorem nil (r : Registry) (t : TypeRef) : r.Trail t [] := ⟨by simp, List.nodup_nil, .nil⟩

theorem push (trail : r.Trail t stack) (asks : r.Asks stack via u) (first : stack = [] → u.name = t.name)
    (named : s.name = u.name) (apart : ∀ x ∈ stack, x.name ≠ u.name) : r.Trail t (stack ++ [s]) where
  start := by
    cases stack with
    | nil =>
      intro x head
      cases head
      exact named.trans (first rfl)
    | cons => exact trail.start
  distinct := Graph.distinctPush trail.distinct fun x member => by
    rw [named]
    exact apart x member
  needs := asks.chains named trail.needs

theorem below (trail : r.Trail t (stack ++ above)) : r.Trail t stack where
  start := by
    cases stack with
    | nil => simp
    | cons => exact trail.start
  distinct := by
    have distinct := trail.distinct
    rw [List.map_append] at distinct
    exact (List.nodup_append.mp distinct).1
  needs := trail.needs.left_of_append

theorem reached (trail : r.Trail t stack) (member : s ∈ stack) : ReflTransGen r.Needs t.name s.name := by
  refine trail.needs.induction (fun x => ReflTransGen r.Needs t.name x.name) stack
    (fun x y step path => path.tail step) (fun filled => ?_) s member
  rw [trail.start _ (List.head_mem_head? filled)]

theorem circles (trail : r.Trail t stack) (asks : r.Asks stack via u) (named : s.name = u.name)
    (under : ∃ x ∈ stack, x.name = s.name) :
    r.Circle (Graph.chainTo stack s) ∧
      ∃ rule ∈ r.rules, rule.Closes (Graph.chainTo stack s) ∧ via = some rule.locator := by
  obtain ⟨lead, x, rest, rfl, back, told⟩ := Graph.chainToSplit under
  obtain ⟨more, last, whole⟩ := (List.eq_nil_or_concat (x :: rest)).resolve_left (by simp)
  rw [List.concat_eq_append] at whole
  have top : (lead ++ x :: rest).getLast? = some last := by
    rw [whole, ← List.append_assoc, List.getLast?_concat]
  obtain ⟨rule, member, own, declared, located⟩ := asks.rule top
  have round : (x :: rest ++ [s]).IsChain fun a b => r.Needs a.name b.name := by
    have whole := asks.chains named trail.needs
    rw [List.append_assoc] at whole
    exact whole.right_of_append
  have distinct : ((x :: rest).map (·.name)).Nodup := by
    have distinct := trail.distinct
    rw [List.map_append] at distinct
    exact (List.nodup_append.mp distinct).2.1
  rw [told]
  refine ⟨circleOf back distinct round, rule, member, ?_, located⟩
  refine ⟨more, last, s, ?_, own, Rule.declaresNamed declared named⟩
  rw [whole, List.append_assoc]
  rfl

end Trail

end Registry

namespace Graph

variable {limit : Nat} {stack : List TypeRef} {duties : List Duty} {own : Option Element} {g : Graph}
  {t : TypeRef} {via : Option Locator} {m : Moment}

theorem Comes.start (comes : Comes limit stack duties own g m) (indexed : g.registry.Indexed)
    (base : ∀ s ∈ stack.head?, s.name = t.name)
    (asked : stack = [] → ∀ via u, .input via u ∈ duties → u.name = t.name) :
    ∀ s ∈ m.stack.head?, s.name = t.name := by
  induction comes with
  | here => exact base
  | later turn _ ih =>
    refine ih (indexed.congr turn.grows.rules turn.grows.entries) base fun empty via u member => ?_
    exact asked empty via u (List.mem_cons_of_mem _ member)
  | @inside stack via u _ _ g _ _ _ _ _ ih =>
    refine ih indexed ?_ (by simp)
    cases stack with
    | nil =>
      intro s head
      cases head
      exact (resolveName indexed u).trans (asked rfl via u List.mem_cons_self)
    | cons => exact base

theorem Comes.trail (comes : Comes limit [] [.input none t] own g m) (resting : g.Resting) :
    g.registry.Trail t m.stack := by
  have stacked := comes.stacked resting.stacked
  have asked : ∀ via u, .input via u ∈ [Duty.input none t] → u.name = t.name := by
    intro via u member
    cases List.mem_singleton.mp member
    rfl
  have trail : m.graph.registry.Trail t m.stack :=
    ⟨comes.start resting.coherent.sound.indexed (by simp) fun _ => asked, stacked.distinct, stacked.chain⟩
  exact trail.kept comes.onward.rules

end Graph

end Realization
