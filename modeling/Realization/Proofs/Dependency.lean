import Mathlib.Data.List.Chain
import Mathlib.Data.List.Nodup
import Mathlib.Logic.Relation
import Realization.Proofs.Rest
import Realization.Proofs.Sorting

/-!
Dependencies between types, by name: a type needs the inputs of its rules. The types under way form a
chain in which each one needs the next, so asking again for one of them closes a cycle, and without
a cycle there are at most as many as there are known types.
-/
namespace Realization

open Relation

theorem accIrreflexive {α : Type} {needs : α → α → Prop} {a : α} (grounded : Acc (fun b a => needs a b) a) :
    ¬ TransGen needs a a := by
  induction grounded with
  | intro a _ ih =>
    intro cycle
    obtain ⟨b, first, back⟩ := TransGen.head'_iff.mp cycle
    exact ih b first (TransGen.tail' back first)

namespace Registry

variable {r : Registry} {stack : List TypeRef} {via : Option Locator} {s t i : TypeRef}

def Needs (r : Registry) (a b : String) : Prop := ∃ i, r.Requires (.plain a) i ∧ i.name = b

def Acyclic (r : Registry) : Prop := ∀ a, ¬ TransGen r.Needs a a

theorem needsKept {r' : Registry} (rules : r'.rules = r.rules) : r'.Needs = r.Needs := by
  funext a b
  simp only [Needs, Requires, rules]

theorem Requires.needs (required : r.Requires t i) : r.Needs t.name i.name := by
  obtain ⟨rule, member, own, declared⟩ := required
  exact ⟨i, ⟨rule, member, own, declared⟩, rfl⟩

theorem Needs.requires {b : String} (needs : r.Needs s.name b) : ∃ i, r.Requires s i ∧ i.name = b :=
  needs

theorem Needs.mentioned {a b : String} (needs : r.Needs a b) :
    (∃ m ∈ r.mentions, m.name = a) ∧ ∃ m ∈ r.mentions, m.name = b := by
  obtain ⟨i, ⟨rule, member, own, declared⟩, named⟩ := needs
  refine ⟨⟨rule.subject, ?_, TypeRef.sameIff.mp own⟩, ⟨i, ?_, named⟩⟩
  · exact List.mem_flatMap.mpr ⟨rule, member, List.mem_cons_self⟩
  · exact List.mem_flatMap.mpr ⟨rule, member, List.mem_cons_of_mem _ declared⟩

theorem Asks.kept {r' : Registry} (asks : r'.Asks stack via t) (rules : r'.rules = r.rules) :
    r.Asks stack via t := by
  cases asks with
  | request => exact .request t
  | input member own declared => exact .input (rules ▸ member) own declared

theorem Asks.outermost (asks : r.Asks [] via t) : via = none := by
  generalize empty : [] = stack at asks
  cases asks with
  | request => rfl
  | input => simp at empty

theorem Asks.rule (asks : r.Asks stack via t) (top : stack.getLast? = some s) :
    ∃ rule ∈ r.rules, rule.subject.same s = true ∧ t ∈ rule.inputs ∧ via = some rule.locator := by
  cases asks with
  | request => contradiction
  | @input below subject rule _ member own declared =>
    rw [List.getLast?_concat, Option.some.injEq] at top
    subst top
    exact ⟨rule, member, own, declared, rfl⟩

theorem Asks.direct (asks : r.Asks stack none t) : stack = [] := by
  cases asks with
  | request => rfl

theorem Asks.given {locator : Locator} (asks : r.Asks stack (some locator) t) :
    ∃ rule ∈ r.rules, rule.locator = locator ∧ t ∈ rule.inputs ∧
      ∃ top, stack.getLast? = some top ∧ rule.subject.same top = true := by
  cases asks with
  | input member own declared => exact ⟨_, member, rfl, declared, _, List.getLast?_concat, own⟩

theorem Asks.needs (asks : r.Asks stack via t) : ∀ last ∈ stack.getLast?, r.Needs last.name t.name := by
  intro last top
  obtain ⟨rule, member, own, declared, _⟩ := asks.rule top
  exact Requires.needs ⟨rule, member, own, declared⟩

theorem Asks.reached (asks : r.Asks stack via t)
    (leads : ∀ last ∈ stack.getLast?, ReflTransGen r.Needs s.name last.name) (member : s ∈ stack) :
    TransGen r.Needs s.name t.name := by
  cases top : stack.getLast? with
  | none =>
    rw [List.getLast?_eq_none_iff] at top
    subst top
    contradiction
  | some last => exact .tail' (leads last top) (asks.needs last top)

theorem Asks.chains (asks : r.Asks stack via t) (named : s.name = t.name)
    (chain : stack.IsChain fun a b => r.Needs a.name b.name) :
    (stack ++ [s]).IsChain fun a b => r.Needs a.name b.name := by
  refine chain.append (.singleton _) fun last top x head => ?_
  cases (Option.mem_some_iff.mp head : s = x)
  rw [named]
  exact asks.needs last top

theorem Asks.mentioned (asks : r.Asks stack via t) (inner : stack ≠ []) : t ∈ r.mentions := by
  cases asks with
  | request => contradiction
  | @input below subject rule _ member own declared =>
    exact List.mem_flatMap.mpr ⟨rule, member, List.mem_cons_of_mem _ declared⟩

theorem Sound.requiredDuty (sound : r.Sound) (below : List TypeRef) (by' : Option Locator)
    (required : r.Requires s i) : ∃ via, .input via i ∈ r.duties below by' s := by
  obtain ⟨rule, member, own, declared⟩ := required
  have listed : ∀ id, .input (some rule.locator) i ∈ rule.duties s id := fun id =>
    List.mem_append_left _ (List.mem_map_of_mem declared)
  refine ⟨some rule.locator, List.mem_append.mpr ?_⟩
  rcases sound.ruleCases member own with creates | mutates
  · left
    rw [sound.indexed.creationRuleExact] at creates
    obtain ⟨⟨id, rule'⟩, found, rfl⟩ := Option.map_eq_some_iff.mp creates
    unfold creationDuties
    rw [found]
    exact List.mem_append_right _ (listed id)
  · right
    rw [sound.indexed.mutationRulesExact] at mutates
    obtain ⟨⟨id, rule'⟩, found, rfl⟩ := List.mem_map.mp mutates
    exact List.mem_flatMap.mpr ⟨(id, rule'), found, listed id⟩

theorem Indexed.dutyAsks (indexed : r.Indexed) {below : List TypeRef} {by' : Option Locator}
    (member : .input via t ∈ r.duties below by' s) : r.Asks (below ++ [s]) via t ∧ r.Requires s t := by
  rcases indexed.dutyCases member with ⟨other, _⟩ | ⟨other, _⟩ |
    ⟨id, rule, _, inside, own, ⟨i, declared, same⟩ | other⟩
  · contradiction
  · contradiction
  · cases same
    exact ⟨.input inside own declared, rule, inside, own, declared⟩
  · contradiction

theorem Indexed.dutyMentioned (indexed : r.Indexed) {below : List TypeRef} {by' : Option Locator}
    (member : .input via t ∈ r.duties below by' s) : t ∈ r.mentions :=
  (indexed.dutyAsks member).1.mentioned (by simp)

end Registry

namespace Graph

variable {g g' : Graph} {stack : List TypeRef} {via : Option Locator} {s t u : TypeRef}

def names (g : Graph) : List String := g.nodes.map (·.subject.name)

theorem subjectNames (g : Graph) : g.names = g.subjects.map (·.name) := by
  unfold names subjects
  rw [List.map_map]
  rfl

@[simp] theorem typeNamedName (g : Graph) (name : String) : (g.typeNamed name).name = name := by
  unfold typeNamed
  cases found : g.subjects.find? (·.name == name) with
  | none => rfl
  | some t => simpa using List.find?_some found

theorem namesTyped (distinct : (g.nodes.map (·.subject.name)).Nodup) : g.names.map g.typeNamed = g.subjects := by
  have once : (g.subjects.map (·.name)).Nodup := by
    rw [← subjectNames]
    exact distinct
  have same : ∀ t ∈ g.subjects, g.typeNamed t.name = t := by
    intro t member
    unfold typeNamed
    cases found : g.subjects.find? (·.name == t.name) with
    | none => simpa using List.find?_eq_none.mp found t member
    | some u =>
      have named : u.name = t.name := by simpa using List.find?_some found
      exact List.inj_on_of_nodup_map once (List.mem_of_find?_eq_some found) member named
  rw [subjectNames, List.map_map]
  exact (List.map_congr_left same).trans (List.map_id _)

theorem Stays.names {h : Graph} (stays : g.Stays h) : h.names = g.names := by
  unfold Graph.names
  rw [stays.nodes]

theorem knownName : (g.node? t).isSome = true ↔ t.name ∈ g.names := by
  unfold node? names
  rw [List.find?_isSome, List.mem_map]
  simp only [TypeRef.sameIff]

theorem nodeKnown (known : t.name ∈ g.names) : ∃ n, g.node? t = some n :=
  Option.isSome_iff_exists.mp (knownName.mpr known)

theorem Tracked.known (tracked : g.Tracked) {m : TypeRef} (mentioned : m ∈ g.registry.mentions) :
    m.name ∈ g.names := by
  obtain ⟨n, found, _⟩ := tracked m mentioned
  exact knownName.mp (by rw [found]; rfl)

theorem edgesAdded (edges : List (String × String)) (d : Digraph String) :
    (edges.foldl Digraph.addEdge d).vertices = d.vertices ∧
      ∀ e, e ∈ (edges.foldl Digraph.addEdge d).edges ↔ e ∈ d.edges ∨ e ∈ edges := by
  induction edges generalizing d with
  | nil => simp
  | cons e rest ih =>
    obtain ⟨vertices, members⟩ := ih (d.addEdge e)
    have added : (d.addEdge e).vertices = d.vertices ∧
        ∀ x, x ∈ (d.addEdge e).edges ↔ x ∈ d.edges ∨ x = e := by
      unfold Digraph.addEdge
      split
      · rename_i known
        exact ⟨rfl, fun x => ⟨.inl, fun either => either.elim id (fun same => same ▸ known)⟩⟩
      · exact ⟨rfl, fun x => by simp⟩
    refine ⟨vertices.trans added.1, fun x => (members x).trans ?_⟩
    rw [added.2, List.mem_cons, or_assoc]

theorem dependenciesEdge (a b : String) : g.dependencies.Edge a b ↔ g.registry.Needs b a := by
  unfold Digraph.Edge dependencies
  rw [(edgesAdded _ _).2]
  simp only [List.not_mem_nil, false_or, List.mem_flatMap, List.mem_map, Prod.mk.injEq]
  constructor
  · rintro ⟨rule, member, i, declared, named, own⟩
    exact ⟨i, ⟨rule, member, TypeRef.sameIff.mpr own, declared⟩, named⟩
  · rintro ⟨i, ⟨rule, member, own, declared⟩, named⟩
    exact ⟨rule, member, i, declared, named, TypeRef.sameIff.mp own⟩

@[simp] theorem dependenciesVertices (g : Graph) : g.dependencies.vertices = g.names := by
  unfold dependencies
  rw [(edgesAdded _ _).1]
  exact g.subjectNames.symm

theorem dependenciesClosed (tracked : g.Tracked) : g.dependencies.Closed := by
  intro a b edge
  rw [dependenciesEdge] at edge
  obtain ⟨⟨m, known, rfl⟩, ⟨m', known', rfl⟩⟩ := edge.mentioned
  rw [dependenciesVertices]
  exact ⟨tracked.known known', tracked.known known⟩

theorem orderExact (tracked : g.Tracked) : (∃ ts, g.order = .ok ts) ↔ g.registry.Acyclic := by
  have cycles : g.dependencies.Acyclic ↔ g.registry.Acyclic := by
    have reverse : ∀ a, TransGen g.dependencies.Edge a a ↔ TransGen g.registry.Needs a a := by
      intro a
      rw [← transGen_swap]
      have same : Function.swap g.dependencies.Edge = g.registry.Needs := by
        funext x y
        exact propext (dependenciesEdge y x)
      rw [same]
    exact forall_congr' fun a => not_congr (reverse a)
  rw [← cycles, ← Digraph.sortExact (dependenciesClosed tracked)]
  unfold order
  cases g.dependencies.sort <;> simp

/- The types on a stack are known and distinct, and each reaches the last one through needs. -/
structure Chained (g : Graph) (stack : List TypeRef) : Prop where
  known : ∀ s ∈ stack, s.name ∈ g.names
  distinct : (stack.map (·.name)).Nodup
  leads : ∀ s ∈ stack, ∀ last ∈ stack.getLast?, ReflTransGen g.registry.Needs s.name last.name

theorem chainedNil (g : Graph) : g.Chained [] := ⟨by simp, List.nodup_nil, by simp⟩

theorem Chained.congr (chained : g.Chained stack) (names : g'.names = g.names)
    (rules : g'.registry.rules = g.registry.rules) : g'.Chained stack :=
  ⟨by rw [names]; exact chained.known, chained.distinct,
    by rw [Registry.needsKept rules]; exact chained.leads⟩

theorem Chained.reach (chained : g.Chained stack) (asks : g.registry.Asks stack via t)
    (member : s ∈ stack) : TransGen g.registry.Needs s.name t.name :=
  asks.reached (chained.leads s member) member

theorem Chained.apart (chained : g.Chained stack) (acyclic : g.registry.Acyclic)
    (asks : g.registry.Asks stack via t) : ∀ s ∈ stack, s.name ≠ t.name := by
  intro s member same
  have path := chained.reach asks member
  rw [same] at path
  exact acyclic _ path

theorem distinctPush (distinct : (stack.map (·.name)).Nodup) (apart : ∀ x ∈ stack, x.name ≠ s.name) :
    ((stack ++ [s]).map (·.name)).Nodup := by
  rw [List.map_append, List.nodup_append]
  refine ⟨distinct, by simp, ?_⟩
  intro a old b new same
  obtain ⟨x, member, rfl⟩ := List.mem_map.mp old
  cases List.mem_singleton.mp new
  exact apart x member same

theorem offStack (named : u.name = t.name) (apart : ∀ s ∈ stack, s.name ≠ t.name) :
    ¬ stack.any (·.same u) = true := by
  intro under
  obtain ⟨s, member, same⟩ := List.any_eq_true.mp under
  exact apart s member ((TypeRef.sameIff.mp same).trans named)

theorem Chained.push (chained : g.Chained stack) (asks : g.registry.Asks stack via t)
    (named : u.name = t.name) (known : t.name ∈ g.names) (fresh : ∀ s ∈ stack, s.name ≠ t.name) :
    g.Chained (stack ++ [u]) where
  known s member := by
    rcases List.mem_append.mp member with member | member
    · exact chained.known s member
    · cases List.mem_singleton.mp member
      rw [named]
      exact known
  distinct := distinctPush chained.distinct fun s member => by
    rw [named]
    exact fresh s member
  leads s member last top := by
    rw [List.getLast?_concat, Option.mem_some_iff] at top
    subst top
    rcases List.mem_append.mp member with member | member
    · rw [named]
      exact (chained.reach asks member).to_reflTransGen
    · cases List.mem_singleton.mp member
      exact .refl

theorem Chained.room (chained : g.Chained stack) (known : t.name ∈ g.names)
    (fresh : ∀ s ∈ stack, s.name ≠ t.name) : stack.length < g.nodes.length := by
  have distinct : (t.name :: stack.map (·.name)).Nodup := by
    refine List.nodup_cons.mpr ⟨fun member => ?_, chained.distinct⟩
    obtain ⟨s, inside, same⟩ := List.mem_map.mp member
    exact fresh s inside same
  have within : t.name :: stack.map (·.name) ⊆ g.names := by
    intro a member
    rcases List.mem_cons.mp member with rfl | member
    · exact known
    · obtain ⟨s, inside, rfl⟩ := List.mem_map.mp member
      exact chained.known s inside
  have fits := distinct.length_le_of_subset within
  simp only [List.length_cons, List.length_map, names] at fits
  omega

end Graph

end Realization
