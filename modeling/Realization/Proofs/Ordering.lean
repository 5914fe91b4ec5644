import Realization.Proofs.Dependency
import Realization.Proofs.Elements

/-!
The order of the known types. There is one unless a type depends on itself through declared inputs, and it is
then an arrangement of the known types in which every type comes after the inputs of its rules.
-/
namespace Realization.Graph

open Relation

variable {g : Graph} {names : List String} {t : TypeRef}

def Precedes (ts : List TypeRef) (first second : TypeRef) : Prop :=
  ∃ before a between b after, ts = before ++ a :: between ++ b :: after ∧
    a.name = first.name ∧ b.name = second.name

theorem orderNames {ts : List TypeRef} (ordered : g.order = .ok ts) :
    ∃ names, g.dependencies.sort = .ok names ∧ ts = names.map g.typeNamed := by
  unfold order at ordered
  split at ordered
  · rename_i names sorted
    cases ordered
    exact ⟨names, sorted, rfl⟩
  · contradiction

theorem sortedSubjects (coherent : g.Coherent) (sorted : g.dependencies.sort = .ok names) :
    (names.map g.typeNamed).Perm g.subjects := by
  have distinct : g.dependencies.vertices.Nodup := by
    rw [dependenciesVertices]
    exact coherent.distinct
  have listed := Digraph.sortListed (dependenciesClosed coherent.tracked) distinct sorted
  rw [dependenciesVertices] at listed
  rw [← namesTyped coherent.distinct]
  exact listed.map _

theorem sortedPrecedes (tracked : g.Tracked) (sorted : g.dependencies.sort = .ok names) {a b : TypeRef}
    (needs : g.registry.Needs b.name a.name) : Precedes (names.map g.typeNamed) a b := by
  obtain ⟨before, after, rfl, early⟩ :=
    Digraph.sortForward (dependenciesClosed tracked) sorted ((dependenciesEdge a.name b.name).mpr needs)
  obtain ⟨front, between, rfl⟩ := List.append_of_mem early
  refine ⟨front.map g.typeNamed, g.typeNamed a.name, between.map g.typeNamed, g.typeNamed b.name,
    after.map g.typeNamed, ?_, g.typeNamedName _, g.typeNamedName _⟩
  simp only [List.map_append, List.map_cons]

theorem acyclicKnown (tracked : g.Tracked) :
    g.registry.Acyclic ↔ ∀ t ∈ g.subjects, ¬ TransGen g.registry.Needs t.name t.name := by
  refine ⟨fun acyclic t _ => acyclic t.name, fun known a cycle => ?_⟩
  obtain ⟨_, first, _⟩ := TransGen.head'_iff.mp cycle
  obtain ⟨⟨m, mentioned, rfl⟩, _⟩ := first.mentioned
  have listed := tracked.known mentioned
  rw [subjectNames] at listed
  obtain ⟨t, member, named⟩ := List.mem_map.mp listed
  rw [← named] at cycle
  exact known t member cycle

theorem orderSorts (reachable : g.Reachable) :
    ((∃ ts, g.order = .ok ts) ↔ ∀ t ∈ g.subjects, ¬ TransGen g.registry.Needs t.name t.name) ∧
    ∀ ts, g.order = .ok ts → ts.Perm g.subjects ∧ (ts.map (·.name)).Nodup ∧
      ∀ rule ∈ g.registry.rules, ∀ i ∈ rule.inputs, Precedes ts i rule.subject := by
  have coherent := reachable.resting.coherent
  refine ⟨(orderExact coherent.tracked).trans (acyclicKnown coherent.tracked), fun ts ordered => ?_⟩
  obtain ⟨names, sorted, rfl⟩ := orderNames ordered
  have listed := sortedSubjects coherent sorted
  refine ⟨listed, ?once, fun rule member i declared => sortedPrecedes coherent.tracked sorted ?needs⟩
  case once =>
    have distinct := coherent.distinct
    rw [show g.nodes.map (·.subject.name) = g.subjects.map (·.name) from g.subjectNames] at distinct
    exact (listed.map _).nodup_iff.mpr distinct
  case needs => exact Registry.Requires.needs ⟨rule, member, TypeRef.sameIff.mpr rfl, declared⟩

theorem smallNeeds {a b : String} (needs : (smallSession []).registry.Needs a b) : a = "List" ∧ b = "Text" := by
  obtain ⟨i, ⟨rule, member, own, declared⟩, rfl⟩ := needs
  have listed : rule ∈ [writeText, startList, extendList] := member
  have named := TypeRef.sameIff.mp own
  simp only [List.mem_cons, List.not_mem_nil, or_false] at listed
  rcases listed with rfl | rfl | rfl
  · cases declared
  · cases List.mem_singleton.mp declared
    exact ⟨named.symm, rfl⟩
  · cases List.mem_singleton.mp declared
    exact ⟨named.symm, rfl⟩

theorem orderSortsList :
    ∃ ts, (smallSession []).order = .ok ts ∧ Precedes ts (.plain "Text") (.plain "List") := by
  have sorts := orderSorts (smallSessionReachable [])
  have acyclic : ∀ t ∈ (smallSession []).subjects, ¬ TransGen (smallSession []).registry.Needs t.name t.name := by
    intro t _ cycle
    obtain ⟨_, first, _⟩ := TransGen.head'_iff.mp cycle
    obtain ⟨_, _, last⟩ := TransGen.tail'_iff.mp cycle
    have list := (smallNeeds first).1
    rw [(smallNeeds last).2] at list
    contradiction
  obtain ⟨ts, ordered⟩ := sorts.1.mpr acyclic
  have declared : startList ∈ (smallSession []).registry.rules ∧ .plain "Text" ∈ startList.inputs :=
    ⟨List.mem_cons_of_mem _ List.mem_cons_self, List.mem_cons_self⟩
  exact ⟨ts, ordered, (sorts.2 ts ordered).2.2 startList declared.1 _ declared.2⟩

end Realization.Graph
