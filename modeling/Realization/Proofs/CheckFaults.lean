import Mathlib.Data.List.Permutation
import Realization.Proofs.RequestFaults

/-!
What the faults of the check say is so. A cycle is found by walking back from a type that lies on one, and what
is told of the walk is a circle of needs, with the first rule that closes it; a missing source is the first one
missing, with the first rule that declares the type, if there is any.
-/
namespace Realization

def Registry.First (r : Registry) (holds : Rule → Prop) (rule : Rule) : Prop :=
  holds rule ∧ ∃ earlier later, r.rules = earlier ++ rule :: later ∧ ∀ q ∈ earlier, ¬ holds q

theorem Registry.firstFound {r : Registry} {holds : Rule → Prop} {test : Rule → Bool} {rule : Rule}
    (exact : ∀ q, test q = true ↔ holds q) (found : r.rules.find? test = some rule) : r.First holds rule := by
  obtain ⟨here, earlier, later, whole, others⟩ := List.find?_eq_some_iff_append.mp found
  refine ⟨(exact rule).mp here, earlier, later, whole, fun q member held => ?_⟩
  have passed := others q member
  rw [(exact q).mpr held] at passed
  contradiction

theorem Rule.closesExact (rule : Rule) (lead : List TypeRef) (s i : TypeRef) :
    rule.Closes (lead ++ [s, i]) ↔ rule.subject.same s = true ∧ rule.declares i = true := by
  constructor
  · rintro ⟨lead', s', i', same, own, declared⟩
    obtain ⟨_, last⟩ := List.append_inj' same rfl
    cases last
    exact ⟨own, declared⟩
  · rintro ⟨own, declared⟩
    exact ⟨lead, s, i, rfl, own, declared⟩

theorem Registry.Circle.ends {r : Registry} {chain : List TypeRef} (circle : r.Circle chain) :
    ∃ lead s i, chain = lead ++ [s, i] ∧ r.Needs s.name i.name := by
  have long := circle.long
  rcases List.eq_nil_or_concat chain with rfl | ⟨front, i, rfl⟩
  · simp at long
  · rcases List.eq_nil_or_concat front with rfl | ⟨lead, s, rfl⟩
    · simp at long
    · have whole : (lead.concat s).concat i = lead ++ [s, i] := by simp
      have needs := circle.needs
      rw [whole] at needs
      have last := needs.right_of_append
      rw [List.isChain_pair] at last
      exact ⟨lead, s, i, whole, last⟩

namespace Graph

/- The chain is told of a walk back through the dependencies that starts where the order got stuck and takes no
more steps than there are known types. -/
def Walked (g : Graph) (chain : List TypeRef) : Prop :=
  ∃ name lead told, g.dependencies.sort = .error name ∧ g.dependencies.cycleFrom name = .ok told ∧
    g.dependencies.Walk (g.dependencies.component name) name (lead ++ told) ∧
    (lead ++ told).tail.length ≤ g.nodes.length ∧ chain = told.map g.typeNamed

inductive Missed (g : Graph) (s : TypeRef) : Option TypeRef → Option Locator → Prop where
  | nowhere (undeclared : ∀ rule ∈ g.registry.rules, rule.declares s = false) : Missed g s none none
  | declared {rule u} (first : g.registry.First (·.declares s = true) rule) (own : rule.subject.same u = true) :
    Missed g s (some u) (some rule.locator)

def BearsOut (g : Graph) : Fault → Prop
  | .cyclic chain via => g.Walked chain ∧ g.registry.Circle chain ∧
    ∃ rule, g.registry.First (·.Closes chain) rule ∧ via = some rule.locator
  | .noCreator s requiredBy via => (∃ before after, g.subjects = before ++ s :: after ∧ g.Sourceless s ∧
    ∀ u ∈ before, ¬ g.Sourceless u) ∧ g.Missed s requiredBy via
  | _ => True

variable {g : Graph} {s t : TypeRef} {chain : List TypeRef} {fault : Fault} {name : String}

theorem closingRuleFirst (circle : g.registry.Circle chain) :
    ∃ rule, g.registry.First (·.Closes chain) rule ∧ g.closingRule? chain = some rule.locator := by
  obtain ⟨lead, s, i, rfl, i', ⟨rule, member, own, declared⟩, named⟩ := circle.ends
  have exact : ∀ q : Rule, (q.subject.same s && q.declares i) = true ↔ q.Closes (lead ++ [s, i]) := by
    intro q
    rw [q.closesExact, Bool.and_eq_true]
  have closes : rule.Closes (lead ++ [s, i]) :=
    (rule.closesExact lead s i).mpr ⟨own, Rule.declaresNamed declared named.symm⟩
  have listed : (g.registry.rules.find? fun q => q.subject.same s && q.declares i).isSome = true :=
    List.find?_isSome.mpr ⟨rule, member, (exact rule).mpr closes⟩
  obtain ⟨first, found⟩ := Option.isSome_iff_exists.mp listed
  refine ⟨first, Registry.firstFound exact found, ?_⟩
  unfold closingRule?
  rw [List.reverse_append]
  simp only [List.reverse_cons, List.reverse_nil, List.nil_append, List.cons_append, found, Option.map_some]

theorem stuckCircle (tracked : g.Tracked) (stuck : g.dependencies.sort = .error name) :
    ∃ told, g.dependencies.cycleFrom name = .ok told ∧ g.Walked (told.map g.typeNamed) ∧
      g.registry.Circle (told.map g.typeNamed) := by
  have closed := dependenciesClosed tracked
  have cycle := Digraph.sortCycle closed stuck
  obtain ⟨_, first, _⟩ := Relation.TransGen.head'_iff.mp cycle
  obtain ⟨told, answer⟩ := Digraph.cycleFromEnds closed cycle
  obtain ⟨lead, u, rest, rfl, walk⟩ := Digraph.cycleFromWalks (closed _ _ first).1 answer
  have short : (lead ++ (u :: rest ++ [u])).tail.length ≤ g.nodes.length := by
    have vertices : g.dependencies.vertices.length = g.nodes.length := by
      rw [dependenciesVertices, names, List.length_map]
    have short := walk.short
    rw [List.length_tail]
    omega
  have distinct : ((g.typeNamed u :: rest.map g.typeNamed).map (·.name)).Nodup := by
    have apart := walk.distinct
    rw [← List.append_assoc, List.dropLast_concat] at apart
    have names : ((u :: rest).map g.typeNamed).map (·.name) = u :: rest := by
      rw [List.map_map]
      exact (List.map_congr_left fun n _ => g.typeNamedName n).trans (List.map_id _)
    rw [← List.map_cons, names]
    exact (List.nodup_append.mp apart).2.1
  have needs : ((u :: rest ++ [u]).map g.typeNamed).IsChain fun a b => g.registry.Needs a.name b.name := by
    rw [List.isChain_map]
    refine walk.steps.right_of_append.imp fun a b step => ?_
    rw [typeNamedName, typeNamedName]
    exact (dependenciesEdge b a).mp (Digraph.stepBackFound step).1
  refine ⟨_, answer, ⟨name, lead, _, stuck, answer, walk, short, rfl⟩, ?_⟩
  rw [List.map_append] at needs ⊢
  exact Registry.circleOf rfl distinct needs

theorem orderBorneOut (tracked : g.Tracked) (failed : g.order = .error fault) : g.BearsOut fault := by
  unfold order at failed
  split at failed
  · contradiction
  · rename_i name stuck
    obtain ⟨told, answer, walked, circle⟩ := stuckCircle tracked stuck
    rw [cycleFault, answer] at failed
    cases failed
    exact ⟨walked, circle, closingRuleFirst circle⟩

theorem firstDependentMissed (g : Graph) (indexed : g.registry.Indexed) (s : TypeRef) :
    g.Missed s ((g.firstDependent? s).map (·.1)) ((g.firstDependent? s).map (·.2)) := by
  unfold firstDependent?
  cases found : g.registry.rules.find? (·.declares s) with
  | none =>
    refine .nowhere fun rule member => ?_
    simpa using List.find?_eq_none.mp found rule member
  | some rule =>
    exact .declared (Registry.firstFound (fun q => Iff.rfl) found)
      (TypeRef.sameIff.mpr (resolveName indexed rule.subject).symm)

theorem sourcesBorneOut (coherent : g.Coherent)
    (failed : (g.checkSources g.subjects g.registry.verdicts).1 = .error fault) : g.BearsOut fault := by
  have indexed := coherent.sound.indexed
  obtain ⟨before, s, after, whole, earlier, missing, stops⟩ := checkSourcesStops failed
  cases stops with
  | rejected => trivial
  | plain plain =>
    have here : g.resolve s = s := coherent.resolveSubject (by rw [whole]; simp)
    have sourceless : g.Sourceless (g.resolve s) :=
      coherent.founded.sourceless (by rw [here]; exact missing) (by rw [here]; exact plain)
    rw [here] at sourceless
    refine ⟨⟨before, after, whole, sourceless, fun u member lacks => ?_⟩, g.firstDependentMissed indexed s⟩
    have managed := earlier u member (indexed.creatorMissing.mpr lacks.uncreated)
    rw [lacks.plain] at managed
    contradiction

theorem checkFaultsBorneOut (reachable : g.Reachable) :
    (∀ fault, g.finalize.1 = .error fault → g.BearsOut fault) ∧
    (∀ fault, g.order = .error fault → g.BearsOut fault) := by
  have coherent := reachable.resting.coherent
  refine ⟨fun fault failed => ?_, fun fault => orderBorneOut coherent.tracked⟩
  rcases finalizeFails failed with sources | ordered
  · exact sourcesBorneOut coherent sources
  · exact orderBorneOut coherent.tracked ordered

theorem checkFaultsBorneOutLate :
    let late := lateSession []
    let missing := .noCreator (.plain "Missing") (some (.plain "Report")) (some "late")
    let circular := circularSession []
    let cycle := .cyclic [.plain "Egg", .plain "Hen", .plain "Egg"] (some "hatch")
    late.finalize.1 = .error missing ∧ late.BearsOut missing ∧
      circular.finalize.1 = .error cycle ∧ circular.order = .error cycle ∧ circular.BearsOut cycle := by
  intro late missing circular cycle
  have lacks : late.finalize.1 = .error missing := by decide +kernel
  have needs : circular.dependencies =
      ⟨["Hen", "Egg", "Meal"], [("Egg", "Hen"), ("Hen", "Egg"), ("Egg", "Meal")]⟩ := rfl
  have stuck : circular.dependencies.sort = .error "Egg" := by
    rw [needs]
    cbv
  have closed : circular.dependencies.cycleFrom "Egg" = .ok ["Egg", "Hen", "Egg"] := by
    rw [needs]
    cbv
  have ordered : circular.order = .error cycle := by
    simp only [order, stuck, cycleFault, closed]
    rfl
  have turns : circular.finalize.1 = .error cycle := by
    rw [finalizeAnswer, ordered]
    rfl
  exact ⟨lacks, (checkFaultsBorneOut (lateSessionReachable [])).1 missing lacks, turns, ordered,
    (checkFaultsBorneOut (circularSessionReachable [])).2 cycle ordered⟩

end Graph

end Realization
