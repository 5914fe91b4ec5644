import Realization.Proofs.Elements
import Realization.Proofs.Underway

/-!
What the static check assures. It passes exactly if every known type has a source and none depends on itself, and
then whatever the duties of a type call for can be had.
-/
namespace Realization.Graph

variable {g g' : Graph} {t u : TypeRef} {via : Option Locator} {duties : List Duty} {own : Option Element}

def Supplied (g : Graph) (t : TypeRef) : Prop :=
  g.registry.creator? t = none → ∃ n, g.node? t = some n ∧ n.subject.isManaged = true

structure Checked (g : Graph) : Prop where
  supplied : ∀ t, t.name ∈ g.names → g.standing t = .unrealized → g.Supplied t
  acyclic : g.registry.Acyclic

structure Assured (g : Graph) (duties : List Duty) : Prop where
  accepted : ∀ u, .synthesize u ∈ duties → ∃ d, u = .managed d ∧ g.registry.verdicts.Accepts d
  sourced : ∀ u requiredBy via, .lack u requiredBy via ∉ duties

theorem Coherent.formAccepted (coherent : g.Coherent) {n : Node} (found : g.node? t = some n)
    (fresh : g.standing t = .unrealized) {d : Declaration} (form : n.subject = .managed d) :
    g.registry.verdicts.Accepts d := by
  have unrealized : n.progress = .unrealized := by
    simpa [standing, progress?, found] using fresh
  have mentioned := coherent.formed t n found unrealized (by rw [form]; rfl)
  exact coherent.sound.accepted _ mentioned d (by rw [form]; rfl)

theorem Coherent.resolveAccepted (coherent : g.Coherent) (fresh : g.standing t = .unrealized)
    (homed : ∃ n, g.node? t = some n ∧ n.subject.isManaged = true) :
    ∃ d, g.resolve t = .managed d ∧ g.registry.verdicts.Accepts d := by
  obtain ⟨n, found, managed⟩ := homed
  cases form : n.subject with
  | plain name =>
    rw [form] at managed
    contradiction
  | managed d =>
    exact ⟨d, (resolveForm found managed).trans form, coherent.formAccepted found fresh form⟩

theorem Coherent.synthesisAccepted (coherent : g.Coherent) (fresh : g.standing t = .unrealized)
    (homed : g.registry.creator? t = none → (g.resolve t).isManaged = true →
      ∃ n, g.node? t = some n ∧ n.subject.isManaged = true)
    {below : List TypeRef} {via : Option Locator} {u : TypeRef}
    (member : .synthesize u ∈ g.registry.duties below via (g.resolve t)) :
    ∃ d, u = .managed d ∧ g.registry.verdicts.Accepts d := by
  have indexed := coherent.sound.indexed
  have named := resolveName indexed t
  rcases indexed.dutyCases member with ⟨same, ⟨p, creator, initializer⟩ | ⟨missing, managed⟩⟩ |
    ⟨other, _⟩ | ⟨_, _, _, _, _, ⟨_, _, other⟩ | other⟩
  · cases same
    obtain ⟨_, inside, _, own⟩ := indexed.creatorFound (show _ = some (p.1, p.2) from creator)
    obtain ⟨m, mentioned, same, managed⟩ := coherent.sound.initializers p.2 inside initializer
    obtain ⟨n, found, keeps⟩ := coherent.tracked m mentioned
    have subject : m.name = t.name :=
      (TypeRef.sameIff.mp same).trans ((TypeRef.sameIff.mp own).trans named)
    exact coherent.resolveAccepted fresh ⟨n, (nodeCongr subject g).symm.trans found, keeps managed⟩
  · cases same
    exact coherent.resolveAccepted fresh
      (homed ((g.registry.creatorCongr named).symm.trans missing) managed)
  · contradiction
  · contradiction
  · contradiction

theorem lackMissing (indexed : g.registry.Indexed) {below : List TypeRef} {via by' : Option Locator}
    {u : TypeRef} {requiredBy : Option TypeRef}
    (member : .lack u requiredBy by' ∈ g.registry.duties below via (g.resolve t)) :
    ¬ g.Supplied t := by
  intro supplied
  have named := resolveName indexed t
  rcases indexed.dutyCases member with ⟨other, _⟩ | ⟨_, missing, plain⟩ |
    ⟨_, _, _, _, _, ⟨_, _, other⟩ | other⟩
  · contradiction
  · obtain ⟨n, found, managed⟩ := supplied ((g.registry.creatorCongr named).symm.trans missing)
    rw [resolveForm found managed, managed] at plain
    contradiction
  · contradiction
  · contradiction

theorem Coherent.assured (coherent : g.Coherent) (fresh : g.standing t = .unrealized)
    (supplied : g.Supplied t) (below : List TypeRef) (via : Option Locator) :
    g.Assured (g.registry.duties below via (g.resolve t)) where
  accepted _ member := coherent.synthesisAccepted fresh (fun missing _ => supplied missing) member
  sourced _ _ _ member := lackMissing coherent.sound.indexed member supplied

theorem Assured.kept (assured : g.Assured duties)
    (within : g.registry.verdicts.Within g'.registry.verdicts) : g'.Assured duties where
  accepted u member := by
    obtain ⟨d, form, accepts⟩ := assured.accepted u member
    exact ⟨d, form, accepts.within within⟩
  sourced := assured.sourced

theorem Assured.rest {duty : Duty} (assured : g.Assured (duty :: duties)) : g.Assured duties where
  accepted u member := assured.accepted u (List.mem_cons_of_mem _ member)
  sourced u requiredBy via member := assured.sourced u requiredBy via (List.mem_cons_of_mem _ member)

theorem contractForAccepted {v : Verdicts} {d : Declaration} (accepts : v.Accepts d) :
    ∃ contract, contractFor (.managed d) v = (.ok contract, v) := by
  obtain ⟨contract, found⟩ := accepts
  refine ⟨contract, ?_⟩
  simp only [contractFor, TypeRef.declaration?, Verdicts.validateKnown found]

theorem checkSourcesExact {ts : List TypeRef} {v : Verdicts}
    (accepts : ∀ d, .managed d ∈ ts → v.Accepts d) :
    (g.checkSources ts v).1 = .ok () ↔
      ∀ t ∈ ts, g.registry.creator? t = none → t.isManaged = true := by
  induction ts with
  | nil => simp [checkSources]
  | cons t rest ih =>
    have later := ih fun d member => accepts d (List.mem_cons_of_mem _ member)
    unfold checkSources
    cases creator : g.registry.creator? t with
    | some p => simp [later, creator]
    | none =>
      cases t with
      | plain name => simp [creator, TypeRef.isManaged, TypeRef.declaration?]
      | managed d =>
        obtain ⟨contract, answer⟩ := contractForAccepted (accepts d List.mem_cons_self)
        have managed : TypeRef.isManaged (.managed d) = true := rfl
        rw [if_neg (by simp), if_pos managed, answer]
        dsimp only
        rw [later, List.forall_mem_cons]
        exact ⟨fun others => ⟨fun _ => managed, others⟩, fun both => both.2⟩

theorem finalizeExact (coherent : g.Coherent) (fresh : ∀ t, g.standing t = .unrealized) :
    g.finalize.1 = .ok () ↔ g.Checked := by
  have accepts : ∀ d, .managed d ∈ g.subjects → g.registry.verdicts.Accepts d := by
    intro d member
    obtain ⟨n, inside, form⟩ := List.mem_map.mp member
    exact coherent.formAccepted (nodeMember coherent.distinct inside) (fresh _) form
  have sources : (g.checkSources g.subjects g.registry.verdicts).1 = .ok () ↔
      ∀ t, t.name ∈ g.names → g.Supplied t := by
    rw [checkSourcesExact accepts]
    constructor
    · intro checked t known missing
      obtain ⟨n, found⟩ := nodeKnown known
      have inside := List.mem_of_find?_eq_some found
      refine ⟨n, found, checked n.subject (List.mem_map_of_mem inside) ?_⟩
      exact (g.registry.creatorCongr (nodeName found)).trans missing
    · intro supplied t member missing
      obtain ⟨n, inside, form⟩ := List.mem_map.mp member
      subst form
      obtain ⟨n', found, managed⟩ := supplied n.subject (List.mem_map_of_mem inside) missing
      cases (nodeMember coherent.distinct inside).symm.trans found
      exact managed
  have checked : g.Checked ↔ (∀ t, t.name ∈ g.names → g.Supplied t) ∧ g.registry.Acyclic :=
    ⟨fun c => ⟨fun t known => c.supplied t known (fresh t), c.acyclic⟩,
      fun both => ⟨fun t known _ => both.1 t known, both.2⟩⟩
  rw [checked, ← sources, ← orderExact coherent.tracked]
  exact finalizeHalves

end Realization.Graph
