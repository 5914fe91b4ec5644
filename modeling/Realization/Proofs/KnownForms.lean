import Realization.Proofs.OneContract
import Realization.Proofs.StaticCheck

/-!
The forms in which types are known. Nodes and entries are kept side by side: rules add to both, requests to the
nodes alone. A request may bring a form that no rule declares, but only for a type that it starts; so as long as
nothing has been made of a type, its node says of it what the registry says.
-/
namespace Realization

theorem Registry.Indexed.knownForm {r : Registry} (indexed : r.Indexed) {t m : TypeRef}
    (known : (r.entry? t).bind (·.managed) = some m) :
    m ∈ r.mentions ∧ m.name = t.name ∧ m.isManaged = true := by
  rw [indexed.managed] at known
  have holds := List.find?_some known
  rw [Bool.and_eq_true, TypeRef.sameIff] at holds
  exact ⟨List.mem_of_find?_eq_some known, holds⟩

namespace Graph

variable {g : Graph} {n : Node} {m : TypeRef} {d : Declaration}

theorem Coherent.nodeForm (coherent : g.Coherent) (member : n ∈ g.nodes) :
    g.resolve (.plain n.subject.name) = n.subject := by
  have found := nodeMember coherent.distinct member
  cases form : n.subject with
  | plain name =>
    have same := coherent.resolveSubject (List.mem_map_of_mem member)
    rw [form] at same
    exact same
  | managed d =>
    have managed : n.subject.isManaged = true := by
      rw [form]
      rfl
    rw [nodeCongr (show n.subject.name = (TypeRef.plain d.name).name by rw [form]; rfl)] at found
    exact (resolveForm found managed).trans form

theorem Coherent.formKept (coherent : g.Coherent) (member : n ∈ g.nodes) (mentioned : m ∈ g.registry.mentions)
    (named : m.name = n.subject.name) (managed : m.isManaged = true) : n.subject.isManaged = true := by
  obtain ⟨n', found, keeps⟩ := coherent.tracked m mentioned
  rw [nodeCongr named, nodeMember coherent.distinct member] at found
  cases found
  exact keeps managed

/- The memory holds a contract under the fingerprint of the declaration, and whatever else it learns it answers with
that; the contract was made of a declaration with this fingerprint. -/
def Endorses (g : Graph) (d : Declaration) : Prop :=
  ∃ contract, (∀ v, g.registry.verdicts.Within v → contractFor (.managed d) v = (.ok contract, v)) ∧
    ∃ d' : Declaration, d'.fingerprint = d.fingerprint ∧ Contract.ofDeclaration d' = .ok contract

theorem Coherent.endorses (coherent : g.Coherent) (mentioned : .managed d ∈ g.registry.mentions) :
    g.Endorses d := by
  obtain ⟨contract, found⟩ := coherent.sound.accepted _ mentioned d rfl
  refine ⟨contract, fun v within => ?_, coherent.sound.genuine _ _ found⟩
  simp only [contractFor, TypeRef.declaration?, Verdicts.validateKnown (within _ _ found)]

structure Corresponds (g : Graph) (n : Node) : Prop where
  form : g.resolve (.plain n.subject.name) = n.subject
  managed : (g.resolve (.plain n.subject.name)).isManaged = true ↔
    ((g.registry.entry? n.subject).bind (·.managed)).isSome = true
  contract : ∀ m, (g.registry.entry? n.subject).bind (·.managed) = some m →
    ∃ d d', g.resolve (.plain n.subject.name) = .managed d ∧ m = .managed d' ∧
      d.fingerprint = d'.fingerprint ∧ g.Endorses d

theorem formsCorrespond (reachable : g.Reachable) :
    (∀ rule ∈ g.registry.rules, ∀ t ∈ rule.mentions, ∃ n ∈ g.nodes, n.subject.name = t.name) ∧
    ∀ n ∈ g.nodes, n.progress = .unrealized → g.Corresponds n := by
  have coherent := reachable.resting.coherent
  have indexed := coherent.sound.indexed
  refine ⟨fun rule member t mentioned => ?known, fun n member fresh => ?fresh⟩
  case known =>
    exact List.mem_map.mp (coherent.tracked.known (List.mem_flatMap.mpr ⟨rule, member, mentioned⟩))
  case fresh =>
    have form := coherent.nodeForm member
    have declared : n.subject.isManaged = true → n.subject ∈ g.registry.mentions :=
      coherent.formed n.subject n (nodeMember coherent.distinct member) fresh
    refine ⟨form, ?managed, fun m known => ?contract⟩
    case managed =>
      rw [form]
      constructor
      · intro managed
        rw [indexed.managed, List.find?_isSome]
        exact ⟨n.subject, declared managed, by simp [TypeRef.same, managed]⟩
      · intro some
        obtain ⟨m, known⟩ := Option.isSome_iff_exists.mp some
        obtain ⟨mentioned, named, managed⟩ := indexed.knownForm known
        exact coherent.formKept member mentioned named managed
    case contract =>
      obtain ⟨mentioned, named, managed⟩ := indexed.knownForm known
      have kept := coherent.formKept member mentioned named managed
      have own := declared kept
      rw [form]
      cases here : n.subject with
      | plain name =>
        rw [here] at kept
        contradiction
      | managed d =>
        rw [here] at own named
        cases m with
        | plain name => contradiction
        | managed d' =>
          have same := reachable.attested.agreed d d' own mentioned named.symm
          exact ⟨d, d', rfl, rfl, same, coherent.endorses own⟩

def copyRequested : Graph :=
  (ofRegistry {} { maxDepth := 1 }).run [.register copyCard, .realize (.managed (.interface "Copy"))]

theorem formsCorrespondCopy :
    copyRequested.nodes = [⟨.managed (.interface "Copy"), .failed⟩, ⟨.managed notedCard, .unrealized⟩] ∧
      copyRequested.Corresponds ⟨.managed notedCard, .unrealized⟩ := by
  have reachable : copyRequested.Reachable := ⟨{}, _, _, ⟨[], [], rfl⟩, rfl⟩
  have nodes : copyRequested.nodes =
      [⟨.managed (.interface "Copy"), .failed⟩, ⟨.managed notedCard, .unrealized⟩] := by decide +kernel
  exact ⟨nodes, (formsCorrespond reachable).2 _ (by rw [nodes]; simp) rfl⟩

end Graph

end Realization
