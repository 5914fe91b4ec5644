import Realization.Proofs.Rest

/-!
Stored elements. Whatever a session did before, an element in store is the one that the rules of its
type prescribe for the elements now in store; and what the rules yield on their own, without any
store, is at most one element.
-/
namespace Realization.Graph

theorem storedElements {g : Graph} (reachable : g.Reachable) {t : TypeRef} {e : Element}
    (realized : g.progress? t = some (.realized e)) :
    (∀ rule ∈ g.registry.rules, rule.subject.same t = true →
      ∀ i ∈ rule.inputs, ∃ x, g.progress? i = some (.realized x)) ∧
    g.prescribed g.stored t = some (.ok e) := by
  have coherent := reachable.resting.coherent
  have found : g.stored t = some e := storedIff.mpr (progressStanding realized)
  have made := coherent.truthful t e found
  refine ⟨fun rule member own i declared => ?_, made⟩
  obtain ⟨x, known⟩ := prescribedInputs coherent.sound made i ⟨rule, member, own, declared⟩
  exact ⟨x, standingProgress (storedIff.mp known) (by simp)⟩

def writeText : Rule := ⟨"write", .plain "Text", [], .producer fun _ => ⟨[], .ok (.text "a")⟩⟩

def gathered (inputs : Inputs) : List String :=
  match inputs.element? 0 with
  | some (.text s) => [s]
  | _ => []

def startList : Rule :=
  ⟨"start", .plain "List", [.plain "Text"], .producer fun inputs => ⟨[], .ok (.list (gathered inputs))⟩⟩

def extendList : Rule :=
  ⟨"extend", .plain "List", [.plain "Text"], .mutator fun own inputs =>
    match own with
    | .list items => ⟨["extending"], .ok (.list (items ++ gathered inputs))⟩
    | _ => ⟨[], .error ⟨"no list", []⟩⟩⟩

def smallSession (operations : List Operation) : Graph :=
  (ofRegistry {} {}).run ([.register writeText, .register startList, .register extendList] ++ operations)

theorem smallSessionReachable (operations : List Operation) : (smallSession operations).Reachable :=
  ⟨{}, {}, _, ⟨[], [], rfl⟩, rfl⟩

theorem storedElementsList :
    (smallSession [.realize (.plain "List")]).progress? (.plain "List") =
        some (.realized (.list ["a", "a"])) ∧
      (smallSession [.realize (.plain "List")]).prescribed
        (smallSession [.realize (.plain "List")]).stored (.plain "List") =
          some (.ok (.list ["a", "a"])) := by
  have realized : (smallSession [.realize (.plain "List")]).progress? (.plain "List") =
      some (.realized (.list ["a", "a"])) := by decide +kernel
  exact ⟨realized, (storedElements (smallSessionReachable _) realized).2⟩

inductive Yields (g : Graph) : TypeRef → Element → Prop where
  | rules {t e} {read : TypeRef → Option Element} (genuine : ∀ i x, read i = some x → Yields g i x)
      (made : g.prescribed read t = some (.ok e)) : Yields g t e

variable {g : Graph} {t u : TypeRef} {e e' : Element}

theorem Yields.congr (yields : g.Yields t e) (named : t.name = u.name) : g.Yields u e := by
  cases yields with
  | rules genuine made => exact .rules genuine (by rw [← prescribedCongr named]; exact made)

theorem prescribedUnique {read read' : TypeRef → Option Element} (sound : g.registry.Sound)
    (agree : ∀ i x y, read i = some x → read' i = some y → x = y)
    (made : g.prescribed read t = some (.ok e)) {z : Except Failure Element}
    (other : g.prescribed read' t = some z) : z = .ok e := by
  have within : ∀ i, g.registry.Requires t i → ∀ y, read' i = some y → read i = some y := by
    intro i required y found
    obtain ⟨x, known⟩ := prescribedInputs sound made i required
    rw [known, agree i x y known found]
  have same := prescribedMono (g := g) rfl rfl (fun _ blank => blank) within other
  exact Option.some.inj (same.symm.trans made)

theorem Yields.unique (sound : g.registry.Sound) (first : g.Yields t e) (second : g.Yields t e') :
    e = e' := by
  induction first generalizing e' with
  | rules genuine made ih =>
    cases second with
    | rules genuine' made' =>
      have same := prescribedUnique sound (fun i x y known found => ih i x known (genuine' i y found))
        made made'
      exact (Except.ok.inj same).symm

theorem Yields.inputs (sound : g.registry.Sound) (yields : g.Yields t e) {i : TypeRef}
    (required : g.registry.Requires t i) : ∃ x, g.Yields i x := by
  cases yields with
  | rules genuine made =>
    obtain ⟨x, known⟩ := prescribedInputs sound made i required
    exact ⟨x, genuine i x known⟩

end Realization.Graph
