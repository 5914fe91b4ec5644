import Mathlib.Data.List.Find
import Realization.Proofs.Rest
import Realization.Proofs.TwinPlans

/-!
The order in which rules are registered shows in nothing that is answered. Graphs over the two registries start
alike, and from then on a request finds the same nodes in both.
-/
namespace Realization

namespace Comparison

variable {c : Comparison} {g h : Graph} {t : TypeRef}

theorem Twin.stays (twin : c.Twin g h) {g₁ h₁ : Graph} (stays : g.Stays g₁) (stays' : h.Stays h₁)
    (remembers : c.Remembers g₁.registry.verdicts) (remembers' : c.Remembers h₁.registry.verdicts) :
    c.Twin g₁ h₁ where
  rules := stays.rules.trans twin.rules
  entries := stays.entries.trans twin.entries
  rules' := stays'.rules.trans twin.rules'
  entries' := stays'.entries.trans twin.entries'
  settings := stays.settings.trans twin.settings
  settings' := stays'.settings.trans twin.settings'
  node t := by
    simp only [Graph.node?, stays.nodes, stays'.nodes]
    exact twin.node t
  formed t n found := by
    simp only [Graph.node?, stays.nodes] at found
    exact twin.formed t n found
  told := by rw [stays.journal, stays'.journal, twin.told]
  remembers := remembers
  remembers' := remembers'

theorem requestAlike {g₀ h₀ : Graph} (kin : c.Kin) (opened : c.Twin g₀ h₀) (inside : t ∈ c.forms)
    (opening : g.start = (.ok (), g₀)) (opening' : h.start = (.ok (), h₀)) :
    Alike c.Twin (g.realize t) (h.realize t) := by
  have works := Graph.requestWorks (opened.ready kin).indexed t
  have request := (realizeNodeAlike kin c.settings.maxDepth rfl).2 none t g₀ h₀ opened inside (.request t)
  unfold Graph.realize
  rw [opening, opening']
  dsimp only
  rw [opened.settings] at works ⊢
  rw [opened.settings']
  obtain ⟨fault, g₁, h₁, answer, answer', left⟩ | ⟨_, g₁, h₁, answer, answer', left⟩ := request.cases <;>
    rw [answer, answer']
  · exact ⟨rfl, left⟩
  · rw [answer] at works
    obtain ⟨e, found⟩ := Graph.Work.obtained works (opened.ready kin).indexed (List.mem_singleton_self _)
    have found' : h₁.stored t = some e := (left.stored t) ▸ found
    refine ⟨?_, left⟩
    dsimp only
    rw [Graph.storedElement found, Graph.storedElement found']

theorem realizeAlike (kin : c.Kin) (twin : c.Twin g h) (inside : t ∈ c.forms)
    (unchecked : c.settings.finalizeBeforeRealize = false) : Alike c.Twin (g.realize t) (h.realize t) := by
  have opening := Graph.startPasses (g := g) (.inl (twin.settings ▸ unchecked))
  have opening' := Graph.startPasses (g := h) (.inl (twin.settings' ▸ unchecked))
  -- to open a graph without the check learns nothing
  have opened : c.Twin g.opened h.opened :=
    twin.stays g.openedStays h.openedStays (g.openedVerdicts ▸ twin.remembers)
      (h.openedVerdicts ▸ twin.remembers')
  exact requestAlike kin opened inside opening opening'

end Comparison

namespace Graph

theorem nodeOfRegistry {r : Registry} (tidy : r.Tidy) (settings : Settings) (t : TypeRef) :
    (ofRegistry r settings).node? t = (r.resolve? t).map fun u => { subject := u } := by
  have named : ∀ e ∈ r.entries, ((fun n : Node => n.subject.same t) ∘ Entry.node) e = e.type.same t :=
    fun e member => by simp only [Function.comp_apply, TypeRef.same, (tidy.entries e member).named]
  rw [ofRegistryNodes tidy]
  unfold node? Registry.resolve? Registry.entry?
  rw [List.find?_map, List.find?_congr named, Option.map_map]
  rfl

end Graph

theorem Registry.Holds.twin {forms : List TypeRef} {origin : Verdicts} {rules rules' : List Rule}
    {r r' : Registry} (holds : r.Holds forms origin rules) (holds' : r'.Holds forms origin rules')
    (kin : Registry.Kin forms r r') (settings : Settings) :
    Comparison.Twin ⟨r, r', forms, origin, settings.withMaxDepth settings.maxDepth⟩
      (Graph.ofRegistry r settings) (Graph.ofRegistry r' settings) where
  rules := by rw [Graph.ofRegistryNodes holds.tidy]
  entries := by rw [Graph.ofRegistryNodes holds.tidy]
  rules' := by rw [Graph.ofRegistryNodes holds'.tidy]
  entries' := by rw [Graph.ofRegistryNodes holds'.tidy]
  settings := by rw [Graph.ofRegistryNodes holds.tidy]
  settings' := by rw [Graph.ofRegistryNodes holds'.tidy]
  node t := by rw [Graph.nodeOfRegistry holds.tidy, Graph.nodeOfRegistry holds'.tidy, kin.known]
  formed t n found := by
    rw [Graph.nodeOfRegistry holds.tidy] at found
    obtain ⟨u, known, rfl⟩ := Option.map_eq_some_iff.mp found
    exact kin.inside u (kin.indexed.resolveMentioned known)
  told := by
    rw [Graph.ofRegistryNodes holds.tidy, Graph.ofRegistryNodes holds'.tidy]
    rfl
  remembers := by
    rw [Graph.ofRegistryNodes holds.tidy]
    exact holds.like
  remembers' := by
    rw [Graph.ofRegistryNodes holds'.tidy]
    exact holds'.like

namespace Graph

variable {declarations : List Declaration} {settings : Settings} {rules rules' : List Rule}

abbrev empty (declarations : List Declaration) (settings : Settings) : Graph :=
  ofRegistry { verdicts := Verdicts.after declarations } settings

theorem registeredHolds {forms : List TypeRef} (apart : Apart forms)
    (inside : ∀ rule ∈ rules, ∀ t ∈ rule.mentions, t ∈ forms)
    (accepted : ∀ answer ∈ (registerEach rules (empty declarations settings)).1, answer.isOk) :
    ∃ r : Registry, r.Holds forms (Verdicts.after declarations) rules ∧
      (registerEach rules (empty declarations settings)).2 = ofRegistry r settings := by
  have sound := Registry.soundEmpty (Verdicts.genuineAfter declarations)
  obtain ⟨same, -, -⟩ := registerEachOfRegistry sound (Registry.tidyEmpty _) settings rules
  have start : Registry.Holds forms (Verdicts.after declarations) []
      { verdicts := Verdicts.after declarations } :=
    ⟨rfl, sound, Registry.tidyEmpty _, fun _ _ member => by contradiction, fun _ _ => rfl⟩
  rw [same] at accepted ⊢
  exact ⟨_, start.registerEach apart inside accepted, rfl⟩

theorem interleavingsAgree (unchecked : settings.finalizeBeforeRealize = false) (perm : rules.Perm rules')
    (ordered : ∀ t : TypeRef, (rules.filter fun rule => !rule.creates && rule.subject.same t) =
      rules'.filter fun rule => !rule.creates && rule.subject.same t)
    (accepted : ∀ answer ∈ (registerEach rules (empty declarations settings)).1, answer.isOk)
    (accepted' : ∀ answer ∈ (registerEach rules' (empty declarations settings)).1, answer.isOk)
    (t : TypeRef) :
    let g := (registerEach rules (empty declarations settings)).2
    let h := (registerEach rules' (empty declarations settings)).2
    ((g.plan t).1 = (h.plan t).1 ∧ (g.realize t).1 = (h.realize t).1 ∧
      (g.realize t).2.journal.map (Event.telling g.registry) =
        (h.realize t).2.journal.map (Event.telling h.registry) ∧
      ∀ u, (g.realize t).2.node? u = (h.realize t).2.node? u) ∨
    Collides (t :: rules.flatMap Rule.mentions) := by
  intro g h
  refine (apartOr _).imp_left fun apart => ?_
  have inside : ∀ rule ∈ rules, ∀ u ∈ rule.mentions, u ∈ t :: rules.flatMap Rule.mentions :=
    fun rule member u mentioned => List.mem_cons_of_mem _ (List.mem_flatMap.mpr ⟨rule, member, mentioned⟩)
  obtain ⟨r, holds, built⟩ := registeredHolds apart inside accepted
  obtain ⟨r', holds', built'⟩ :=
    registeredHolds apart (fun rule member => inside rule (perm.mem_iff.mpr member)) accepted'
  have kin := holds.kin holds' perm ordered apart fun m member => by
    obtain ⟨rule, listed, mentioned⟩ := List.mem_flatMap.mp member
    exact inside rule (holds.rules ▸ listed) m mentioned
  have twin := holds.twin holds' kin settings
  rw [← built, ← built'] at twin
  obtain ⟨same, left⟩ := Comparison.realizeAlike kin twin List.mem_cons_self unchecked
  have rules : g.registry.rules = r.rules := twin.rules
  have rules' : h.registry.rules = r'.rules := twin.rules'
  refine ⟨(Comparison.planAlike kin twin List.mem_cons_self).1, same, ?_, left.node⟩
  rw [Event.tellingKept rules, Event.tellingKept rules']
  exact left.told

theorem interleavingsAgreeList :
    let g := (registerEach [writeText, startList, extendList] (empty [] {})).2
    let h := (registerEach [extendList, startList, writeText] (empty [] {})).2
    (g.realize (.plain "List")).1 = .ok (.list ["a", "a"]) ∧
    (g.plan (.plain "List")).1 = (h.plan (.plain "List")).1 ∧
    (g.realize (.plain "List")).1 = (h.realize (.plain "List")).1 ∧
    (g.realize (.plain "List")).2.journal.map (Event.telling g.registry) =
      (h.realize (.plain "List")).2.journal.map (Event.telling h.registry) ∧
    ∀ u, (g.realize (.plain "List")).2.node? u = (h.realize (.plain "List")).2.node? u := by
  have agree := @interleavingsAgree [] {} [writeText, startList, extendList]
    [extendList, startList, writeText] rfl (List.reverse_perm [writeText, startList, extendList]).symm
    (fun _ => rfl) (by decide +kernel) (by decide +kernel) (.plain "List")
  refine ⟨by decide +kernel, agree.resolve_right ?_⟩
  rintro ⟨a, b, first, -⟩
  simp [writeText, startList, extendList, Rule.mentions] at first

end Graph

end Realization
