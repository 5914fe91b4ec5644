import Realization.Graph.Session
import Realization.Proofs.Admission
import Realization.Proofs.Coherence

/-!
What stays between realizations. At rest no realization is under way and the graph is coherent; checking, planning
and opening a request move nothing but memory and flags.
-/
namespace Realization.Graph

structure Resting (g : Graph) : Prop where
  coherent : g.Coherent
  quiet : ∀ t, g.standing t ≠ .realizing

/- Rules, settings, nodes and journal stay; memory may grow and flags may change. -/
structure Stays (g g' : Graph) : Prop where
  rules : g'.registry.rules = g.registry.rules
  entries : g'.registry.entries = g.registry.entries
  settings : g'.settings = g.settings
  nodes : g'.nodes = g.nodes
  journal : g'.journal = g.journal
  verdicts : g.registry.verdicts.Within g'.registry.verdicts
  genuine : g.registry.verdicts.Genuine → g'.registry.verdicts.Genuine

variable {g g' g'' : Graph}

theorem staysRefl (g : Graph) : g.Stays g :=
  ⟨rfl, rfl, rfl, rfl, rfl, g.registry.verdicts.withinRefl, id⟩

theorem Stays.trans (first : g.Stays g') (second : g'.Stays g'') : g.Stays g'' where
  rules := second.rules.trans first.rules
  entries := second.entries.trans first.entries
  settings := second.settings.trans first.settings
  nodes := second.nodes.trans first.nodes
  journal := second.journal.trans first.journal
  verdicts := first.verdicts.trans second.verdicts
  genuine start := second.genuine (first.genuine start)

theorem Stays.node (stays : g.Stays g') (t : TypeRef) : g'.node? t = g.node? t := by
  unfold node?
  rw [stays.nodes]

theorem Stays.progress (stays : g.Stays g') (t : TypeRef) : g'.progress? t = g.progress? t := by
  unfold progress?
  rw [stays.node]

theorem Stays.standing (stays : g.Stays g') (t : TypeRef) : g'.standing t = g.standing t := by
  unfold Graph.standing
  rw [stays.progress]

theorem Stays.resting (stays : g.Stays g') (resting : g.Resting) : g'.Resting where
  coherent := by
    obtain ⟨registry, settings, nodes, started, finalized, journal⟩ := g'
    obtain ⟨rules, entries, verdicts, frozen⟩ := registry
    obtain ⟨rfl, rfl, rfl, rfl, rfl, within, genuine⟩ := stays
    have kept := resting.coherent.remember within (genuine resting.coherent.sound.genuine)
    exact ⟨⟨kept.sound.indexed.congr rfl rfl, kept.sound.sole, kept.sound.genuine, kept.sound.accepted,
      kept.sound.initializers, kept.sound.listed⟩, kept.depth, kept.tracked, kept.distinct, kept.formed,
      kept.truthful⟩
  quiet t := by
    rw [stays.standing]
    exact resting.quiet t

theorem staysRemember (g : Graph) {verdicts : Verdicts} (within : g.registry.verdicts.Within verdicts)
    (genuine : g.registry.verdicts.Genuine → verdicts.Genuine) : g.Stays (g.withVerdicts verdicts) :=
  ⟨rfl, rfl, rfl, rfl, rfl, within, genuine⟩

theorem checkSourcesKeeps {P : Verdicts → Prop} (kept : Verdicts.Kept P) (g : Graph) (ts : List TypeRef)
    {v : Verdicts} (holds : P v) : P (g.checkSources ts v).2 := by
  induction ts generalizing v with
  | nil => exact holds
  | cons t rest ih =>
    have learnt := contractForKeeps kept t holds
    unfold checkSources
    split
    · exact ih holds
    · split
      · rcases answer : contractFor t v with ⟨fault | contract, w⟩ <;> rw [answer] at learnt
        · exact learnt
        · exact ih learnt
      · exact holds

theorem checkSourcesNoHarsher {ts : List TypeRef} {v : Verdicts}
    (passed : (g.checkSources ts v).1 = .ok ()) :
    v.NoHarsher (g.checkSources ts v).2 := by
  induction ts generalizing v with
  | nil => exact v.noHarsherRefl
  | cons t rest ih =>
    unfold checkSources at passed ⊢
    split
    · rename_i created
      rw [if_pos created] at passed
      exact ih passed
    · rename_i uncreated
      rw [if_neg uncreated] at passed
      split
      · rename_i managed
        rw [if_pos managed] at passed
        rcases made : contractFor t v with ⟨fault | contract, w⟩ <;> rw [made] at passed
        · contradiction
        · exact (contractForNoHarsher made).trans (ih passed)
      · exact v.noHarsherRefl

theorem finalizeAnswer (g : Graph) : g.finalize.1 =
    (g.checkSources g.subjects g.registry.verdicts).1.bind fun _ => g.order.map fun _ => () := by
  unfold finalize
  rcases g.checkSources g.subjects g.registry.verdicts with ⟨fault | _, verdicts⟩
  · rfl
  · have same : (g.withVerdicts verdicts).order = g.order := rfl
    dsimp only
    rw [same]
    cases g.order <;> rfl

theorem finalizeHalves : g.finalize.1 = .ok () ↔
    (g.checkSources g.subjects g.registry.verdicts).1 = .ok () ∧ ∃ ts, g.order = .ok ts := by
  rw [finalizeAnswer]
  cases (g.checkSources g.subjects g.registry.verdicts).1 with
  | error fault => simp [Except.bind]
  | ok _ => cases g.order <;> simp [Except.bind, Except.map]

theorem finalizeFails {fault : Fault} (failed : g.finalize.1 = .error fault) :
    (g.checkSources g.subjects g.registry.verdicts).1 = .error fault ∨ g.order = .error fault := by
  rw [finalizeAnswer] at failed
  rcases sources : (g.checkSources g.subjects g.registry.verdicts).1 with fault' | _ <;> rw [sources] at failed
  · exact .inl failed
  · rcases ordered : g.order with fault' | ts <;> rw [ordered] at failed <;> cases failed
    exact .inr rfl

theorem finalizeLeaves (g : Graph) : g.finalize.2 =
    { g.withVerdicts (g.checkSources g.subjects g.registry.verdicts).2 with
      isFinalized := g.isFinalized || g.finalize.1.isOk } := by
  unfold finalize
  rcases g.checkSources g.subjects g.registry.verdicts with ⟨fault | _, verdicts⟩
  · simp [Except.isOk, Except.toBool, withVerdicts]
  · dsimp only
    split <;> simp [Except.isOk, Except.toBool, withVerdicts]

theorem finalizeStays (g : Graph) : g.Stays g.finalize.2 := by
  rw [finalizeLeaves]
  exact ⟨rfl, rfl, rfl, rfl, rfl, checkSourcesKeeps (Verdicts.withinKept _) g _ (Verdicts.withinRefl _),
    checkSourcesKeeps Verdicts.genuineKept g _⟩

theorem finalizeFlags (g : Graph) : g.finalize.2.isStarted = g.isStarted ∧
    (g.isFinalized = true → g.finalize.2.isFinalized = true) := by
  rw [finalizeLeaves]
  exact ⟨rfl, fun before => by simp [before]⟩

theorem finalizedFlag (passed : g.finalize.1 = .ok ()) : g.finalize.2.isFinalized = true := by
  rw [finalizeLeaves, passed]
  exact Bool.or_true _

theorem planStays (indexed : g.registry.Indexed) (t : TypeRef) : g.Stays (g.plan t).2 := by
  have leads := visitNodeLeads indexed g.settings.maxDepth [] none t { verdicts := g.registry.verdicts }
  unfold plan
  rcases answer : g.visitNode g.settings.maxDepth [] none t { verdicts := g.registry.verdicts }
    with ⟨fault | _, d⟩ <;> rw [answer] at leads <;> exact g.staysRemember leads.verdicts leads.genuine

def opened (g : Graph) : Graph :=
  if g.isStarted then g
  else if g.settings.freezeOnFirstRealize then { g with isStarted := true, registry := g.registry.freeze }
  else { g with isStarted := true }

theorem openedAgain (started : g.isStarted = true) : g.opened = g := by
  rw [opened, if_pos started]

theorem openedStays (g : Graph) : g.Stays g.opened := by
  unfold opened
  split
  · exact g.staysRefl
  · split <;> exact ⟨rfl, rfl, rfl, rfl, rfl, g.registry.verdicts.withinRefl, id⟩

@[simp] theorem openedVerdicts (g : Graph) : g.opened.registry.verdicts = g.registry.verdicts := by
  unfold opened
  split
  · rfl
  · split <;> rfl

theorem openedFlags (g : Graph) : g.opened.isStarted = true ∧ g.opened.isFinalized = g.isFinalized := by
  unfold opened
  split
  · exact ⟨by assumption, rfl⟩
  · split <;> exact ⟨rfl, rfl⟩

theorem startOpened (g : Graph) : g.start =
    if g.settings.finalizeBeforeRealize && !g.isFinalized then g.opened.finalize else (.ok (), g.opened) := by
  rw [← g.openedStays.settings, ← g.openedFlags.2]
  rfl

theorem startPasses (exempt : g.settings.finalizeBeforeRealize = false ∨ g.isFinalized = true) :
    g.start = (.ok (), g.opened) := by
  rw [startOpened]
  rcases exempt with unchecked | finalized
  · simp [unchecked]
  · simp [finalized]

theorem startPassed {h : Graph} (opening : g.start = (.ok (), h)) :
    h.settings.finalizeBeforeRealize = false ∨ h.isFinalized = true := by
  rw [startOpened] at opening
  split at opening
  · have flag := finalizedFlag (g := g.opened) (by rw [opening])
    rw [opening] at flag
    exact .inr flag
  · rename_i exempt
    cases opening
    rw [g.openedStays.settings, g.openedFlags.2]
    simpa [Decidable.imp_iff_not_or] using exempt

theorem startStays (g : Graph) : g.Stays g.start.2 := by
  rw [startOpened]
  split
  · exact g.openedStays.trans g.opened.finalizeStays
  · exact g.openedStays

theorem startNoHarsher (passed : g.start.1 = .ok ()) :
    g.registry.verdicts.NoHarsher g.start.2.registry.verdicts := by
  rw [startOpened] at passed ⊢
  split at passed
  · rename_i checks
    have sources := checkSourcesNoHarsher (finalizeHalves.mp passed).1
    rw [openedVerdicts] at sources
    rw [if_pos checks, finalizeLeaves, openedVerdicts]
    exact sources
  · rename_i exempt
    rw [if_neg exempt, openedVerdicts]
    exact Verdicts.noHarsherRefl _

end Realization.Graph
