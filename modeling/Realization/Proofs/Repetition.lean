import Realization.Proofs.Lifetime
import Realization.Proofs.StaticCheck

/-!
Repeated requests. A type that was realized is never realized again: its element stays and no body is
started for it. A later request finds the element unless it is stopped before it gets that far, by the
check of all rules that settings may put before every request.
-/
namespace Realization.Graph

variable {g h : Graph} {t : TypeRef} {e : Element}

theorem realizeStores (resting : g.Resting) (answer : (g.realize t).1 = .ok e) :
    (g.realize t).2.stored t = some e := by
  have rested := g.startStays.resting resting
  rcases opening : g.start with ⟨fault | _, h⟩
  · unfold realize at answer
    rw [opening] at answer
    contradiction
  · rw [opening] at rested
    obtain ⟨_, h', _, ⟨e', _, same, found⟩ | ⟨fault, _, same⟩⟩ :=
      realizeRun opening rested.coherent.sound.indexed t <;> rw [same] at answer ⊢ <;> cases answer
    exact found

theorem realizeStored (indexed : h.registry.Indexed) (found : h.stored t = some e) (room : Nat) :
    realizeNode room [] none t h = (.ok (), h.track (h.resolve t)) ∧
      (h.track (h.resolve t)).element t = .ok e := by
  have here : h.standing (h.resolve t) = .realized e :=
    (standingResolve indexed t).trans (storedIff.mp found)
  refine ⟨?_, storedElement ((growsTrack h _).stored found)⟩
  rw [realizeNodeTurns, here]

theorem realizeOpened (resting : g.Resting) (started : g.isStarted = true) (found : g.stored t = some e) :
    (g.realize t).2.journal = g.journal ∧
    ((g.realize t).1 = .ok e ∨
      g.settings.finalizeBeforeRealize = true ∧ g.isFinalized = false ∧
        ∃ fault, g.finalize.1 = .error fault ∧ (g.realize t).1 = .error fault) := by
  have answer := g.startOpened
  rw [openedAgain started] at answer
  have passed : ∀ k : Graph, g.Stays k → g.start = (.ok (), k) →
      (g.realize t).2.journal = g.journal ∧ (g.realize t).1 = .ok e := by
    intro k stays opening
    have there : k.stored t = some e := by rwa [stored, stays.standing]
    obtain ⟨entered, held⟩ :=
      realizeStored (stays.resting resting).coherent.sound.indexed there k.settings.maxDepth
    unfold realize
    rw [opening]
    dsimp only
    rw [entered]
    exact ⟨stays.journal, held⟩
  by_cases gate : (g.settings.finalizeBeforeRealize && !g.isFinalized) = true
  · rw [if_pos gate] at answer
    have stays := g.finalizeStays
    rcases checked : g.finalize with ⟨fault | _, k⟩ <;> rw [checked] at answer stays
    · simp only [Bool.and_eq_true, Bool.not_eq_true'] at gate
      unfold realize
      rw [answer]
      exact ⟨stays.journal, .inr ⟨gate.1, gate.2, fault, rfl, rfl⟩⟩
    · obtain ⟨quiet, held⟩ := passed k stays answer
      exact ⟨quiet, .inl held⟩
  · rw [if_neg gate] at answer
    obtain ⟨quiet, held⟩ := passed g g.staysRefl answer
    exact ⟨quiet, .inl held⟩

theorem realizeChecked (resting : g.Resting) (strict : g.settings.finalizeBeforeRealize = true)
    (answer : (g.realize t).1 = .ok e) : (g.realize t).2.isFinalized = true := by
  have stays := g.startStays
  rcases opening : g.start with ⟨fault | _, k⟩ <;> rw [opening] at stays
  · unfold realize at answer
    rw [opening] at answer
    contradiction
  · obtain ⟨_, work⟩ := realizeWork opening (stays.resting resting).coherent.sound.indexed t
    rcases startPassed opening with unchecked | finalized
    · rw [stays.settings, strict] at unchecked
      contradiction
    · exact work.grows.finalized.trans finalized

theorem realizeAgain (reachable : g.Reachable) (answer : (g.realize t).1 = .ok e)
    (operations : List Operation) (later : h = (g.realize t).2.run operations) :
    (h.realize t).2.journal = h.journal ∧ (h.realize t).2.progress? t = some (.realized e) ∧
    ((h.realize t).1 = .ok e ∨
      g.settings.finalizeBeforeRealize = true ∧
        (g.realize t).2.registry.rules.length < h.registry.rules.length ∧
        ∃ fault, h.finalize.1 = .error fault ∧ (h.realize t).1 = .error fault) := by
  have resting := reachable.resting
  obtain ⟨first, started⟩ := realizeAges resting t
  obtain ⟨ages, rested⟩ := runAges (realizeResting resting t) operations
  rw [← later] at ages rested
  have found : h.stored t = some e := ages.stored (realizeStores resting answer)
  obtain ⟨quiet, ending⟩ := realizeOpened rested (ages.started started) found
  have kept := (realizeAges rested t).1.stored found
  refine ⟨quiet, standingProgress (storedIff.mp kept) (by simp), ending.imp_right ?_⟩
  rintro ⟨strict, unchecked, failed⟩
  rw [ages.settings, first.settings] at strict
  refine ⟨strict, ?_, failed⟩
  rcases ages.checked (realizeChecked resting strict answer) with checked | more
  · rw [unchecked] at checked
    contradiction
  · exact more

def strictSession (operations : List Operation) : Graph :=
  (ofRegistry {} { finalizeBeforeRealize := true }).run operations

def card : TypeRef := .managed (Declaration.interface "Card")

def blankCard : Element := .managed (.blank ⟨"Card", (Declaration.interface "Card").fingerprint, []⟩)

def lateRule : Rule := ⟨"late", .plain "Report", [.plain "Missing"], .producer fun _ => ⟨[], .ok .unit⟩⟩

theorem realizeAgainCard :
    ((strictSession []).realize card).1 = .ok blankCard ∧
      ((strictSession [.realize card, .register lateRule]).realize card).2.progress? card =
        some (.realized blankCard) := by
  have answer : ((strictSession []).realize card).1 = .ok blankCard := by decide +kernel
  have reachable : (strictSession []).Reachable := ⟨{}, _, _, ⟨[], [], rfl⟩, rfl⟩
  exact ⟨answer, (realizeAgain reachable answer [.register lateRule] rfl).2.1⟩

theorem lateRuleStopsRepetition :
    ((strictSession []).realize card).1 = .ok blankCard ∧
      ((strictSession [.realize card, .register lateRule]).realize card).1 =
        .error (.noCreator (.plain "Missing") (some (.plain "Report")) (some "late")) := by
  decide +kernel

end Realization.Graph
