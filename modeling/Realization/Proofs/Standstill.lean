import Realization.Proofs.Peers

/-!
What is left of a request that the check has stopped. It has learnt verdicts and counts as the first request,
and where the first request closes the registry it has closed it. Nothing else shows later, whatever is done to
the graph afterwards.
-/
namespace Realization.Graph

variable {forms : List TypeRef} {rule : Rule} {g h : Graph} {t : TypeRef} {operations : List Operation}
  {fault : Fault}

theorem stoppedPeers (resting : g.Resting) (stopped : g.start.1 = .error fault) (apart : Apart forms)
    (closed : g.settings.freezeOnFirstRealize = true → g.registry.isFrozen = true)
    (formed : ∀ t ∈ g.subjects, t ∈ forms) (inside : ∀ m ∈ g.registry.mentions, m ∈ forms) (t : TypeRef) :
    Peers forms g.registry.verdicts g (g.realize t).2 := by
  have itself : Peers forms g.registry.verdicts g g :=
    ⟨rfl, rfl, rfl, rfl, rfl, fun _ _ => rfl, fun _ _ => rfl,
      fun t n found => formed _ (List.mem_map_of_mem (List.mem_of_find?_eq_some found)), inside, closed⟩
  obtain ⟨_, _, answer⟩ := startStopped stopped
  have left : (g.realize t).2 =
      { g.withVerdicts (g.checkSources g.subjects g.registry.verdicts).2 with isStarted := true } := by
    rw [realizeStopped stopped, answer, finalizeLeaves, ← answer, stopped, g.openedStays.matches.checkSources,
      openedClosed closed]
    simp [withVerdicts, Except.isOk, Except.toBool, subjects]
  have learnt := checkSourcesAlike (itself.kin apart resting.coherent.sound.indexed) g formed
    itself.remembers itself.remembers
  rw [left]
  exact { itself.remember itself.remembers learnt.2.1 with }

theorem registerFrozen (frozen : g.registry.isFrozen = true) (rule : Rule) : g.register rule =
    (.error (if g.hasStarted rule.subject then .alreadyRealized rule.subject rule.locator
      else .frozen rule.locator), g) := by
  unfold register
  split
  · rfl
  · simp [Registry.register, Registry.checkOpen, frozen]

theorem openedFrozen (frozen : g.registry.isFrozen = true ∨
      g.settings.freezeOnFirstRealize = true ∧ g.isStarted = false) : g.opened.registry.isFrozen = true := by
  unfold opened
  rcases frozen with frozen | ⟨freezes, fresh⟩
  · split
    · exact frozen
    · split
      · rfl
      · exact frozen
  · simp [freezes, fresh, Registry.freeze]

theorem realizeFrozen (resting : g.Resting) (frozen : g.opened.registry.isFrozen = true) (t : TypeRef) :
    (g.realize t).2.registry.isFrozen = true := by
  have started : g.start.2.registry.isFrozen = true := by
    rw [startOpened]
    split
    · rw [finalizeLeaves]
      exact frozen
    · exact frozen
  rcases realizeLeaves resting t with left | ⟨_, work⟩
  · rw [left]
    exact started
  · rw [work.grows.registry]
    exact started

theorem performFrozen (resting : g.Resting) (frozen : g.registry.isFrozen = true) (operation : Operation) :
    (g.perform operation).registry.isFrozen = true := by
  have requests : ∀ (h : Graph) t, h.Resting ∧ h.registry.isFrozen = true →
      (h.realize t).2.Resting ∧ (h.realize t).2.registry.isFrozen = true := fun h t kept =>
    ⟨realizeResting kept.1 t, realizeFrozen kept.1 (openedFrozen (.inl kept.2)) t⟩
  cases operation with
  | register rule =>
    show (g.register rule).2.registry.isFrozen = true
    rw [registerFrozen frozen]
    exact frozen
  | finalize =>
    show g.finalize.2.registry.isFrozen = true
    rw [finalizeLeaves]
    exact frozen
  | plan t =>
    obtain ⟨_, d, _, answer⟩ := g.planRun t
    show (g.plan t).2.registry.isFrozen = true
    rw [answer]
    exact frozen
  | realize t => exact (requests g t ⟨resting, frozen⟩).2
  | realizeAll => exact (realizeEachKeeps requests g.subjects ⟨resting, frozen⟩).2

theorem runFrozen (resting : g.Resting) (frozen : g.registry.isFrozen = true) :
    (g.run operations).registry.isFrozen = true := by
  induction operations generalizing g with
  | nil => exact frozen
  | cons operation rest ih =>
    exact ih (performResting resting operation) (performFrozen resting frozen operation)

@[simp] theorem registerStarted (g : Graph) (rule : Rule) : (g.register rule).2.isStarted = g.isStarted := by
  unfold register
  split
  · rfl
  · split
    · rfl
    · exact (growsTracks _ _).started

def Closing (g : Graph) : Prop :=
  g.settings.freezeOnFirstRealize = true → g.isStarted = true → g.registry.isFrozen = true

theorem Reachable.closing (reachable : g.Reachable) : g.Closing := by
  refine reachable.keeps ?fresh ?performs
  case fresh =>
    intro registry settings _ _ started
    rw [ofRegistry, (growsTracks _ _).started] at started
    contradiction
  case performs =>
    intro h operation single reached closing freezes started
    rw [(performAges reached.resting operation).settings] at freezes
    cases before : h.isStarted with
    | true => exact performFrozen reached.resting (closing freezes before) operation
    | false =>
      -- only a request starts the graph
      cases operation with
      | register rule => exact absurd ((h.registerStarted rule).symm.trans started) (by simp [before])
      | finalize => exact absurd (h.finalizeFlags.1.symm.trans started) (by simp [before])
      | plan t =>
        obtain ⟨_, d, _, answer⟩ := h.planRun t
        have started : (h.plan t).2.isStarted = true := started
        rw [answer] at started
        exact absurd started (by simp [withVerdicts, before])
      | realize t => exact realizeFrozen reached.resting (openedFrozen (.inr ⟨freezes, before⟩)) t
      | realizeAll => contradiction

theorem stoppedRequest (reachable : g.Reachable) (stopped : g.start.1 = .error fault) (t : TypeRef) :
    (g.realize t).1 = .error fault ∧ (g.realize t).2.journal = g.journal ∧ (g.realize t).2.nodes = g.nodes ∧
    ((g.settings.freezeOnFirstRealize = true → g.registry.isFrozen = true) →
      ∀ (operations : List Operation) (rule : Rule),
        (((g.realize t).2.run operations).register rule).1 = ((g.run operations).register rule).1 ∨
          Collides (g.subjects ++ g.registry.mentions ++ operations.flatMap Operation.types ++ rule.mentions)) ∧
    (g.settings.freezeOnFirstRealize = true → ∀ (operations : List Operation) (rule : Rule),
      (((g.realize t).2.run operations).register rule).1 =
        .error (if ((g.realize t).2.run operations).hasStarted rule.subject then
          .alreadyRealized rule.subject rule.locator else .frozen rule.locator)) := by
  have resting := reachable.resting
  have stays := g.startStays
  have left := realizeStopped stopped t
  refine ⟨by rw [left], by rw [left, stays.journal], by rw [left, stays.nodes],
    fun closed operations rule => ?alike, fun freezes operations rule => ?closes⟩
  case alike =>
    refine (apartOr _).imp_left fun apart => ?_
    have peers := stoppedPeers resting stopped apart closed (by simp +contextual) (by simp +contextual) t
    obtain ⟨peers', reached, reached'⟩ := peers.run apart reachable (reachable.perform (.realize t))
      operations (by simp +contextual)
    exact (peers'.register apart reached.resting.coherent.sound reached.orderly reached'.orderly
      (by simp +contextual)).1
  case closes =>
    have frozen : g.opened.registry.isFrozen = true := by
      refine openedFrozen ?_
      cases started : g.isStarted with
      | true => exact .inl (reachable.closing freezes started)
      | false => exact .inr ⟨freezes, rfl⟩
    rw [registerFrozen (runFrozen (realizeResting resting t) (realizeFrozen resting frozen t))]

theorem stoppedRequestLate :
    let g := strictSession [.register lateRule]
    g.start.1 = .error (.noCreator (.plain "Missing") (some (.plain "Report")) (some "late")) ∧
      (((g.realize (.plain "Report")).2.run [.realizeAll]).register (unitRule "missing" "Missing" [])).1 =
        .ok 1 := by
  intro g
  have stopped : g.start.1 = .error (.noCreator (.plain "Missing") (some (.plain "Report")) (some "late")) := by
    decide +kernel
  have alike := (stoppedRequest ⟨{}, _, _, ⟨[], [], rfl⟩, rfl⟩ stopped (.plain "Report")).2.2.2.1
    (by decide +kernel) [.realizeAll] (unitRule "missing" "Missing" [])
  have plain : ∀ t ∈ g.subjects ++ g.registry.mentions ++ [Operation.realizeAll].flatMap Operation.types ++
      (unitRule "missing" "Missing" []).mentions, t.isManaged = false := by decide +kernel
  refine ⟨stopped, (alike.resolve_right ?_).trans (by decide +kernel)⟩
  rintro ⟨a, _, member, _⟩
  cases plain _ member

theorem stoppedRequestCloses :
    let g := (ofRegistry {} { freezeOnFirstRealize := true, finalizeBeforeRealize := true }).run
      [.register lateRule]
    g.Reachable ∧
      g.start.1 = .error (.noCreator (.plain "Missing") (some (.plain "Report")) (some "late")) ∧
        (g.register (unitRule "missing" "Missing" [])).1 = .ok 1 ∧
          ((g.realize (.plain "Report")).2.register (unitRule "missing" "Missing" [])).1 =
            .error (.frozen "missing") :=
  ⟨⟨{}, _, _, ⟨[], [], rfl⟩, rfl⟩, by decide +kernel⟩

end Realization.Graph
