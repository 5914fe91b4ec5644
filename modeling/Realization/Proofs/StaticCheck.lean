import Mathlib.Data.List.Induction
import Realization.Proofs.CheckedPlans

/-!
The static check is exact. Where it passes, planning succeeds for every known type, and what is realized after it
can fail only where a rule fails.
-/
namespace Realization.Graph

variable {g g' h : Graph} {t u : TypeRef} {stack : List TypeRef} {via : Option Locator}
  {limit : Nat} {duties : List Duty} {own : Option Element} {result : Except Fault (Option Element)}

def Fair (g g' : Graph) : Except Fault (Option Element) → Prop
  | .ok _ => ∀ u, g'.standing u = .failed → g.standing u = .failed
  | .error fault => (∃ subject locator failure, fault = .ruleFailed subject locator failure) ∨
      ∃ u, fault = .previouslyFailed u ∧ g.standing u = .failed

theorem Fair.before {g₁ : Graph} (fair : Fair g₁ g' result)
    (kept : ∀ u, g₁.standing u = .failed → g.standing u = .failed) : Fair g g' result := by
  cases result with
  | ok own => exact fun u failed => kept u (fair u failed)
  | error fault =>
    rcases fair with broke | ⟨u, same, failed⟩
    · exact .inl broke
    · exact .inr ⟨u, same, kept u failed⟩

theorem Checked.step (checked : g.Checked) (registry : g'.registry.rules = g.registry.rules)
    (entries : g'.registry.entries = g.registry.entries) (names : g'.names = g.names)
    (form : ∀ t n, g.node? t = some n →
      ∃ n', g'.node? t = some n' ∧ (n.subject.isManaged = true → n'.subject = n.subject))
    (fresh : ∀ t, g'.standing t = .unrealized → g.standing t = .unrealized) : g'.Checked where
  supplied t known unrealized missing := by
    rw [names] at known
    have same := Registry.creatorKept registry entries t
    obtain ⟨n, found, managed⟩ := checked.supplied t known (fresh t unrealized) (same.symm.trans missing)
    obtain ⟨n', found', kept⟩ := form t n found
    exact ⟨n', found', by rw [kept managed]; exact managed⟩
  acyclic := by
    unfold Registry.Acyclic
    rw [Registry.needsKept registry]
    exact checked.acyclic

theorem Checked.grow (checked : g.Checked) (grows : g.Grows g') (names : g'.names = g.names) :
    g'.Checked := by
  exact checked.step grows.rules grows.entries names grows.form fun t fresh => (grows.standing t).fresh fresh

theorem Checked.stays (checked : g.Checked) (stays : g.Stays h) : h.Checked :=
  checked.step stays.rules stays.entries stays.names
    (fun t n found => ⟨n, (stays.node t).trans found, fun _ => rfl⟩)
    fun t fresh => (stays.standing t).symm.trans fresh

theorem Checked.enter (checked : g.Checked) (known : t.name ∈ g.names) : (g.enter t).Checked := by
  refine checked.step rfl rfl (enteredNames known) (fun _ _ found => enterForm g t found) fun u fresh => ?_
  rw [standingEnter] at fresh
  split at fresh
  · contradiction
  · exact fresh

theorem enterFailed (failed : (g.enter t).standing u = .failed) : g.standing u = .failed := by
  rw [standingEnter] at failed
  split at failed
  · contradiction
  · exact failed

theorem Checked.opened (checked : g.Checked) (underway : Underway limit stack g)
    (knows : g.Knows (.input via t :: duties)) (asks : g.registry.Asks stack via t)
    (fresh : g.standing (g.resolve t) = .unrealized) :
    Underway limit (stack ++ [g.resolve t]) (g.enter (g.resolve t)) ∧
      (g.enter (g.resolve t)).Knows (g.registry.duties stack via (g.resolve t)) ∧
      (g.enter (g.resolve t)).Assured (g.registry.duties stack via (g.resolve t)) ∧
      (g.enter (g.resolve t)).Checked := by
  have known := knows via t List.mem_cons_self
  have here := (standingResolve underway.coherent.sound.indexed t).symm.trans fresh
  obtain ⟨entered, inside⟩ := underway.opened knows asks fresh
  have assured := underway.coherent.assured here (checked.supplied t known here) stack via
  exact ⟨entered, inside, assured.kept (Verdicts.withinRefl _), checked.enter (underway.resolveKnown knows)⟩

theorem Work.fair (work : Work limit stack duties own g result g') (underway : Underway limit stack g)
    (knows : g.Knows duties) (assured : g.Assured duties) (checked : g.Checked) :
    Fair g g' result := by
  induction work with
  | done => exact fun u failed => failed
  | synthesized made _ ih =>
    have grows := growsContract made
    exact ih (underway.remember made) (knows.rest rfl) (assured.rest.kept grows.verdicts)
      (checked.grow grows rfl)
  | unsynthesized made =>
    obtain ⟨d, rfl, accepts⟩ := assured.accepted _ List.mem_cons_self
    obtain ⟨contract, answer⟩ := contractForAccepted accepts
    rw [answer] at made
    cases made
  | lacking => exact absurd List.mem_cons_self (assured.sourced _ _ _)
  | ran _ _ _ _ _ _ ih =>
    exact ih (underway.ran _ _ _) (knows.rest rfl) (assured.rest.kept (growsRecord _ _).verdicts)
      (checked.grow (growsRecord _ _) rfl)
  | broke => exact .inl ⟨_, _, _, rfl⟩
  | @present _ _ t _ _ g _ _ _ _ settled _ ih =>
    have known := underway.resolveKnown knows
    have names := trackKnownNames known
    refine (ih (underway.track (by simp [settled]) known) (knows.rest names) (assured.rest.kept ?_)
      (checked.grow (growsTrack _ _) names)).before fun u failed => ?_
    · exact (growsTrack _ _).verdicts
    · simpa using failed
  | failed _ settled => exact .inr ⟨_, rfl, settled⟩
  | cyclic asks busy => exact absurd (underway.cycle asks busy) (checked.acyclic _)
  | deep _ fresh full => exact absurd (underway.free knows fresh) (Nat.not_lt.mpr full)
  | @built stack via t _ _ g e g₁ _ _ asks fresh free inner _ ih ih' =>
    obtain ⟨entered, inside, start, further⟩ := checked.opened underway knows asks fresh
    have fair := ih entered inside start further
    have grows := inner.grows.settle fresh (.inr ⟨e, rfl⟩)
    obtain ⟨after, names⟩ := underway.built knows asks fresh free inner
    refine (ih' after (knows.rest names) (assured.rest.kept grows.verdicts)
      (checked.grow grows names)).before fun u failed => ?_
    rw [standingSettle inner.grows] at failed
    split at failed
    · contradiction
    · exact enterFailed (fair u failed)
  | @unbuilt stack via t _ _ g fault g₁ asks fresh free inner ih =>
    obtain ⟨entered, inside, start, further⟩ := checked.opened underway knows asks fresh
    rcases ih entered inside start further with broke | ⟨u, same, failed⟩
    · exact .inl broke
    · exact .inr ⟨u, same, enterFailed failed⟩

structure Cleared (h : Graph) : Prop where
  resting : h.Resting
  checked : h.Checked
  finalized : h.isFinalized = true
  small : h.nodes.length ≤ h.settings.maxDepth

theorem Resting.underway (resting : h.Resting) (small : h.nodes.length ≤ h.settings.maxDepth) :
    Underway h.settings.maxDepth [] h where
  coherent := resting.coherent
  bounded := rfl
  small := small
  chained := chainedNil h
  busy t := by simp [resting.quiet t]

theorem Cleared.opened (cleared : h.Cleared) : h.opened.Cleared where
  resting := h.openedStays.resting cleared.resting
  checked := cleared.checked.stays h.openedStays
  finalized := h.openedFlags.2.trans cleared.finalized
  small := by
    rw [h.openedStays.nodes, h.openedStays.settings]
    exact cleared.small

theorem Cleared.realize (cleared : h.Cleared) (known : t.name ∈ h.names) :
    (h.realize t).2.Cleared ∧ (h.realize t).2.names = h.names ∧
      ((∃ e, (h.realize t).1 = .ok e) →
        ∀ u, (h.realize t).2.standing u = .failed → h.standing u = .failed) ∧
      ∀ fault, (h.realize t).1 = .error fault →
        (∃ subject locator failure, fault = .ruleFailed subject locator failure) ∨
          ∃ u, fault = .previouslyFailed u ∧ h.standing u = .failed := by
  have opening := startPasses (.inr cleared.finalized)
  have stays := h.openedStays
  have names := stays.names
  have ⟨resting, checked, finalized, small⟩ := cleared.opened
  have underway := resting.underway small
  have knows : h.opened.Knows [.input none t] := by
    intro via u member
    cases List.mem_singleton.mp member
    rw [names]
    exact known
  have assured : h.opened.Assured [.input none t] := ⟨by simp, by simp⟩
  obtain ⟨result, h₂, work, ending⟩ := realizeRun opening resting.coherent.sound.indexed t
  have fair := work.fair underway knows assured checked
  obtain ⟨after, kept⟩ := work.underway underway knows
  have done : h₂.Cleared := ⟨work.resting resting rfl, checked.grow work.grows kept,
    work.grows.finalized.trans finalized, by
      rw [work.grows.settings]
      exact after.small⟩
  rcases ending with ⟨e, rfl, answer, _⟩ | ⟨fault, rfl, answer⟩ <;> rw [answer]
  · exact ⟨done, kept.trans names, fun _ u failed => (stays.standing u).symm.trans (fair u failed),
      fun fault same => by contradiction⟩
  · refine ⟨done, kept.trans names, fun ⟨e, same⟩ => by contradiction, fun fault' same => ?_⟩
    cases same
    rcases fair with broke | ⟨u, same, failed⟩
    · exact .inl broke
    · exact .inr ⟨u, same, (stays.standing u).symm.trans failed⟩

def realizing (g : Graph) (ts : List TypeRef) : Graph := g.run (ts.map .realize)

theorem realizingSnoc (g : Graph) (ts : List TypeRef) (t : TypeRef) :
    g.realizing (ts ++ [t]) = ((g.realizing ts).realize t).2 := by
  simp [realizing, run, perform]

theorem Cleared.realizing (cleared : g.Cleared) (untouched : ∀ u, g.standing u ≠ .failed)
    {ts : List TypeRef} (known : ∀ t ∈ ts, t.name ∈ g.names) :
    (g.realizing ts).Cleared ∧ (g.realizing ts).names = g.names ∧
      ∀ u, (g.realizing ts).standing u = .failed →
        ∃ before t after subject locator failure, ts = before ++ t :: after ∧
          ((g.realizing before).realize t).1 = .error (.ruleFailed subject locator failure) := by
  induction ts using List.reverseRecOn with
  | nil => exact ⟨cleared, rfl, fun u failed => absurd failed (untouched u)⟩
  | append_singleton ts t ih =>
    obtain ⟨before, names, origin⟩ := ih fun u member => known u (List.mem_append_left _ member)
    have here : t.name ∈ (g.realizing ts).names := by
      rw [names]
      exact known t (by simp)
    obtain ⟨after, kept, good, bad⟩ := before.realize here
    rw [realizingSnoc]
    refine ⟨after, kept.trans names, fun u failed => ?_⟩
    have earlier : ∀ u, (g.realizing ts).standing u = .failed →
        ∃ before t' after subject locator failure, ts ++ [t] = before ++ t' :: after ∧
          ((g.realizing before).realize t').1 = .error (.ruleFailed subject locator failure) := by
      intro u failed
      obtain ⟨before, t', after, subject, locator, failure, split, answer⟩ := origin u failed
      exact ⟨before, t', after ++ [t], subject, locator, failure, by simp [split], answer⟩
    cases answer : ((g.realizing ts).realize t).1 with
    | ok e => exact earlier u (good ⟨e, answer⟩ u failed)
    | error fault =>
      rcases bad fault answer with ⟨subject, locator, failure, rfl⟩ | ⟨u, _, failed⟩
      · exact ⟨ts, t, [], subject, locator, failure, rfl, answer⟩
      · exact earlier u failed

theorem freshStanding (fresh : ∀ n ∈ g.nodes, n.progress = .unrealized) (t : TypeRef) : g.standing t = .unrealized := by
  unfold standing progress?
  cases found : g.node? t with
  | none => rfl
  | some n => exact fresh n (List.mem_of_find?_eq_some found)

theorem finalizeForetells (reachable : g.Reachable) (fresh : ∀ n ∈ g.nodes, n.progress = .unrealized)
    (small : g.nodes.length ≤ g.settings.maxDepth) :
    (g.finalize.1 = .ok () ↔ ∀ t ∈ g.subjects, ∃ steps, (g.plan t).1 = .ok steps) ∧
    (g.finalize.1 = .ok () → ∀ ts t, (∀ u ∈ ts ++ [t], (g.node? u).isSome = true) →
      ∀ fault, ((g.finalize.2.realizing ts).realize t).1 = .error fault →
        (∃ subject locator failure, fault = .ruleFailed subject locator failure) ∨
        (∃ subject, fault = .previouslyFailed subject) ∧
          ∃ before u after subject locator failure, ts = before ++ u :: after ∧
            ((g.finalize.2.realizing before).realize u).1 =
              .error (.ruleFailed subject locator failure)) := by
  have resting := reachable.resting
  have coherent := resting.coherent
  have standing := freshStanding fresh
  have exact := finalizeExact coherent standing
  refine ⟨exact.trans (checkedPlans coherent standing small), fun passed ts t known fault failed => ?_⟩
  have stays := g.finalizeStays
  have names := stays.names
  have cleared : g.finalize.2.Cleared :=
    ⟨stays.resting resting, (exact.mp passed).stays stays, finalizedFlag passed, by
      rw [stays.nodes, stays.settings]
      exact small⟩
  have untouched : ∀ u, g.finalize.2.standing u ≠ .failed := by
    intro u
    rw [stays.standing, standing]
    simp
  have listed : ∀ u ∈ ts ++ [t], u.name ∈ g.finalize.2.names := by
    intro u member
    rw [names]
    exact knownName.mp (known u member)
  obtain ⟨before, kept, origin⟩ := cleared.realizing untouched fun u member =>
    listed u (List.mem_append_left _ member)
  have here : t.name ∈ (g.finalize.2.realizing ts).names := by
    rw [kept]
    exact listed t (by simp)
  rcases (before.realize here).2.2.2 fault failed with broke | ⟨u, same, gone⟩
  · exact .inl broke
  · exact .inr ⟨⟨u, same⟩, origin u gone⟩

theorem finalizeForetellsList :
    (smallSession []).finalize.1 = .ok () ∧
      ∀ fault, (((smallSession []).finalize.2.realizing [.plain "Text"]).realize (.plain "List")).1 =
          .error fault →
        (∃ subject locator failure, fault = .ruleFailed subject locator failure) ∨
        (∃ subject, fault = .previouslyFailed subject) ∧
          ∃ before u after subject locator failure, [.plain "Text"] = before ++ u :: after ∧
            (((smallSession []).finalize.2.realizing before).realize u).1 =
              .error (.ruleFailed subject locator failure) := by
  have fresh : ∀ n ∈ (smallSession []).nodes, n.progress = .unrealized := by decide +kernel
  have small : (smallSession []).nodes.length ≤ (smallSession []).settings.maxDepth := by decide +kernel
  obtain ⟨exact, after⟩ := finalizeForetells (smallSessionReachable []) fresh small
  have planned : ∀ t ∈ (smallSession []).subjects, ((smallSession []).plan t).1.isOk = true := by
    decide +kernel
  have passed : (smallSession []).finalize.1 = .ok () := by
    refine exact.mpr fun t member => ?_
    have answer := planned t member
    cases plan : ((smallSession []).plan t).1 with
    | error fault =>
      rw [plan] at answer
      contradiction
    | ok steps => exact ⟨steps, rfl⟩
  exact ⟨passed, after passed [.plain "Text"] (.plain "List") (by decide +kernel)⟩

end Realization.Graph
