import Mathlib.Data.List.Forall2
import Realization.Proofs.Confluence
import Realization.Proofs.Integrity
import Realization.Proofs.Recheck
import Realization.Proofs.Trails

/-!
What a request for all known types reports. Each of them is realized or fails, and one that fails needs a
type that had failed before or that a reported fault names. Where the check does not get in the way, each
fault stands for a type of its own that failed; a check that does is reported for every known type.
-/
namespace Realization.Graph

open Relation

variable {limit : Nat} {stack : List TypeRef} {own : Option Element} {g h g' : Graph} {s t u : TypeRef}
  {via : Option Locator} {m : Moment} {fault : Fault} {ts : List TypeRef}

theorem Stacked.reaches (stacked : Stacked stack g) (asks : g.registry.Asks stack via t) (member : s ∈ stack) :
    ReflTransGen g.registry.Needs s.name t.name :=
  (asks.reached (fun _ => stacked.leads member) member).to_reflTransGen

theorem chainToHead (under : ∃ x ∈ stack, x.name = s.name) :
    ∃ u, (chainTo stack s).head? = some u ∧ u.name = s.name := by
  obtain ⟨_, x, rest, _, named, told⟩ := chainToSplit under
  exact ⟨x, by rw [told]; rfl, named⟩

theorem Moment.Raises.blames (raises : m.Raises limit fault) (stacked : Stacked m.stack m.graph)
    (owner : ∀ s, m.duty.owner? = some s → m.stack.getLast? = some s)
    (managed : ∀ s, m.duty = .synthesize s → s.isManaged = true) :
    ∃ u, fault.subject? = some u ∧ ∀ s ∈ m.stack, ReflTransGen m.graph.registry.Needs s.name u.name := by
  cases raises with
  | @unsynthesized _ s _ g _ _ answer =>
    obtain ⟨violation, rfl⟩ := contractForFault (managed s rfl) answer
    exact ⟨s, rfl, fun _ member => stacked.leads member (owner s rfl)⟩
  | @lacking _ s => exact ⟨s, rfl, fun _ member => stacked.leads member (owner s rfl)⟩
  | @broke _ s => exact ⟨s, rfl, fun _ member => stacked.leads member (owner s rfl)⟩
  | @failed _ _ t _ g asks | @deep _ _ t _ g asks =>
    refine ⟨g.resolve t, rfl, fun _ member => ?_⟩
    rw [resolveName stacked.indexed]
    exact stacked.reaches asks member
  | @cyclic _ _ t _ g asks busy =>
    obtain ⟨u, first, named⟩ := chainToHead ((stacked.busy (g.resolve t)).mp busy)
    refine ⟨u, first, fun _ member => ?_⟩
    rw [named, resolveName stacked.indexed]
    exact stacked.reaches asks member

theorem Work.blames (work : Work limit [] [.input none t] own g (.error fault) g') (resting : g.Resting) :
    ∃ u, fault.subject? = some u ∧ (∀ v, fault = .previouslyFailed v → g.standing v = .failed) ∧
      ∀ s, g'.standing s = .failed → g.standing s = .failed ∨ ReflTransGen g.registry.Needs s.name u.name := by
  obtain ⟨m, more, comes, raises, whole, failed⟩ := work.raises
  have founded := resting.coherent.founded
  obtain ⟨u, subject, leads⟩ := raises.blames (comes.stacked resting.stacked)
    (fun s owner => comes.owner founded.indexed (by simp [Duty.owner?]) owner)
    fun s duty => comes.managed founded duty
  rw [Registry.needsKept comes.onward.rules] at leads
  refine ⟨u, subject, fun v same => ?_, fun s broken => ?_⟩
  · subst same
    cases raises with
    | failed asks settled => exact (comes.unfailed _).mp settled
    | @unsynthesized _ s _ _ _ _ answer =>
      obtain ⟨violation, other⟩ := contractForFault (comes.managed founded rfl) answer
      contradiction
  · rcases (failed s).mp broken with before | ⟨x, member, named⟩
    · exact .inl before
    · rw [← named]
      exact .inr (leads x (by rw [whole]; exact member))

theorem realizeBlames (resting : g.Resting) (opening : g.start = (.ok (), h))
    (broken : (g.realize t).2.standing s = .failed) :
    g.standing s = .failed ∨ ∃ fault u, (g.realize t).1 = .error fault ∧ fault.subject? = some u ∧
      (∀ v, fault = .previouslyFailed v → g.standing v = .failed) ∧
        ReflTransGen g.registry.Needs s.name u.name := by
  have stays := g.startStays
  rw [opening] at stays
  have rested := stays.resting resting
  obtain ⟨result, h', work, ⟨e, rfl, answer, _⟩ | ⟨fault, rfl, answer⟩⟩ :=
    realizeRun opening rested.coherent.sound.indexed t <;> rw [answer] at broken ⊢
  · rw [work.unfailed, stays.standing] at broken
    exact .inl broken
  · obtain ⟨u, subject, earlier, leads⟩ := work.blames rested
    rw [Registry.needsKept stays.rules] at leads
    simp only [stays.standing] at earlier leads
    exact (leads s broken).imp_right fun path => ⟨fault, u, rfl, subject, earlier, path⟩

def Accounted (g : Graph) (faults : List Fault) (t : TypeRef) : Prop :=
  ∃ u : TypeRef, ReflTransGen g.registry.Needs t.name u.name ∧
    (g.standing u = .failed ∨ ∃ fault ∈ faults, fault.subject? = some u)

theorem newsOr {α : Type} (fault : Fault) :
    (∃ v, fault = .previouslyFailed v) ∨ news (.error fault : Except Fault α) = [fault] := by
  cases fault <;> simp [news]

theorem realizeEachAccounted (resting : g.Resting) (unchecked : g.settings.finalizeBeforeRealize = false)
    (broken : (realizeEach ts g).2.standing s = .failed) : Accounted g (realizeEach ts g).1 s := by
  induction ts generalizing g s with
  | nil => exact ⟨s, .refl, .inl broken⟩
  | cons t rest ih =>
    have opening := startPasses (.inl unchecked)
    have onward := realizeOnward resting t
    -- what the first request leaves failed is accounted for by its own fault
    have first : ∀ x, (g.realize t).2.standing x = .failed → Accounted g (realizeEach (t :: rest) g).1 x := by
      intro x broken
      rcases realizeBlames resting opening broken with before | ⟨fault, u, answer, subject, earlier, path⟩
      · exact ⟨x, .refl, .inl before⟩
      · refine ⟨u, path, ?_⟩
        rw [realizeEachFaults, answer]
        rcases newsOr (α := Element) fault with ⟨v, same⟩ | reported
        · subst same
          cases subject
          exact .inl (earlier _ rfl)
        · rw [reported]
          exact .inr ⟨fault, List.mem_cons_self, subject⟩
    rw [realizeEachNext] at broken
    obtain ⟨u, path, ended⟩ := ih (realizeResting resting t) (by rw [onward.settings]; exact unchecked) broken
    rw [Registry.needsKept onward.rules] at path
    rcases ended with earlier | ⟨fault, member, subject⟩
    · obtain ⟨v, further, ended⟩ := first u earlier
      exact ⟨v, path.trans further, ended⟩
    · refine ⟨u, path, .inr ⟨fault, ?_, subject⟩⟩
      rw [realizeEachFaults]
      exact List.mem_append_right _ member

theorem realizeNames (resting : g.Resting) (known : t.name ∈ g.names) : (g.realize t).2.names = g.names := by
  have stays := g.startStays
  have rested := stays.resting resting
  rcases realizeLeaves resting t with left | ⟨_, work⟩
  · rw [left]
    exact stays.names
  · have here : (g.start.2.resolve t).name ∈ g.start.2.names := by
      rw [resolveName rested.coherent.sound.indexed, stays.names]
      exact known
    calc
      (g.realize t).2.names = (g.start.2.track (g.start.2.resolve t)).names :=
        work.requestNames rested.coherent.sound.indexed rested.coherent.tracked
      _ = g.start.2.names := trackKnownNames here
      _ = g.names := stays.names

theorem realizeSettles (resting : g.Resting) (opening : g.start = (.ok (), h)) (t : TypeRef) :
    (g.realize t).2.Settled t := by
  have rested := g.startStays.resting resting
  rw [opening] at rested
  obtain ⟨_, work⟩ := realizeWork opening rested.coherent.sound.indexed t
  exact work.settles rested rfl

theorem Onward.stays (onward : g.Onward g') (settled : g.Settled t) : g'.Settled t := by
  have started : g.standing t ≠ .unrealized := by
    rcases settled with ⟨e, held⟩ | failed
    · simp [held]
    · simp [failed]
  unfold Settled
  rw [onward.settled t started]
  exact settled

theorem realizeEachSettles (resting : g.Resting) (unchecked : g.settings.finalizeBeforeRealize = false)
    (known : ∀ t ∈ ts, t.name ∈ g.names) :
    (realizeEach ts g).2.names = g.names ∧ g.Onward (realizeEach ts g).2 ∧
      ∀ t ∈ ts, (realizeEach ts g).2.Settled t := by
  induction ts generalizing g with
  | nil => exact ⟨rfl, (growsRefl g).onward, by simp⟩
  | cons t rest ih =>
    have opening := startPasses (.inl unchecked)
    have onward := realizeOnward resting t
    have names := realizeNames resting (known t List.mem_cons_self)
    obtain ⟨names', onward', settled⟩ := ih (realizeResting resting t)
      (by rw [onward.settings]; exact unchecked)
      fun u member => by rw [names]; exact known u (List.mem_cons_of_mem _ member)
    rw [realizeEachNext]
    refine ⟨names'.trans names, onward.trans onward', fun u member => ?_⟩
    rcases List.mem_cons.mp member with rfl | member
    · exact onward'.stays (realizeSettles resting opening u)
    · exact settled u member

theorem Resting.storedNeeds (resting : g.Resting) {e : Element} (found : g.stored t = some e)
    (path : ReflTransGen g.registry.Needs t.name u.name) : ∃ e', g.stored u = some e' := by
  generalize named : u.name = a at path
  induction path generalizing u with
  | refl => exact ⟨e, by rwa [stored, standingCongr named]⟩
  | @tail b _ _ step ih =>
    obtain ⟨e', held⟩ := ih (u := .plain b) rfl
    obtain ⟨i, required, rfl⟩ := step
    obtain ⟨x, known⟩ := prescribedInputs resting.coherent.sound (resting.coherent.truthful _ _ held) i required
    exact ⟨x, by rwa [stored, standingCongr named]⟩

theorem failuresAccounted (reachable : g.Reachable) (unchecked : g.settings.finalizeBeforeRealize = false) :
    g.realizeAll.2.names = g.names ∧
    (∀ n ∈ g.realizeAll.2.nodes, n.progress = .failed ∨ ∃ e, n.progress = .realized e) ∧
    (∀ t, g.realizeAll.2.standing t = .failed → Accounted g g.realizeAll.1 t) ∧
    (g.realizeAll.1 = [] → ∀ t : TypeRef, t.name ∈ g.names →
      ((∃ e, g.realizeAll.2.standing t = .realized e) ↔
        ∀ u : TypeRef, ReflTransGen g.registry.Needs t.name u.name → g.standing u ≠ .failed)) := by
  have resting := reachable.resting
  have known : ∀ t ∈ g.subjects, t.name ∈ g.names := by
    intro t member
    obtain ⟨n, inside, rfl⟩ := List.mem_map.mp member
    exact List.mem_map_of_mem inside
  obtain ⟨names, onward, settled⟩ := realizeEachSettles resting unchecked known
  have rested : g.realizeAll.2.Resting := realizeEachResting g.subjects resting
  have ended : ∀ t : TypeRef, t.name ∈ g.names → g.realizeAll.2.Settled t := by
    intro t member
    obtain ⟨n, inside, named⟩ := List.mem_map.mp member
    have here := settled n.subject (List.mem_map_of_mem inside)
    unfold Settled at here ⊢
    rwa [← standingCongr named]
  have accounted : ∀ t, g.realizeAll.2.standing t = .failed → Accounted g g.realizeAll.1 t :=
    fun t => realizeEachAccounted resting unchecked
  refine ⟨names, fun n member => ?ended, accounted, fun nothing t inside => ⟨?needs, ?realized⟩⟩
  case ended =>
    rw [← memberStanding rested.coherent.distinct member]
    refine (ended n.subject ?_).symm
    rw [← names]
    exact List.mem_map_of_mem member
  case needs =>
    rintro ⟨e, held⟩ u path failed
    rw [← Registry.needsKept onward.rules] at path
    obtain ⟨e', found⟩ := rested.storedNeeds (storedIff.mpr held) path
    have kept := onward.settled u (by simp [failed])
    rw [storedIff, realizeAll, kept, failed] at found
    contradiction
  case realized =>
    intro sound
    refine (ended t inside).resolve_right fun failed => ?_
    obtain ⟨u, path, earlier | ⟨fault, member, _⟩⟩ := accounted t failed
    · exact sound u path earlier
    · rw [nothing] at member
      contradiction

def lateSession (operations : List Operation) : Graph :=
  (ofRegistry {} {}).run (.register lateRule :: operations)

theorem lateSessionReachable (operations : List Operation) : (lateSession operations).Reachable :=
  ⟨{}, {}, _, ⟨[], [], rfl⟩, rfl⟩

theorem failuresAccountedLate :
    let g := lateSession [.realize (.plain "Missing")]
    g.settings.finalizeBeforeRealize = false ∧ g.realizeAll.2.standing (.plain "Report") = .failed ∧
      Accounted g g.realizeAll.1 (.plain "Report") := by
  intro g
  have unchecked : g.settings.finalizeBeforeRealize = false := by decide +kernel
  have failed : g.realizeAll.2.standing (.plain "Report") = .failed := by decide +kernel
  exact ⟨unchecked, failed, (failuresAccounted (lateSessionReachable _) unchecked).2.2.1 _ failed⟩

theorem earlierFailureHidesLater :
    let g := lateSession [.realize (.plain "Missing")]
    g.Reachable ∧ g.settings.finalizeBeforeRealize = false ∧ g.realizeAll.1 = [] ∧
      g.standing (.plain "Report") = .unrealized ∧ g.realizeAll.2.standing (.plain "Report") = .failed :=
  ⟨lateSessionReachable _, by decide +kernel⟩

theorem realizeEachStopped (stopped : g.start.1 = .error fault) (ts : List TypeRef) :
    (realizeEach ts g).1 = List.replicate ts.length fault ∧ (realizeEach ts g).2.nodes = g.nodes := by
  induction ts generalizing g with
  | nil => exact ⟨rfl, rfl⟩
  | cons t rest ih =>
    obtain ⟨_, _, answer⟩ := startStopped stopped
    have reported : news (.error fault : Except Fault Element) = [fault] :=
      finalizeNews (by rw [← answer]; exact stopped)
    obtain ⟨faults, nodes⟩ := ih (startAgain stopped)
    rw [realizeEachFaults, realizeEachNext, realizeStopped stopped, reported, faults, nodes]
    exact ⟨rfl, g.startStays.nodes⟩

theorem realizeFails (resting : g.Resting) (opening : g.start = (.ok (), h))
    (reported : fault ∈ news (g.realize t).1) :
    g.standing t = .unrealized ∧ (g.realize t).2.standing t = .failed := by
  have stays := g.startStays
  rw [opening] at stays
  have rested := stays.resting resting
  obtain ⟨result, h', work, ⟨e, rfl, answer, _⟩ | ⟨fault', rfl, answer⟩⟩ :=
    realizeRun opening rested.coherent.sound.indexed t <;> rw [answer] at reported ⊢
  · contradiction
  · rcases work.fails rested rfl with ⟨_, rfl⟩ | struck
    · contradiction
    · rwa [stays.standing] at struck

theorem realizeStarts (resting : g.Resting) (opening : g.start = (.ok (), h)) (t : TypeRef) :
    ∃ h', (g.realize t).2.start = (.ok (), h') := by
  have rested := g.startStays.resting resting
  rw [opening] at rested
  obtain ⟨_, work⟩ := realizeWork opening rested.coherent.sound.indexed t
  refine ⟨_, startPasses ?_⟩
  rw [work.grows.settings, work.grows.finalized]
  exact startPassed opening

structure Strikes (g : Graph) (fault : Fault) (t : TypeRef) : Prop where
  answer : (g.realize t).1 = .error fault
  before : g.standing t = .unrealized
  after : (g.realize t).2.standing t = .failed

theorem realizeEachFails (resting : g.Resting) (opening : g.start = (.ok (), h)) (ts : List TypeRef) :
    ∃ culprits : List TypeRef, culprits.Sublist ts ∧
      List.Forall₂ (fun fault t => ∃ before after, ts = before ++ t :: after ∧
        (g.realizing before).Strikes fault t)
        (realizeEach ts g).1 culprits := by
  induction ts generalizing g h with
  | nil => exact ⟨[], .slnil, .nil⟩
  | cons t rest ih =>
    obtain ⟨h', onward⟩ := realizeStarts resting opening t
    obtain ⟨culprits, among, raised⟩ := ih (realizeResting resting t) onward
    have later : List.Forall₂ (fun fault u => ∃ before after, t :: rest = before ++ u :: after ∧
        (g.realizing before).Strikes fault u) (realizeEach rest (g.realize t).2).1 culprits := by
      refine raised.imp fun fault u struck => ?_
      obtain ⟨before, after, whole, strikes⟩ := struck
      exact ⟨t :: before, after, by rw [whole]; rfl, strikes⟩
    rw [realizeEachFaults]
    rcases listed : news (g.realize t).1 with _ | ⟨fault, others⟩
    · exact ⟨culprits, among.cons t, later⟩
    · have reported : fault ∈ news (g.realize t).1 := by
        rw [listed]
        exact List.mem_cons_self
      have answer := newsFaults reported
      have one : others = [] := by
        rw [answer] at listed
        rcases newsOr (α := Element) fault with ⟨v, rfl⟩ | single
        · contradiction
        · rw [single] at listed
          exact (List.cons.inj listed).2.symm
      obtain ⟨before, after⟩ := realizeFails resting opening reported
      rw [one]
      exact ⟨t :: culprits, among.cons_cons t, .cons ⟨[], rest, rfl, answer, before, after⟩ later⟩

def newlyFailed (g g' : Graph) : List TypeRef :=
  g.subjects.filter fun t => decide (g.standing t ≠ .failed ∧ g'.standing t = .failed)

theorem Strikes.newly {before after : List TypeRef} (strikes : (g.realizing before).Strikes fault t)
    (resting : g.Resting) (whole : g.subjects = before ++ t :: after) : t ∈ g.newlyFailed g.realizeAll.2 := by
  obtain ⟨first, rested⟩ := runAges resting (before.map .realize)
  obtain ⟨last, _⟩ := runAges (realizeResting rested t) (after.map .realize)
  have ending : g.realizeAll.2 = ((g.realizing before).realize t).2.run (after.map .realize) := by
    rw [realizeAll, realizeEachRun, whole]
    simp [realizing, run, perform]
  have fresh : g.standing t = .unrealized := (first.standing t).fresh strikes.before
  have failed : g.realizeAll.2.standing t = .failed := by
    rw [ending]
    exact ((last.standing t).kept fun fresh => by cases fresh.symm.trans strikes.after).trans strikes.after
  refine List.mem_filter.mpr ⟨by rw [whole]; simp, ?_⟩
  rw [fresh, failed]
  rfl

theorem failuresReportedOnce (reachable : g.Reachable) :
    (g.start.1 = .ok () →
      (∃ culprits : List TypeRef, (culprits.map (·.name)).Nodup ∧
        List.Forall₂ (fun fault t => ∃ before after, g.subjects = before ++ t :: after ∧
          (g.realizing before).Strikes fault t ∧ t ∈ g.newlyFailed g.realizeAll.2) g.realizeAll.1 culprits) ∧
      g.realizeAll.1.length ≤ (g.newlyFailed g.realizeAll.2).length) ∧
    ∀ fault, g.start.1 = .error fault →
      g.realizeAll.1 = List.replicate g.nodes.length fault ∧ g.realizeAll.2.nodes = g.nodes := by
  have resting := reachable.resting
  refine ⟨fun passed => ?passed, fun fault stopped => ?stopped⟩
  case stopped =>
    have whole := realizeEachStopped stopped g.subjects
    rwa [subjects, List.length_map] at whole
  case passed =>
    obtain ⟨h, opening⟩ : ∃ h, g.start = (.ok (), h) := ⟨g.start.2, Prod.ext passed rfl⟩
    obtain ⟨culprits, among, raised⟩ := realizeEachFails resting opening g.subjects
    have newly : List.Forall₂ (fun fault t => ∃ before after, g.subjects = before ++ t :: after ∧
        (g.realizing before).Strikes fault t ∧ t ∈ g.newlyFailed g.realizeAll.2) g.realizeAll.1 culprits := by
      refine raised.imp fun fault t struck => ?_
      obtain ⟨before, after, whole, strikes⟩ := struck
      exact ⟨before, after, whole, strikes, strikes.newly resting whole⟩
    have listed : List.Forall₂ (fun t _ => t ∈ g.newlyFailed g.realizeAll.2 ∧ True) culprits
        g.realizeAll.1 := by
      refine .flip (newly.imp fun fault t struck => ?_)
      obtain ⟨_, _, _, _, member⟩ := struck
      exact ⟨member, trivial⟩
    have each := ((List.forall₂_and_left culprits g.realizeAll.1).mp listed).1
    have distinct : (g.subjects.map (·.name)).Nodup := by
      rw [← subjectNames]
      exact resting.coherent.distinct
    refine ⟨⟨culprits, distinct.sublist (among.map _), newly⟩, ?_⟩
    calc
      g.realizeAll.1.length = culprits.length := raised.length_eq
      _ = (culprits.filter fun t =>
            decide (g.standing t ≠ .failed ∧ g.realizeAll.2.standing t = .failed)).length := by
        rw [List.filter_eq_self.mpr fun t member => (List.mem_filter.mp (each t member)).2]
      _ ≤ (g.newlyFailed g.realizeAll.2).length := (among.filter _).length_le

theorem failuresReportedOnceLate :
    let g := lateSession []
    g.start.1 = .ok () ∧
      g.realizeAll.1 = [.noCreator (.plain "Missing") (some (.plain "Report")) (some "late")] ∧
        g.realizeAll.1.length ≤ (g.newlyFailed g.realizeAll.2).length := by
  intro g
  have passed : g.start.1 = .ok () := by decide +kernel
  exact ⟨passed, by decide +kernel, ((failuresReportedOnce (lateSessionReachable [])).1 passed).2⟩

theorem checkFaultRepeated :
    let g := strictSession [.register lateRule]
    g.Reachable ∧
      g.realizeAll.1 = [.noCreator (.plain "Missing") (some (.plain "Report")) (some "late"),
        .noCreator (.plain "Missing") (some (.plain "Report")) (some "late")] ∧
          g.newlyFailed g.realizeAll.2 = [] :=
  ⟨⟨{}, _, _, ⟨[], [], rfl⟩, rfl⟩, by decide +kernel⟩

end Realization.Graph
