import Realization.Proofs.Reporting
import Realization.Proofs.Trails

/-!
What one request leaves behind. It touches nothing but what the type asked for needs. If it succeeds, all of
that is realized; if it fails, the types it leaves failed are those that were entered one for the sake of
another when the fault was raised, and whatever else it changed has been realized.
-/
namespace Realization.Graph

open Relation

variable {limit : Nat} {stack : List TypeRef} {duties : List Duty} {own : Option Element}
  {g g₁ g' h : Graph} {s t u : TypeRef} {via : Option Locator} {fault : Fault} {outcome : Progress}
  {result : Except Fault (Option Element)} {chain : List TypeRef}

def Reaches (r : Registry) (duties : List Duty) (u : TypeRef) : Prop :=
  ∃ via t, .input via t ∈ duties ∧ ReflTransGen r.Needs t.name u.name

theorem Reaches.later {r : Registry} {duty : Duty} (reaches : Reaches r duties u) :
    Reaches r (duty :: duties) u := by
  obtain ⟨via, t, member, path⟩ := reaches
  exact ⟨via, t, List.mem_cons_of_mem _ member, path⟩

theorem trackReaches (indexed : g.registry.Indexed) (changed : (g.track (g.resolve t)).node? u ≠ g.node? u) :
    Reaches g.registry (.input via t :: duties) u := by
  by_cases same : t.same u
  · exact ⟨via, t, List.mem_cons_self, by rw [TypeRef.sameIff.mp same]⟩
  · simp [indexed, same] at changed

theorem settleReaches (indexed : g.registry.Indexed)
    (inner : g₁.node? u ≠ (g.enter (g.resolve t)).node? u →
      Reaches g.registry (g.registry.duties stack via (g.resolve t)) u)
    (changed : (g₁.mark (g.resolve t) outcome).node? u ≠ g.node? u) :
    Reaches g.registry (.input via t :: duties) u := by
  refine ⟨via, t, List.mem_cons_self, ?_⟩
  rw [← resolveName indexed]
  by_cases same : (g.resolve t).same u
  · rw [TypeRef.sameIff.mp same]
  · have inside : g₁.node? u ≠ (g.enter (g.resolve t)).node? u := by
      simpa [same, enterOther same] using changed
    obtain ⟨_, i, member, path⟩ := inner inside
    exact .head (indexed.dutyAsks member).2.needs path

theorem Work.reaches (work : Work limit stack duties own g result g') (indexed : g.registry.Indexed)
    (changed : g'.node? u ≠ g.node? u) : Reaches g.registry duties u := by
  induction work with
  | done | lacking | unsynthesized | broke => exact absurd rfl changed
  | synthesized _ _ ih => exact (ih (indexed.congr rfl rfl) changed).later
  | ran _ _ _ _ _ _ ih => exact (ih indexed changed).later
  | @present _ _ t _ _ g _ _ _ _ _ _ ih =>
    by_cases here : (g.track (g.resolve t)).node? u = g.node? u
    · exact (ih indexed (by rwa [here])).later
    · exact trackReaches indexed here
  | failed | cyclic | deep => exact trackReaches indexed changed
  | @built _ _ t _ _ g e g₁ _ _ _ fresh _ inner _ ih ih' =>
    have grows := inner.grows.settle fresh (.inr ⟨e, rfl⟩)
    by_cases here : (g₁.mark (g.resolve t) (.realized e)).node? u = g.node? u
    · have onward := ih' (indexed.congr grows.rules grows.entries) (by rwa [here])
      unfold Reaches at onward
      rw [Registry.needsKept grows.rules] at onward
      exact Reaches.later onward
    · exact settleReaches indexed (ih indexed) here
  | unbuilt _ _ _ _ ih => exact settleReaches indexed (ih indexed) changed

theorem nodeStanding {n : Node} (found : g.node? u = some n) : g.standing u = n.progress :=
  progressStanding (by rw [progress?, found]; rfl)

theorem failedIff : g.progress? u = some .failed ↔ g.standing u = .failed :=
  ⟨progressStanding, fun failed => standingProgress failed (by simp)⟩

theorem Grows.node (grows : g.Grows g')
    (kept : (g'.node? u).map (·.subject) = (g.node? u).map (·.subject)) :
    g'.node? u = g.node? u ∨ ∃ n ended, g.node? u = some n ∧ n.progress = .unrealized ∧
      (ended = .failed ∨ ∃ e, ended = .realized e) ∧ g'.node? u = some { n with progress := ended } := by
  cases found : g.node? u with
  | none =>
    rw [found] at kept
    exact .inl (Option.map_eq_none_iff.mp kept)
  | some n =>
    rw [found] at kept
    obtain ⟨⟨form, progress⟩, found', rfl⟩ := Option.map_eq_some_iff.mp kept
    have step := grows.standing u
    rw [nodeStanding found, nodeStanding found'] at step
    rcases step with rfl | ⟨fresh, ended⟩
    · exact .inl found'
    · exact .inr ⟨n, progress, rfl, fresh, ended, found'⟩

theorem Work.otherNode (work : Work limit stack [.input via t] own g result g') (indexed : g.registry.Indexed)
    (tracked : g.Tracked) (other : t.name ≠ u.name) :
    g'.node? u = g.node? u ∨ ∃ n ended, g.node? u = some n ∧ n.progress = .unrealized ∧
      (ended = .failed ∨ ∃ e, ended = .realized e) ∧ g'.node? u = some { n with progress := ended } := by
  have elsewhere : ¬ (g.resolve t).same u = true := by simpa [indexed, TypeRef.sameIff] using other
  refine work.grows.node ?_
  rw [nodeSubject, work.requestSubjects indexed tracked, ← nodeSubject, nodeTrack, if_neg elsewhere]

theorem Work.fallen (work : Work limit [] [.input none t] own g (.error fault) g') (resting : g.Resting) :
    ∃ chain, g.registry.Trail t chain ∧
      ∀ u, g'.standing u = .failed ∧ g.standing u ≠ .failed ↔ ∃ s ∈ chain, s.name = u.name := by
  obtain ⟨m, chain, comes, _, whole, failed⟩ := work.raises
  rw [List.nil_append] at whole
  have trail := comes.trail resting
  have stacked := comes.stacked resting.stacked
  rw [whole] at trail stacked
  refine ⟨chain, trail, fun u => ?_⟩
  rw [failed]
  refine ⟨fun ⟨either, before⟩ => either.resolve_left before, fun inside => ⟨.inr inside, fun before => ?_⟩⟩
  have busy := (stacked.busy u).mpr inside
  rw [(comes.unfailed u).mpr before] at busy
  contradiction

/- A request for `t` that leads from one graph to another has failed exactly the types of a chain, in which
each needs the next; whatever else it changed, it has realized. -/
structure Poisons (g g' : Graph) (t : TypeRef) (chain : List TypeRef) : Prop where
  begins : chain.head?.map (·.name) = some t.name
  trail : g.registry.Trail t chain
  failed : ∀ u, g'.progress? u = some .failed ∧ g.progress? u ≠ some .failed ↔
    ∃ s ∈ chain, s.name = u.name
  others : ∀ u, (∀ s ∈ chain, s.name ≠ u.name) → g'.node? u = g.node? u ∨
    ∃ n e, g.node? u = some n ∧ n.progress = .unrealized ∧
      g'.node? u = some { n with progress := .realized e }
  kept : ∀ u n e, g.node? u = some n → n.progress = .realized e → g'.node? u = some n

theorem Poisons.stays (poisons : h.Poisons g' t chain) (stays : g.Stays h) : g.Poisons g' t chain where
  begins := poisons.begins
  trail := poisons.trail.kept stays.rules
  failed u := by
    rw [← stays.progress]
    exact poisons.failed u
  others u := by
    rw [← stays.node]
    exact poisons.others u
  kept u := by
    rw [← stays.node]
    exact poisons.kept u

theorem Work.poisons (work : Work limit [] [.input none t] own g (.error fault) g') (resting : g.Resting)
    (bounded : g.settings.maxDepth = limit) (untouched : g.standing t ≠ .failed) :
    ∃ chain, g.Poisons g' t chain := by
  obtain ⟨chain, trail, failed⟩ := work.fallen resting
  obtain ⟨first, rest, rfl⟩ : ∃ first rest, chain = first :: rest := by
    have broken := (work.fails resting bounded).resolve_left fun before => untouched before.1
    obtain ⟨s, member, _⟩ := (failed t).mp ⟨broken.2, untouched⟩
    exact List.exists_cons_of_ne_nil (List.ne_nil_of_mem member)
  have begins : first.name = t.name := trail.start first rfl
  have others : ∀ u, (∀ s ∈ first :: rest, s.name ≠ u.name) → g'.node? u = g.node? u ∨
      ∃ n e, g.node? u = some n ∧ n.progress = .unrealized ∧
        g'.node? u = some { n with progress := .realized e } := by
    intro u apart
    have other : t.name ≠ u.name := begins ▸ apart first List.mem_cons_self
    rcases work.otherNode resting.coherent.sound.indexed resting.coherent.tracked other with
      same | ⟨n, ended, found, fresh, rfl | ⟨e, rfl⟩, found'⟩
    · exact .inl same
    · have newly : g.standing u ≠ .failed := by simp [nodeStanding found, fresh]
      obtain ⟨s, member, named⟩ := (failed u).mp ⟨nodeStanding found', newly⟩
      exact absurd named (apart s member)
    · exact .inr ⟨n, e, found, fresh, found'⟩
  refine ⟨first :: rest, congrArg some begins, trail, fun u => ?failed, others, fun u n e found held => ?kept⟩
  case failed =>
    rw [failedIff, Ne, failedIff]
    exact failed u
  case kept =>
    have stored : g.stored u = some e := storedIff.mpr ((nodeStanding found).trans held)
    have apart : ∀ s ∈ first :: rest, s.name ≠ u.name := by
      intro s member named
      have broken := ((failed u).mpr ⟨s, member, named⟩).1
      rw [storedIff.mp (work.grows.stored stored)] at broken
      contradiction
    rcases others u apart with same | ⟨n', _, found', fresh, _⟩
    · exact same.trans found
    · cases found.symm.trans found'
      rw [held] at fresh
      contradiction

theorem requestFootprint (reachable : g.Reachable) (opening : g.start.1 = .ok ()) (t : TypeRef) :
    (∀ u, (g.realize t).2.node? u ≠ g.node? u → ReflTransGen g.registry.Needs t.name u.name) ∧
    (∀ e, (g.realize t).1 = .ok e → ∀ u : TypeRef, ReflTransGen g.registry.Needs t.name u.name →
      ∃ e', (g.realize t).2.progress? u = some (.realized e')) ∧
    (∀ fault, (g.realize t).1 = .error fault → g.progress? t ≠ some .failed →
      ∃ chain, g.Poisons (g.realize t).2 t chain) := by
  have resting := reachable.resting
  have stays := g.startStays
  have rested := stays.resting resting
  have indexed := rested.coherent.sound.indexed
  obtain ⟨result, h', work, ending⟩ := realizeRun (Prod.ext opening rfl) indexed t
  refine ⟨fun u changed => ?touched, fun e answer u path => ?realized, fun fault answer untouched => ?failed⟩
  case touched =>
    have left : (g.realize t).2 = h' := by
      rcases ending with ⟨_, _, answer, _⟩ | ⟨_, _, answer⟩ <;> rw [answer]
    rw [left, ← stays.node] at changed
    obtain ⟨_, t', member, path⟩ := work.reaches indexed changed
    cases List.mem_singleton.mp member
    rwa [Registry.needsKept stays.rules] at path
  case realized =>
    rw [← Registry.needsKept (realizeOnward resting t).rules] at path
    obtain ⟨e', held⟩ := (realizeResting resting t).storedNeeds (realizeStores resting answer) path
    exact ⟨e', standingProgress (storedIff.mp held) (by simp)⟩
  case failed =>
    rcases ending with ⟨_, _, same, _⟩ | ⟨_, rfl, same⟩ <;> rw [same] at answer ⊢
    · contradiction
    · have sound : g.start.2.standing t ≠ .failed := by
        rw [stays.standing]
        exact fun failed => untouched (failedIff.mpr failed)
      obtain ⟨chain, poisons⟩ := work.poisons rested rfl sound
      exact ⟨chain, poisons.stays stays⟩

theorem requestFootprintLate :
    let g := lateSession []
    g.start.1 = .ok () ∧ g.progress? (.plain "Report") ≠ some .failed ∧
      ∃ fault, (g.realize (.plain "Report")).1 = .error fault ∧
        ∃ chain, g.Poisons (g.realize (.plain "Report")).2 (.plain "Report") chain := by
  intro g
  have opening : g.start.1 = .ok () := by decide +kernel
  have untouched : g.progress? (.plain "Report") ≠ some .failed := by decide +kernel
  have answer : (g.realize (.plain "Report")).1 =
      .error (.noCreator (.plain "Missing") (some (.plain "Report")) (some "late")) := by decide +kernel
  exact ⟨opening, untouched, _, answer,
    (requestFootprint (lateSessionReachable []) opening (.plain "Report")).2.2 _ answer untouched⟩

end Realization.Graph
