import Realization.Graph.Realize
import Realization.Proofs.NodeTable

/-!
How a graph grows while types are realized. Rules, settings and flags stay, memory and journal only
get longer, and every type either stands where it stood or went from unrealized to realized or
failed. A type without a node stands as unrealized, so mentioning a type is no change of standing.
-/
namespace Realization

/- The only ways to go: a type is realized or fails once, and that is final. -/
def Progress.Leads (before after : Progress) : Prop :=
  after = before ∨ before = .unrealized ∧ (after = .failed ∨ ∃ e, after = .realized e)

theorem Progress.Leads.trans {a b c : Progress} (first : a.Leads b) (second : b.Leads c) :
    a.Leads c := by
  rcases first with rfl | ⟨rfl, ended⟩
  · exact second
  · rcases second with rfl | ⟨rfl, _⟩
    · exact .inr ⟨rfl, ended⟩
    · rcases ended with ended | ⟨e, ended⟩ <;> cases ended

theorem Progress.Leads.kept {a b : Progress} (leads : a.Leads b) (started : a ≠ .unrealized) : b = a := by
  rcases leads with same | ⟨fresh, _⟩
  · exact same
  · exact absurd fresh started

theorem Progress.Leads.fresh {a b : Progress} (leads : a.Leads b) (fresh : b = .unrealized) : a = .unrealized := by
  rcases leads with same | ⟨before, _⟩
  · exact same.symm.trans fresh
  · exact before

namespace Graph

def standing (g : Graph) (t : TypeRef) : Progress := (g.progress? t).getD .unrealized

def stored (g : Graph) (t : TypeRef) : Option Element := (g.standing t).element?

theorem standingCongr {t u : TypeRef} (named : t.name = u.name) (g : Graph) :
    g.standing t = g.standing u := by
  simp only [standing, progressCongr named]

@[simp] theorem standingTrack (g : Graph) (t u : TypeRef) : (g.track t).standing u = g.standing u := by
  simp only [standing, progressTrack]
  split <;> rfl

@[simp] theorem standingMark {g : Graph} {t : TypeRef} (known : (g.node? t).isSome = true) (u : TypeRef)
    (progress : Progress) :
    (g.mark t progress).standing u = if t.same u then progress else g.standing u := by
  simp only [standing, progressMark]
  split
  · rename_i same
    rw [nodeCongr (TypeRef.sameIff.mp same)] at known
    obtain ⟨n, found⟩ := Option.isSome_iff_exists.mp known
    simp [progress?, found]
  · rfl

theorem standingProgress {g : Graph} {t : TypeRef} {p : Progress} (standing : g.standing t = p)
    (started : p ≠ .unrealized) : g.progress? t = some p := by
  unfold Graph.standing at standing
  cases found : g.progress? t with
  | none =>
    rw [found] at standing
    exact absurd standing.symm started
  | some q =>
    rw [found] at standing
    exact congrArg some standing

theorem progressStanding {g : Graph} {t : TypeRef} {p : Progress} (found : g.progress? t = some p) :
    g.standing t = p := by
  simp [standing, found]

theorem storedIff {g : Graph} {t : TypeRef} {e : Element} :
    g.stored t = some e ↔ g.standing t = .realized e := by
  unfold stored
  cases g.standing t <;> simp [Progress.element?]

theorem storedLeads {g g' : Graph} {t : TypeRef} {e : Element} (leads : (g.standing t).Leads (g'.standing t))
    (found : g.stored t = some e) : g'.stored t = some e := by
  rw [storedIff] at found ⊢
  exact (leads.kept (by simp [found])).trans found

def inputsOf? (read : TypeRef → Option Element) (types : List TypeRef) : Option Inputs :=
  (types.mapM fun t => (read t).map (t, ·)).map Inputs.mk

theorem inputsOfSome {read : TypeRef → Option Element} {types : List TypeRef}
    (complete : ∀ t ∈ types, ∃ e, read t = some e) : ∃ inputs, inputsOf? read types = some inputs := by
  unfold inputsOf?
  induction types with
  | nil => exact ⟨_, rfl⟩
  | cons t rest ih =>
    obtain ⟨e, found⟩ := complete t List.mem_cons_self
    obtain ⟨inputs, tail⟩ := ih fun u member => complete u (List.mem_cons_of_mem _ member)
    obtain ⟨entries, tail, _⟩ := Option.map_eq_some_iff.mp tail
    exact ⟨⟨(t, e) :: entries⟩, by simp [List.mapM_cons, found, tail]⟩

theorem inputsOfRead {read : TypeRef → Option Element} {types : List TypeRef} {inputs : Inputs}
    (supplied : inputsOf? read types = some inputs) : ∀ t ∈ types, ∃ e, read t = some e := by
  obtain ⟨entries, listed, -⟩ := Option.map_eq_some_iff.mp supplied
  clear supplied
  induction types generalizing entries with
  | nil => simp
  | cons t rest ih =>
    simp only [List.mapM_cons, Option.bind_eq_bind, Option.bind_eq_some_iff,
      Option.map_eq_some_iff] at listed
    obtain ⟨_, ⟨e, found, _⟩, tail, later, _⟩ := listed
    intro u member
    rcases List.mem_cons.mp member with rfl | member
    · exact ⟨e, found⟩
    · exact ih tail later u member

theorem inputsOfAgree {read read' : TypeRef → Option Element} {types : List TypeRef}
    (agree : ∀ t ∈ types, read t = read' t) : inputsOf? read types = inputsOf? read' types := by
  unfold inputsOf?
  congr 1
  induction types with
  | nil => rfl
  | cons t rest ih =>
    simp only [List.mapM_cons, agree t List.mem_cons_self,
      ih fun u member => agree u (List.mem_cons_of_mem _ member)]

theorem elementStored (g : Graph) (t : TypeRef) : (g.element t).toOption = g.stored t := by
  unfold element stored standing
  cases found : g.progress? t with
  | none => rfl
  | some p => cases p <;> rfl

theorem storedElement {g : Graph} {t : TypeRef} {e : Element} (found : g.stored t = some e) :
    g.element t = .ok e := by
  rw [← elementStored] at found
  cases held : g.element t <;> rw [held] at found <;> cases found
  rfl

theorem inputsForExact (g : Graph) (types : List TypeRef) :
    (g.inputsFor types).toOption = inputsOf? g.stored types := by
  have entries : (types.mapM fun t => (g.element t).map (t, ·)).toOption =
      types.mapM fun t => (g.stored t).map (t, ·) := by
    induction types with
    | nil => rfl
    | cons t rest ih =>
      rw [List.mapM_cons, List.mapM_cons, ← elementStored, ← ih]
      cases g.element t with
      | error fault => rfl
      | ok e => cases rest.mapM fun t => (g.element t).map (t, ·) <;> rfl
  unfold inputsFor inputsOf?
  rw [← entries]
  cases types.mapM fun t => (g.element t).map (t, ·) <;> rfl

theorem inputsForStored {g : Graph} {types : List TypeRef}
    (complete : ∀ t ∈ types, ∃ e, g.stored t = some e) : ∃ inputs, g.inputsFor types = .ok inputs := by
  obtain ⟨inputs, supplied⟩ := inputsOfSome complete
  rw [← inputsForExact] at supplied
  cases given : g.inputsFor types with
  | error fault =>
    rw [given] at supplied
    contradiction
  | ok inputs => exact ⟨inputs, rfl⟩

@[simp] theorem trackKnown (g : Graph) (t : TypeRef) : ((g.track t).node? t).isSome = true := by
  simp

@[simp] theorem resolveName {g : Graph} (indexed : g.registry.Indexed) (t : TypeRef) :
    (g.resolve t).name = t.name := by
  unfold resolve
  cases managed : (g.node? t).filter (·.subject.isManaged) with
  | some n => exact nodeName (Option.filter_eq_some_iff.mp managed).1
  | none =>
    cases known : (g.registry.resolve? t).filter (·.isManaged) with
    | some u => exact indexed.resolveName (Option.filter_eq_some_iff.mp known).1
    | none => rfl

@[simp] theorem resolveSame {g : Graph} (indexed : g.registry.Indexed) (t u : TypeRef) :
    (g.resolve t).same u = t.same u := by
  simp only [TypeRef.same, resolveName indexed]

@[simp] theorem standingResolve {g : Graph} (indexed : g.registry.Indexed) (t : TypeRef) :
    g.standing (g.resolve t) = g.standing t := standingCongr (resolveName indexed t) g

structure Grows (g g' : Graph) : Prop where
  registry : g'.registry = { g.registry with verdicts := g'.registry.verdicts }
  settings : g'.settings = g.settings
  started : g'.isStarted = g.isStarted
  finalized : g'.isFinalized = g.isFinalized
  verdicts : g.registry.verdicts.Within g'.registry.verdicts
  journal : g.journal <+: g'.journal
  form : ∀ t n, g.node? t = some n →
    ∃ n', g'.node? t = some n' ∧ (n.subject.isManaged = true → n'.subject = n.subject)
  standing : ∀ t, (g.standing t).Leads (g'.standing t)

theorem growsRefl (g : Graph) : g.Grows g :=
  ⟨rfl, rfl, rfl, rfl, g.registry.verdicts.withinRefl, List.prefix_refl _,
    fun _ n found => ⟨n, found, fun _ => rfl⟩, fun _ => .inl rfl⟩

theorem Grows.trans {a b c : Graph} (first : a.Grows b) (second : b.Grows c) : a.Grows c where
  registry := by rw [second.registry, first.registry]
  settings := second.settings.trans first.settings
  started := second.started.trans first.started
  finalized := second.finalized.trans first.finalized
  verdicts := first.verdicts.trans second.verdicts
  journal := first.journal.trans second.journal
  form t n found := by
    obtain ⟨n', found', kept⟩ := first.form t n found
    obtain ⟨n'', found'', kept'⟩ := second.form t n' found'
    refine ⟨n'', found'', fun managed => ?_⟩
    have same := kept managed
    rw [kept' (by rw [same]; exact managed), same]
  standing t := (first.standing t).trans (second.standing t)

theorem Grows.rules {g g' : Graph} (grows : g.Grows g') : g'.registry.rules = g.registry.rules := by
  rw [grows.registry]

theorem Grows.entries {g g' : Graph} (grows : g.Grows g') :
    g'.registry.entries = g.registry.entries := by
  rw [grows.registry]

theorem Grows.stored {g g' : Graph} (grows : g.Grows g') {t : TypeRef} {e : Element}
    (found : g.stored t = some e) : g'.stored t = some e := storedLeads (grows.standing t) found

theorem Grows.failed {g g' : Graph} (grows : g.Grows g') {t : TypeRef}
    (failed : g.standing t = .failed) : g'.standing t = .failed :=
  ((grows.standing t).kept (by simp [failed])).trans failed

theorem Grows.realizing {g g' : Graph} (grows : g.Grows g') (t : TypeRef) :
    g'.standing t = .realizing ↔ g.standing t = .realizing := by
  rcases grows.standing t with same | ⟨fresh, ended⟩
  · rw [same]
  · rw [fresh]
    rcases ended with ended | ⟨e, ended⟩ <;> simp [ended]

theorem growsVerdicts (g : Graph) {verdicts : Verdicts}
    (within : g.registry.verdicts.Within verdicts) : g.Grows (g.withVerdicts verdicts) :=
  ⟨rfl, rfl, rfl, rfl, within, List.prefix_refl _, fun _ n found => ⟨n, found, fun _ => rfl⟩,
    fun _ => .inl rfl⟩

theorem growsRecord (g : Graph) (events : List Event) : g.Grows (g.record events) :=
  ⟨rfl, rfl, rfl, rfl, g.registry.verdicts.withinRefl, List.prefix_append _ _,
    fun _ n found => ⟨n, found, fun _ => rfl⟩, fun _ => .inl rfl⟩

theorem growsTrack (g : Graph) (t : TypeRef) : g.Grows (g.track t) where
  registry := rfl
  settings := rfl
  started := rfl
  finalized := rfl
  verdicts := g.registry.verdicts.withinRefl
  journal := List.prefix_refl _
  form u n found := by
    rw [nodeTrack, found]
    split
    · exact ⟨n.mention t, rfl, fun managed => by simp [managed]⟩
    · exact ⟨n, rfl, fun _ => rfl⟩
  standing u := .inl (standingTrack g t u)

theorem trackFresh {g : Graph} {t u : TypeRef} {n : Node} (started : g.standing t ≠ .unrealized)
    (found : (g.track t).node? u = some n) (fresh : n.progress = .unrealized) : g.node? u = some n := by
  by_cases same : t.same u
  · have standing : (g.track t).standing u = .unrealized :=
      progressStanding (by rw [progress?, found, ← fresh]; rfl)
    rw [standingTrack, ← standingCongr (TypeRef.sameIff.mp same)] at standing
    contradiction
  · simpa [same] using found

theorem markFresh {g : Graph} {t u : TypeRef} {n : Node} {outcome : Progress} (started : outcome ≠ .unrealized)
    (found : (g.mark t outcome).node? u = some n) (fresh : n.progress = .unrealized) :
    ¬ t.same u = true ∧ g.node? u = some n := by
  by_cases same : t.same u
  · rw [nodeMark, if_pos same] at found
    obtain ⟨_, _, rfl⟩ := Option.map_eq_some_iff.mp found
    contradiction
  · exact ⟨same, by simpa [same] using found⟩

def enter (g : Graph) (t : TypeRef) : Graph := (g.track t).mark t .realizing

theorem enterOther {g : Graph} {t u : TypeRef} (other : ¬ t.same u = true) : (g.enter t).node? u = g.node? u := by
  simp [enter, other]

theorem enterFresh {g : Graph} {t u : TypeRef} {n : Node} (found : (g.enter t).node? u = some n)
    (fresh : n.progress = .unrealized) : g.node? u = some n := by
  obtain ⟨other, tracked⟩ := markFresh (by simp) found fresh
  simpa [other] using tracked

@[simp] theorem standingEnter (g : Graph) (t u : TypeRef) :
    (g.enter t).standing u = if t.same u then .realizing else g.standing u := by
  simp [enter]

theorem enterForm (g : Graph) (t : TypeRef) {u : TypeRef} {n : Node} (found : g.node? u = some n) :
    ∃ n', (g.enter t).node? u = some n' ∧ (n.subject.isManaged = true → n'.subject = n.subject) := by
  obtain ⟨n', found', kept⟩ := (growsTrack g t).form u n found
  rw [enter, nodeMark, found']
  split
  · exact ⟨{ n' with progress := .realizing }, rfl, kept⟩
  · exact ⟨n', rfl, kept⟩

@[simp] theorem enterKnown (g : Graph) (t : TypeRef) : ((g.enter t).node? t).isSome = true := by
  simp [enter]

theorem standingSettle {g g₁ : Graph} {t : TypeRef} (grows : (g.enter t).Grows g₁)
    (outcome : Progress) (u : TypeRef) :
    (g₁.mark t outcome).standing u = if t.same u then outcome else g₁.standing u := by
  obtain ⟨n, found⟩ := Option.isSome_iff_exists.mp (enterKnown g t)
  obtain ⟨n', found', _⟩ := grows.form t n found
  exact standingMark (by rw [found']; rfl) u outcome

theorem Grows.settle {g g₁ : Graph} {t : TypeRef} (grows : (g.enter t).Grows g₁)
    (fresh : g.standing t = .unrealized) {outcome : Progress}
    (ended : outcome = .failed ∨ ∃ e, outcome = .realized e) : g.Grows (g₁.mark t outcome) where
  registry := grows.registry
  settings := grows.settings
  started := grows.started
  finalized := grows.finalized
  verdicts := grows.verdicts
  journal := grows.journal
  form u n found := by
    obtain ⟨n', found', kept⟩ := enterForm g t found
    obtain ⟨n'', found'', kept'⟩ := grows.form u n' found'
    have whole : n.subject.isManaged = true → n''.subject = n.subject := by
      intro managed
      have same := kept managed
      rw [kept' (by rw [same]; exact managed), same]
    rw [nodeMark, found'']
    split
    · exact ⟨{ n'' with progress := outcome }, rfl, whole⟩
    · exact ⟨n'', rfl, whole⟩
  standing u := by
    rw [standingSettle grows]
    by_cases same : t.same u
    · rw [if_pos same, ← standingCongr (TypeRef.sameIff.mp same), fresh]
      exact .inr ⟨rfl, ended⟩
    · have step := grows.standing u
      simpa [same] using step

end Graph

end Realization
