import Realization.Proofs.Crossings
import Realization.Proofs.Shadows
import Realization.Proofs.Underway

/-!
The course of the bodies that a piece of work starts. The type under way runs its own bodies as its duties have
them; any other type is taken up within the work, runs its bodies in their order and is left for good.
-/
namespace Realization

def Duty.run? : Duty → Option RuleId
  | .run _ id _ => some id
  | _ => none

namespace Registry

def subjectOf? (r : Registry) (id : RuleId) : Option String := (r.rule? id).map (·.subject.name)

def bodiesOf (r : Registry) (t : TypeRef) : List RuleId :=
  (r.creatorsOf t ++ r.mutatorsOf t).map (·.1)

theorem subjectKept {r r' : Registry} (rules : r'.rules = r.rules) : r'.subjectOf? = r.subjectOf? := by
  funext id
  simp only [subjectOf?, rule?, rules]

theorem ruleKept {r r' : Registry} (rules : r.rules <+: r'.rules) {id : RuleId} {rule : Rule}
    (found : r.rule? id = some rule) : r'.rule? id = some rule := by
  obtain ⟨more, whole⟩ := rules
  obtain ⟨inside, _⟩ := List.getElem?_eq_some_iff.mp found
  rw [rule?, ← whole, List.getElem?_append_left inside]
  exact found

theorem bodiesKept {r r' : Registry} (rules : r'.rules = r.rules) : r'.bodiesOf = r.bodiesOf := by
  funext t
  simp only [bodiesOf, creatorsOf, mutatorsOf, numbered, rules]

theorem bodiesCongr {t u : TypeRef} (named : t.name = u.name) (r : Registry) :
    r.bodiesOf t = r.bodiesOf u := by
  simp only [bodiesOf, creatorsOf, mutatorsOf, TypeRef.sameCongr named]

theorem ruleRuns (s : TypeRef) (id : RuleId) (rule : Rule) :
    (rule.duties s id).filterMap Duty.run? = [id] := by
  have silent : ∀ types : List TypeRef,
      (types.map (Duty.input (some rule.locator))).filterMap Duty.run? = [] := by
    intro types
    induction types with
    | nil => rfl
    | cons t rest ih => exact ih
  rw [Rule.duties, List.filterMap_append, silent]
  rfl

theorem Indexed.dutiesRun {r : Registry} (indexed : r.Indexed) (below : List TypeRef)
    (via : Option Locator) (s : TypeRef) : (r.duties below via s).filterMap Duty.run? = r.bodiesOf s := by
  have creation : (r.creationDuties below via s).filterMap Duty.run? = (r.creatorsOf s).map (·.1) := by
    rw [← indexed.creatorExact]
    unfold creationDuties
    cases r.creator? s with
    | none =>
      dsimp only
      split <;> rfl
    | some p =>
      dsimp only
      rw [List.filterMap_append, ruleRuns]
      split <;> rfl
  have mutation : (r.mutationDuties s).filterMap Duty.run? = (r.mutatorsOf s).map (·.1) := by
    rw [← indexed.mutatorsExact]
    show ((r.mutators s).flatMap fun p => p.2.duties s p.1).filterMap Duty.run? = _
    rw [List.filterMap_flatMap, List.map_eq_flatMap]
    simp only [ruleRuns]
  rw [duties, List.filterMap_append, creation, mutation, bodiesOf, List.map_append]

end Registry

namespace Graph

def starts (g : Graph) : List RuleId := (g.journal.filterMap Event.start?).map (·.1)

def startsOf (g : Graph) (t : TypeRef) : List RuleId :=
  g.starts.filter fun id => decide (g.registry.subjectOf? id = some t.name)

/- What the starts `ids` of a piece of work have in common. The type under way runs its own bodies as
its duties have it, any other type is taken up within the work and left for good. -/
structure Course (r : Registry) (top : Option String) (runs : List RuleId) (g g' : Graph)
    (ids : List RuleId) : Prop where
  journal : g'.starts = g.starts ++ ids
  own : (ids.filter fun id => decide (r.subjectOf? id = top)) <+: runs
  other : ∀ id ∈ ids, r.subjectOf? id ≠ top → ∃ t : TypeRef, r.subjectOf? id = some t.name ∧
    g.standing t = .unrealized ∧ g'.standing t ≠ .unrealized
  ordered : ∀ t : TypeRef, some t.name ≠ top →
    (ids.filter fun id => decide (r.subjectOf? id = some t.name)) <+: r.bodiesOf t
  uncrossed : Uncrossed (ids.map r.subjectOf?)
  unsurrounded : Unsurrounded top (ids.map r.subjectOf?)

variable {r : Registry} {top : Option String} {runs : List RuleId} {g g₁ g' : Graph}
  {ids ids' : List RuleId} {t : TypeRef}

theorem Grows.unrealized (grows : g.Grows g') (t : TypeRef) (fresh : g'.standing t = .unrealized) :
    g.standing t = .unrealized :=
  (grows.standing t).fresh fresh

theorem noneOwned {a : Option String} :
    (ids.filter fun id => decide (r.subjectOf? id = a)) = [] ↔ a ∉ ids.map r.subjectOf? := by
  simp

namespace Course

theorem silent (same : g'.starts = g.starts) : Course r top runs g g' [] where
  journal := by rw [same, List.append_nil]
  own := List.nil_prefix
  other id member := by contradiction
  ordered t _ := List.nil_prefix
  uncrossed a b turns := by simp at turns
  unsurrounded a found := by simp at found

theorem congr {h h' : Graph} (course : Course r top runs g g' ids) (same : h.starts = g.starts)
    (same' : h'.starts = g'.starts) (standing : ∀ t, h.standing t = g.standing t)
    (standing' : ∀ t, h'.standing t = g'.standing t) : Course r top runs h h' ids where
  journal := by rw [same', course.journal, same]
  own := course.own
  other id member foreign := by
    obtain ⟨t, named, fresh, ended⟩ := course.other id member foreign
    exact ⟨t, named, (standing t).trans fresh, by rwa [standing']⟩
  ordered := course.ordered
  uncrossed := course.uncrossed
  unsurrounded := course.unsurrounded

theorem start {id : RuleId} (course : Course r top runs g₁ g' ids) (own : r.subjectOf? id = top)
    (started : g₁.starts = g.starts ++ [id]) (standing : ∀ t, g₁.standing t = g.standing t) :
    Course r top (id :: runs) g g' (id :: ids) where
  journal := by rw [course.journal, started, List.append_assoc, List.singleton_append]
  own := by
    rw [List.filter_cons_of_pos (by simpa using own), List.cons_prefix_cons]
    exact ⟨rfl, course.own⟩
  other id' member foreign := by
    rcases List.mem_cons.mp member with rfl | member
    · exact absurd own foreign
    · obtain ⟨t, named, fresh, ended⟩ := course.other id' member foreign
      exact ⟨t, named, (standing t).symm.trans fresh, ended⟩
  ordered t foreign := by
    rw [List.filter_cons_of_neg (by simpa [own] using foreign.symm)]
    exact course.ordered t foreign
  uncrossed := by
    rw [List.map_cons, own]
    exact uncrossedCons course.uncrossed course.unsurrounded
  unsurrounded := by
    rw [List.map_cons, own]
    exact unsurroundedCons course.unsurrounded

theorem andThen (first : Course r top [] g g₁ ids) (second : Course r top runs g₁ g' ids')
    (before : ∀ t, g₁.standing t = .unrealized → g.standing t = .unrealized)
    (after : ∀ t, g'.standing t = .unrealized → g₁.standing t = .unrealized) :
    Course r top runs g g' (ids ++ ids') := by
  have none : (ids.filter fun id => decide (r.subjectOf? id = top)) = [] := List.prefix_nil.mp first.own
  have absent : top ∉ ids.map r.subjectOf? := noneOwned.mp none
  have foreign : ∀ id ∈ ids, r.subjectOf? id ≠ top :=
    fun id member same => absent (List.mem_map.mpr ⟨id, member, same⟩)
  -- what the first piece of work took up it has left, so the second does not take it up again
  have apart : ∀ a ∈ ids.map r.subjectOf?, a ∉ ids'.map r.subjectOf? := by
    intro a member member'
    obtain ⟨id, inside, rfl⟩ := List.mem_map.mp member
    obtain ⟨id', inside', same⟩ := List.mem_map.mp member'
    obtain ⟨t, named, _, ended⟩ := first.other id inside (foreign id inside)
    obtain ⟨t', named', fresh, _⟩ := second.other id' inside' (same ▸ foreign id inside)
    have equal : t'.name = t.name := Option.some.inj (named'.symm.trans (same.trans named))
    exact ended ((standingCongr equal g₁).symm.trans fresh)
  refine ⟨?journal, ?own, ?other, ?ordered, ?uncrossed, ?unsurrounded⟩
  case journal => rw [second.journal, first.journal, List.append_assoc]
  case own =>
    rw [List.filter_append, none, List.nil_append]
    exact second.own
  case other =>
    intro id member strange
    rcases List.mem_append.mp member with early | late
    · obtain ⟨t, named, fresh, ended⟩ := first.other id early strange
      exact ⟨t, named, fresh, fun unrealized => ended (after t unrealized)⟩
    · obtain ⟨t, named, fresh, ended⟩ := second.other id late strange
      exact ⟨t, named, before t fresh, ended⟩
  case ordered =>
    intro t strange
    rw [List.filter_append]
    by_cases started : some t.name ∈ ids.map r.subjectOf?
    · rw [noneOwned.mpr (apart _ started), List.append_nil]
      exact first.ordered t strange
    · rw [noneOwned.mpr started, List.nil_append]
      exact second.ordered t strange
  case uncrossed =>
    rw [List.map_append]
    exact uncrossedAppend first.uncrossed second.uncrossed apart
  case unsurrounded =>
    rw [List.map_append]
    exact unsurroundedAppend absent second.unsurrounded apart

theorem turn (outcome : Progress) (course : Course r (some t.name) (r.bodiesOf t) (g.enter t) g₁ ids)
    (grows : (g.enter t).Grows g₁) (fresh : g.standing t = .unrealized) (ended : outcome ≠ .unrealized)
    (busy : ∀ u : TypeRef, top = some u.name → g.standing u = .realizing) :
    Course r top [] g (g₁.mark t outcome) ids := by
  have taken : ∀ id ∈ ids, ∃ u : TypeRef, r.subjectOf? id = some u.name ∧
      g.standing u = .unrealized ∧ (g₁.mark t outcome).standing u ≠ .unrealized := by
    intro id member
    by_cases own : r.subjectOf? id = some t.name
    · refine ⟨t, own, fresh, ?_⟩
      simpa [standingSettle grows] using ended
    · obtain ⟨u, named, unrealized, left⟩ := course.other id member own
      have other : ¬ t.same u = true := by
        intro same
        rw [named, TypeRef.sameIff.mp same] at own
        exact own rfl
      exact ⟨u, named, by simpa [other] using unrealized, by simpa [standingSettle grows, other] using left⟩
  have absent : top ∉ ids.map r.subjectOf? := by
    intro member
    obtain ⟨id, inside, own⟩ := List.mem_map.mp member
    obtain ⟨u, named, unrealized, _⟩ := taken id inside
    have held := busy u (own.symm.trans named)
    rw [unrealized] at held
    contradiction
  refine ⟨course.journal, ?own, fun id member _ => taken id member, ?ordered, course.uncrossed, ?unsurrounded⟩
  case own => exact List.prefix_nil.mpr (noneOwned.mpr absent)
  case ordered =>
    intro u _
    by_cases same : t.name = u.name
    · rw [← same, ← Registry.bodiesCongr same]
      exact course.own
    · exact course.ordered u fun named => same (Option.some.inj named).symm
  case unsurrounded => exact unsurroundedAbsent absent

end Course

@[simp] theorem ranStarts (g : Graph) (id : RuleId) (rule : Rule) (outcome : Outcome Element) :
    (g.ran id rule outcome).starts = g.starts ++ [id] := by
  have silent : (outcome.notes.map Event.noted).filterMap Event.start? = [] := by
    induction outcome.notes with
    | nil => rfl
    | cons note rest ih => exact ih
  unfold starts ran record
  dsimp only
  rw [List.filterMap_append, List.filterMap_cons_some (by rfl), silent, List.map_append]
  rfl

def topName (stack : List TypeRef) : Option String := stack.getLast?.map (·.name)

@[simp] theorem topNamePushed (stack : List TypeRef) (s : TypeRef) : topName (stack ++ [s]) = some s.name := by
  simp [topName]

variable {limit : Nat} {stack : List TypeRef} {duties : List Duty} {own : Option Element}
  {result : Except Fault (Option Element)} {s : TypeRef}

theorem enteredBusy (u : TypeRef) (top : topName (stack ++ [s]) = some u.name) :
    (g.enter s).standing u = .realizing := by
  rw [topNamePushed] at top
  simp [TypeRef.sameIff.mpr (Option.some.inj top)]

theorem dutyOwned (indexed : g.registry.Indexed) {below : List TypeRef} {via : Option Locator}
    {subject : TypeRef} {id : RuleId} {rule : Rule}
    (member : .run subject id rule ∈ g.registry.duties below via s) :
    topName (stack ++ [s]) = some subject.name := by
  rw [topNamePushed, indexed.dutyOwner member rfl]

theorem subjectTop {id : RuleId} {rule : Rule} (rules : g.registry.rules = r.rules)
    (known : g.registry.rule? id = some rule) (applies : rule.subject.same s = true)
    (top : topName stack = some s.name) : r.subjectOf? id = topName stack := by
  rw [← Registry.subjectKept rules, Registry.subjectOf?, known, top, Option.map_some,
    TypeRef.sameIff.mp applies]

theorem Course.taken (outcome : Progress) (rules : g.registry.rules = r.rules) (indexed : g.registry.Indexed)
    (inside : ∃ ids, Course r (topName (stack ++ [s])) ((g.registry.duties stack via s).filterMap Duty.run?)
      (g.enter s) g₁ ids)
    (grows : (g.enter s).Grows g₁) (fresh : g.standing s = .unrealized) (ended : outcome ≠ .unrealized)
    (busy : ∀ u : TypeRef, topName stack = some u.name → g.standing u = .realizing) :
    ∃ ids, Course r (topName stack) [] g (g₁.mark s outcome) ids := by
  obtain ⟨ids, course⟩ := inside
  rw [topNamePushed, indexed.dutiesRun, Registry.bodiesKept rules] at course
  exact ⟨ids, course.turn outcome grows fresh ended busy⟩

theorem Work.course (work : Work limit stack duties own g result g')
    (rules : g.registry.rules = r.rules) (indexed : g.registry.Indexed)
    (busy : ∀ u : TypeRef, topName stack = some u.name → g.standing u = .realizing)
    (owned : ∀ s id rule, .run s id rule ∈ duties → topName stack = some s.name) :
    ∃ ids, Course r (topName stack) (duties.filterMap Duty.run?) g g' ids := by
  induction work with
  | done | lacking | unsynthesized | failed | cyclic | deep => exact ⟨[], .silent rfl⟩
  | synthesized _ _ ih =>
    obtain ⟨ids, course⟩ := ih rules (indexed.congr rfl rfl) busy
      fun s id rule member => owned s id rule (List.mem_cons_of_mem _ member)
    exact ⟨ids, course.congr rfl rfl (fun _ => rfl) fun _ => rfl⟩
  | present _ _ _ ih =>
    obtain ⟨ids, course⟩ := ih rules indexed (fun u top => (standingTrack _ _ u).trans (busy u top))
      fun s id rule member => owned s id rule (List.mem_cons_of_mem _ member)
    exact ⟨ids, course.congr rfl rfl (fun u => (standingTrack _ _ u).symm) fun _ => rfl⟩
  | ran known applies _ _ _ _ ih =>
    obtain ⟨ids, course⟩ := ih rules indexed busy
      fun s id rule member => owned s id rule (List.mem_cons_of_mem _ member)
    have top := subjectTop rules known applies (owned _ _ _ List.mem_cons_self)
    exact ⟨_, course.start top (ranStarts _ _ _ _) fun _ => rfl⟩
  | broke known applies =>
    have top := subjectTop rules known applies (owned _ _ _ List.mem_cons_self)
    exact ⟨_, (Course.silent rfl).start top (ranStarts _ _ _ _) fun _ => rfl⟩
  | @built _ _ _ _ _ _ e _ _ _ _ fresh _ inner later ih ih' =>
    have inside := ih rules indexed enteredBusy fun _ _ _ member => dutyOwned indexed member
    obtain ⟨ids, turn⟩ := Course.taken (.realized e) rules indexed inside inner.grows fresh (by simp) busy
    have grows := inner.grows.settle fresh (.inr ⟨e, rfl⟩)
    obtain ⟨ids', course⟩ := ih' (grows.rules.trans rules) (indexed.congr grows.rules grows.entries)
      (fun u top => (grows.realizing u).mpr (busy u top))
      fun s id rule member => owned s id rule (List.mem_cons_of_mem _ member)
    exact ⟨_, turn.andThen course grows.unrealized later.grows.unrealized⟩
  | unbuilt _ fresh _ inner ih =>
    have inside := ih rules indexed enteredBusy fun _ _ _ member => dutyOwned indexed member
    obtain ⟨ids, turn⟩ := Course.taken .failed rules indexed inside inner.grows fresh (by simp) busy
    exact ⟨_, turn.andThen (.silent rfl) (inner.grows.settle fresh (.inl rfl)).unrealized fun _ => id⟩

namespace Course

variable {r' : Registry}

theorem known (course : Course r none [] g g' ids) {id : RuleId} (member : id ∈ ids) :
    ∃ t : TypeRef, r.subjectOf? id = some t.name ∧ g.standing t = .unrealized ∧
      g'.standing t ≠ .unrealized := by
  have absent : none ∉ ids.map r.subjectOf? := noneOwned.mp (List.prefix_nil.mp course.own)
  exact course.other id member fun same => absent (List.mem_map.mpr ⟨id, member, same⟩)

theorem widen (course : Course r none [] g g' ids) (rules : r.rules <+: r'.rules)
    (bodies : ∀ t, g'.standing t ≠ .unrealized → r'.bodiesOf t = r.bodiesOf t) :
    Course r' none [] g g' ids := by
  have same : ∀ id ∈ ids, r'.subjectOf? id = r.subjectOf? id := by
    intro id member
    obtain ⟨t, named, _⟩ := course.known member
    obtain ⟨rule, found, _⟩ := Option.map_eq_some_iff.mp named
    simp only [Registry.subjectOf?, found, Registry.ruleKept rules found]
  have filtered : ∀ a : Option String, (ids.filter fun id => decide (r'.subjectOf? id = a)) =
      ids.filter fun id => decide (r.subjectOf? id = a) := by
    intro a
    refine List.filter_congr fun id member => ?_
    rw [same id member]
  have mapped : ids.map r'.subjectOf? = ids.map r.subjectOf? := List.map_congr_left same
  refine ⟨course.journal, ?own, ?other, ?ordered, ?uncrossed, ?unsurrounded⟩
  case own =>
    rw [filtered]
    exact course.own
  case other =>
    intro id member _
    obtain ⟨t, named, taken⟩ := course.known member
    exact ⟨t, (same id member).trans named, taken⟩
  case ordered =>
    intro t _
    rw [filtered]
    by_cases fresh : g'.standing t = .unrealized
    · have absent : some t.name ∉ ids.map r.subjectOf? := by
        intro member
        obtain ⟨id, inside, own⟩ := List.mem_map.mp member
        obtain ⟨u, named, _, settled⟩ := course.known inside
        exact settled ((standingCongr (Option.some.inj (named.symm.trans own)) g').trans fresh)
      rw [noneOwned.mpr absent]
      exact List.nil_prefix
    · rw [bodies t fresh]
      exact course.ordered t (by simp)
  case uncrossed =>
    rw [mapped]
    exact course.uncrossed
  case unsurrounded =>
    rw [mapped]
    exact course.unsurrounded

end Course

end Graph

end Realization
