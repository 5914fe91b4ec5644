import Realization.Proofs.VerdictMemory
import Realization.Registry.Basic

/-!
The index of a registry. Entries are kept beside the list of rules and never computed from it; what
they answer is nevertheless a function of the rules alone: the creation rules of a type, of which
there is at most one, its mutation rules in the order of registration, and its first managed form.
-/
namespace Realization

theorem TypeRef.sameIff {a b : TypeRef} : a.same b = true ↔ a.name = b.name := by
  simp [TypeRef.same]

@[simp] theorem TypeRef.sameSelf (t : TypeRef) : t.same t = true := by
  simp [TypeRef.same]

theorem TypeRef.sameCongr {t u : TypeRef} (named : t.name = u.name) (a : TypeRef) :
    a.same t = a.same u := by
  simp [TypeRef.same, named]

theorem TypeRef.plainExt {a b : TypeRef} (first : a.isManaged = false) (second : b.isManaged = false)
    (named : a.name = b.name) : a = b := by
  cases a <;> cases b <;> simp_all [TypeRef.isManaged, TypeRef.declaration?, TypeRef.name]

namespace Entry

def lookup (entries : List Entry) (t : TypeRef) : Option Entry := entries.find? (·.type.same t)

@[simp] theorem mentionType (e : Entry) (t : TypeRef) : (e.mention t).type = e.type := by
  unfold mention
  split <;> rfl

@[simp] theorem mentionCreator (e : Entry) (t : TypeRef) : (e.mention t).creator = e.creator := by
  unfold mention
  split <;> rfl

@[simp] theorem mentionMutators (e : Entry) (t : TypeRef) : (e.mention t).mutators = e.mutators := by
  unfold mention
  split <;> rfl

@[simp] theorem mentionManaged (e : Entry) (t : TypeRef) :
    (e.mention t).managed = e.managed.or (if t.isManaged then some t else none) := by
  unfold mention
  cases known : e.managed with
  | some m => simp [known]
  | none => by_cases managed : t.isManaged <;> simp [managed, known]

@[simp] theorem enlistType (rule : Rule) (id : RuleId) (e : Entry) : (enlist rule id e).type = e.type := by
  unfold enlist
  split <;> rfl

@[simp] theorem enlistCreator (rule : Rule) (id : RuleId) (e : Entry) :
    (enlist rule id e).creator = if rule.creates then some id else e.creator := by
  unfold enlist
  split <;> rfl

@[simp] theorem enlistMutators (rule : Rule) (id : RuleId) (e : Entry) :
    (enlist rule id e).mutators = if rule.creates then e.mutators else e.mutators ++ [id] := by
  unfold enlist
  split <;> rfl

@[simp] theorem enlistManaged (rule : Rule) (id : RuleId) (e : Entry) :
    (enlist rule id e).managed = e.managed := by
  unfold enlist
  split <;> rfl

theorem updateLookup {t : TypeRef} {change : Entry → Entry}
    (keeps : ∀ e, (change e).type = e.type) (entries : List Entry) (u : TypeRef) :
    lookup (update t change entries) u =
      if t.same u then some (change (((lookup entries u).getD { type := t }).mention t))
      else lookup entries u := by
  induction entries with
  | nil =>
    simp only [update, lookup, List.find?_cons, List.find?_nil, keeps, mentionType]
    by_cases same : t.same u <;> simp [same]
  | cons e rest ih =>
    unfold lookup at ih ⊢
    by_cases first : e.type.same t
    · have named : e.type.name = t.name := TypeRef.sameIff.mp first
      have agree : e.type.same u = t.same u := by simp [TypeRef.same, named]
      simp only [update, if_pos first, List.find?_cons, keeps, mentionType, agree]
      by_cases same : t.same u <;> simp [same]
    · simp only [update, if_neg first, List.find?_cons]
      by_cases here : e.type.same u
      · have other : ¬ t.same u = true := by
          intro same
          rw [TypeRef.sameIff] at first here same
          exact first (here.trans same.symm)
        simp [here, other]
      · simp only [Bool.not_eq_true] at here
        simp only [here, ih]

structure Noted (u : TypeRef) (mentions : List TypeRef) (before after : Option Entry) : Prop where
  creator : after.bind (·.creator) = before.bind (·.creator)
  mutators : (after.map (·.mutators)).getD [] = (before.map (·.mutators)).getD []
  managed : after.bind (·.managed) =
    (before.bind (·.managed)).or (mentions.find? fun m => m.same u && m.isManaged)
  type : after.map (·.type) = (before.map (·.type)).or (mentions.find? (·.same u))

theorem notedNone (u : TypeRef) (e : Option Entry) : Noted u [] e e :=
  ⟨rfl, rfl, by simp, by simp⟩

theorem Noted.trans {u : TypeRef} {ts us : List TypeRef} {a b c : Option Entry}
    (first : Noted u ts a b) (second : Noted u us b c) : Noted u (ts ++ us) a c where
  creator := second.creator.trans first.creator
  mutators := second.mutators.trans first.mutators
  managed := by rw [second.managed, first.managed, List.find?_append, Option.or_assoc]
  type := by rw [second.type, first.type, List.find?_append, Option.or_assoc]

theorem updateNoted (t u : TypeRef) (entries : List Entry) :
    Noted u [t] (lookup entries u) (lookup (update t id entries) u) := by
  rw [@updateLookup t id (fun _ => rfl)]
  by_cases same : t.same u
  · simp only [if_pos same, id_eq]
    cases lookup entries u with
    | none =>
      exact ⟨by simp, by simp, by simp [same, List.find?_cons]; split <;> simp_all, by simp [same]⟩
    | some e =>
      exact ⟨by simp, by simp, by simp [same, List.find?_cons]; split <;> simp_all, by simp⟩
  · simp only [if_neg same]
    exact ⟨rfl, rfl, by simp [same], by simp [same]⟩

theorem updatesNoted (ts : List TypeRef) (u : TypeRef) (entries : List Entry) :
    Noted u ts (lookup entries u)
      (lookup (ts.foldl (fun entries t => update t id entries) entries) u) := by
  induction ts generalizing entries with
  | nil => exact notedNone u _
  | cons t rest ih => exact (updateNoted t u entries).trans (ih _)

def Within (ts : List TypeRef) (e : Entry) : Prop :=
  e.type ∈ ts ∧ ∀ m, e.managed = some m → m ∈ ts

theorem mentionWithin {ts : List TypeRef} {e : Entry} (within : e.Within ts) {t : TypeRef}
    (listed : t ∈ ts) : (e.mention t).Within ts := by
  unfold mention
  split
  · exact ⟨within.1, fun m same => by cases same; exact listed⟩
  · exact within

theorem updateWithin {ts : List TypeRef} {t : TypeRef} (listed : t ∈ ts) {change : Entry → Entry}
    (keeps : ∀ e : Entry, e.Within ts → (change e).Within ts) {entries : List Entry}
    (within : ∀ e ∈ entries, e.Within ts) : ∀ e ∈ update t change entries, e.Within ts := by
  induction entries with
  | nil =>
    intro e member
    cases List.mem_singleton.mp member
    have fresh : Entry.Within ts { type := t } := ⟨listed, fun m same => by cases same⟩
    exact keeps _ (mentionWithin fresh listed)
  | cons first rest ih =>
    have tail := fun e member => within e (List.mem_cons_of_mem _ member)
    unfold update
    split
    · intro e member
      rcases List.mem_cons.mp member with rfl | member
      · exact keeps _ (mentionWithin (within first List.mem_cons_self) listed)
      · exact tail e member
    · intro e member
      rcases List.mem_cons.mp member with rfl | member
      · exact within e List.mem_cons_self
      · exact ih tail e member

end Entry

namespace Registry

def mentions (r : Registry) : List TypeRef := r.rules.flatMap Rule.mentions

def numbered (r : Registry) : List (RuleId × Rule) := r.rules.zipIdx.map fun p => (p.2, p.1)

/- The creation rules of `t`, were there more than one. -/
def creatorsOf (r : Registry) (t : TypeRef) : List (RuleId × Rule) :=
  r.numbered.filter fun p => p.2.creates && p.2.subject.same t

def mutatorsOf (r : Registry) (t : TypeRef) : List (RuleId × Rule) :=
  r.numbered.filter fun p => !p.2.creates && p.2.subject.same t

structure Indexed (r : Registry) : Prop where
  creator : ∀ t, (r.creatorsOf t).map (·.1) = ((r.entry? t).bind (·.creator)).toList
  mutators : ∀ t, (r.mutatorsOf t).map (·.1) = ((r.entry? t).map (·.mutators)).getD []
  managed : ∀ t, (r.entry? t).bind (·.managed) =
    r.mentions.find? fun m => m.same t && m.isManaged
  type : ∀ t, (r.entry? t).map (·.type) = r.mentions.find? (·.same t)

theorem Indexed.congr {r r' : Registry} (indexed : r.Indexed) (rules : r'.rules = r.rules)
    (entries : r'.entries = r.entries) : r'.Indexed := by
  obtain ⟨rules', entries', verdicts, frozen⟩ := r'
  cases rules
  cases entries
  exact ⟨indexed.creator, indexed.mutators, indexed.managed, indexed.type⟩

theorem creatorCongr {t u : TypeRef} (named : t.name = u.name) (r : Registry) :
    r.creator? t = r.creator? u := by
  simp only [creator?, entry?, TypeRef.sameCongr named]

theorem creatorKept {r r' : Registry} (rules : r'.rules = r.rules) (entries : r'.entries = r.entries)
    (t : TypeRef) : r'.creator? t = r.creator? t := by
  simp only [creator?, entry?, rule?, rules, entries]

theorem mutatorsKept {r r' : Registry} {s t : TypeRef} (rules : r'.rules = r.rules)
    (entries : r'.entries = r.entries) (named : s.name = t.name) : r'.mutators s = r.mutators t := by
  simp only [mutators, entry?, rule?, rules, entries, TypeRef.sameCongr named]

theorem numberedRule {r : Registry} {p : RuleId × Rule} (member : p ∈ r.numbered) :
    r.rule? p.1 = some p.2 := by
  obtain ⟨q, inside, rfl⟩ := List.mem_map.mp member
  exact List.mk_mem_zipIdx_iff_getElem?.mp inside

theorem numberedMember {r : Registry} {p : RuleId × Rule} (member : p ∈ r.numbered) :
    p.2 ∈ r.rules := List.mem_of_getElem? (numberedRule member)

theorem ruleNumbered {r : Registry} {rule : Rule} (member : rule ∈ r.rules) :
    ∃ id, (id, rule) ∈ r.numbered := by
  obtain ⟨id, found⟩ := List.mem_iff_getElem?.mp member
  exact ⟨id, List.mem_map.mpr ⟨(rule, id), List.mk_mem_zipIdx_iff_getElem?.mpr found, rfl⟩⟩

theorem readBack {r : Registry} {ps : List (RuleId × Rule)} (inside : ∀ p ∈ ps, p ∈ r.numbered) :
    (ps.map (·.1)).filterMap (fun id => (r.rule? id).map (id, ·)) = ps := by
  induction ps with
  | nil => rfl
  | cons p rest ih =>
    have found := numberedRule (inside p List.mem_cons_self)
    have tail := ih fun q member => inside q (List.mem_cons_of_mem _ member)
    simp only [List.map_cons, List.filterMap_cons, found, Option.map_some, tail]

theorem Indexed.creatorExact {r : Registry} (indexed : r.Indexed) (t : TypeRef) :
    (r.creator? t).toList = r.creatorsOf t := by
  have inside : ∀ p ∈ r.creatorsOf t, p ∈ r.numbered := fun p member => (List.mem_filter.mp member).1
  have back := readBack inside
  rw [indexed.creator t] at back
  unfold creator?
  cases entry : r.entry? t with
  | none => simpa [entry] using back
  | some e =>
    cases id : e.creator with
    | none => simpa [entry, id] using back
    | some id' =>
      cases rule : r.rule? id' with
      | none => simpa [entry, id, rule] using back
      | some rule' => simpa [entry, id, rule] using back

theorem Indexed.mutatorsExact {r : Registry} (indexed : r.Indexed) (t : TypeRef) :
    r.mutators t = r.mutatorsOf t := by
  unfold Registry.mutators
  rw [← indexed.mutators t]
  exact readBack fun p member => (List.mem_filter.mp member).1

theorem Indexed.resolveExact {r : Registry} (indexed : r.Indexed) (t : TypeRef) :
    r.resolve? t =
      (r.mentions.find? fun m => m.same t && m.isManaged).or (r.mentions.find? (·.same t)) := by
  have managed := indexed.managed t
  have type := indexed.type t
  unfold resolve?
  cases entry : r.entry? t with
  | none =>
    simp only [entry, Option.bind_none, Option.map_none] at managed type
    rw [← managed, ← type]
    rfl
  | some e =>
    simp only [entry, Option.bind_some, Option.map_some] at managed type
    rw [← managed, ← type]
    cases known : e.managed <;> simp [known]

theorem filteredRule {r : Registry} {p : RuleId × Rule} {keep : RuleId × Rule → Bool}
    (member : p ∈ r.numbered.filter keep) : r.rule? p.1 = some p.2 ∧ p.2 ∈ r.rules ∧ keep p = true := by
  obtain ⟨inside, kept⟩ := List.mem_filter.mp member
  exact ⟨numberedRule inside, numberedMember inside, kept⟩

theorem Indexed.creatorFound {r : Registry} (indexed : r.Indexed) {t : TypeRef} {id : RuleId}
    {rule : Rule} (found : r.creator? t = some (id, rule)) :
    r.rule? id = some rule ∧ rule ∈ r.rules ∧ rule.creates = true ∧ rule.subject.same t = true := by
  have member : (id, rule) ∈ r.creatorsOf t := by simp [← indexed.creatorExact, found]
  simpa using filteredRule member

theorem Indexed.mutatorFound {r : Registry} (indexed : r.Indexed) {t : TypeRef} {id : RuleId}
    {rule : Rule} (found : (id, rule) ∈ r.mutators t) :
    r.rule? id = some rule ∧ rule ∈ r.rules ∧ rule.creates = false ∧ rule.subject.same t = true := by
  rw [indexed.mutatorsExact] at found
  simpa using filteredRule found

theorem Indexed.resolveMentioned {r : Registry} (indexed : r.Indexed) {t u : TypeRef}
    (found : r.resolve? t = some u) : u ∈ r.mentions := by
  rw [indexed.resolveExact] at found
  rcases Option.or_eq_some_iff.mp found with managed | ⟨_, plain⟩
  · exact List.mem_of_find?_eq_some managed
  · exact List.mem_of_find?_eq_some plain

theorem Indexed.resolveManaged {r : Registry} (indexed : r.Indexed) {m : TypeRef}
    (mentioned : m ∈ r.mentions) :
    ∃ u, r.resolve? m = some u ∧ (m.isManaged = true → u.isManaged = true) := by
  rw [indexed.resolveExact]
  cases first : r.mentions.find? (fun u => u.same m && u.isManaged) with
  | some u =>
    have holds := List.find?_some first
    simp only [Bool.and_eq_true] at holds
    exact ⟨u, rfl, fun _ => holds.2⟩
  | none =>
    have absent := List.find?_eq_none.mp first m mentioned
    cases known : r.mentions.find? (·.same m) with
    | none =>
      have missing := List.find?_eq_none.mp known m mentioned
      simp [TypeRef.same] at missing
    | some u => exact ⟨u, rfl, fun managed => by simp [TypeRef.same, managed] at absent⟩

theorem Indexed.resolveName {r : Registry} (indexed : r.Indexed) {t u : TypeRef}
    (found : r.resolve? t = some u) : u.name = t.name := by
  rw [indexed.resolveExact] at found
  rcases Option.or_eq_some_iff.mp found with managed | ⟨_, plain⟩
  · have holds := List.find?_some managed
    simp only [Bool.and_eq_true, TypeRef.sameIff] at holds
    exact holds.1
  · exact TypeRef.sameIff.mp (List.find?_some (p := fun m : TypeRef => m.same t) plain)

theorem indexedEmpty (verdicts : Verdicts) : Indexed { verdicts } where
  creator _ := rfl
  mutators _ := rfl
  managed _ := rfl
  type _ := rfl

@[simp] theorem numberedInsert (r : Registry) (rule : Rule) :
    (r.insert rule).numbered = r.numbered ++ [(r.rules.length, rule)] := by
  simp [numbered, insert, List.zipIdx_append]

@[simp] theorem mentionsInsert (r : Registry) (rule : Rule) :
    (r.insert rule).mentions = r.mentions ++ rule.mentions := by
  simp [mentions, insert]

theorem filteredInsert (r : Registry) (rule : Rule) (keep : RuleId × Rule → Bool) :
    (r.insert rule).numbered.filter keep =
      r.numbered.filter keep ++ if keep (r.rules.length, rule) then [(r.rules.length, rule)] else [] := by
  rw [numberedInsert, List.filter_append, List.filter_cons, List.filter_nil]

theorem creatorsInsert (r : Registry) (rule : Rule) (t : TypeRef) :
    (r.insert rule).creatorsOf t = r.creatorsOf t ++
      if rule.creates && rule.subject.same t then [(r.rules.length, rule)] else [] := filteredInsert ..

theorem mutatorsInsert (r : Registry) (rule : Rule) (t : TypeRef) :
    (r.insert rule).mutatorsOf t = r.mutatorsOf t ++
      if !rule.creates && rule.subject.same t then [(r.rules.length, rule)] else [] := filteredInsert ..

theorem entryInsert (r : Registry) (rule : Rule) (t : TypeRef) :
    Entry.Noted t rule.inputs
      (if rule.subject.same t then
        some (Entry.enlist rule r.rules.length
          (((r.entry? t).getD { type := rule.subject }).mention rule.subject))
      else r.entry? t)
      (Registry.entry? (r.insert rule) t) := by
  have updated := Entry.updateLookup (Entry.enlistType rule r.rules.length) r.entries t
    (t := rule.subject)
  have noted := Entry.updatesNoted rule.inputs t
    (Entry.update rule.subject (Entry.enlist rule r.rules.length) r.entries)
  rw [updated] at noted
  exact noted

end Registry

end Realization
