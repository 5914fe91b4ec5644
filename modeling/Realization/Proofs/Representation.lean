import Realization.Proofs.Conformity
import Realization.Proofs.FirstMentions
import Realization.Proofs.Kinship

/-!
What the entries of a registry hold after any registrations: each rule under its subject and nowhere else,
each name that a rule mentions once and where it was first mentioned, and of every name the first managed
form. A name that is managed has one contract, which is a valid one.
-/
namespace Realization

namespace Entry

variable {t : TypeRef} {change : Entry → Entry} {entries : List Entry} {ms : List TypeRef}

theorem updateNames (keeps : ∀ e, (change e).type = e.type) (t : TypeRef) (entries : List Entry) :
    (update t change entries).map (·.type.name) =
      if t.name ∈ entries.map (·.type.name) then entries.map (·.type.name)
      else entries.map (·.type.name) ++ [t.name] := by
  induction entries with
  | nil => simp [update, keeps]
  | cons e rest ih =>
    unfold update
    by_cases here : e.type.same t
    · have named := TypeRef.sameIff.mp here
      simp [here, keeps, named]
    · have other : ¬ t.name = e.type.name := fun named => here (TypeRef.sameIff.mpr named.symm)
      rw [if_neg here, List.map_cons, ih, List.map_cons]
      by_cases later : t.name ∈ rest.map (·.type.name)
      · rw [if_pos later, if_pos (List.mem_cons_of_mem _ later)]
      · rw [if_neg later, if_neg (List.not_mem_cons_of_ne_of_not_mem other later), List.cons_append]

def Lists (entries : List Entry) (ms : List TypeRef) : Prop :=
  entries.map (·.type.name) = (ms.map (·.name)).eraseDups

theorem Lists.update (lists : Lists entries ms) (keeps : ∀ e, (change e).type = e.type) (t : TypeRef) :
    Lists (Entry.update t change entries) (ms ++ [t]) := by
  unfold Lists at lists ⊢
  rw [updateNames keeps, lists, List.map_append, List.map_singleton, eraseDupsSnoc]
  simp only [List.mem_eraseDups]

theorem Lists.updates (lists : Lists entries ms) (ts : List TypeRef) :
    Lists (ts.foldl (fun entries t => Entry.update t id entries) entries) (ms ++ ts) := by
  induction ts generalizing entries ms with
  | nil => rwa [List.append_nil]
  | cons t rest ih =>
    have later := ih (lists.update (fun _ => rfl) t)
    rwa [List.append_assoc, List.singleton_append] at later

def Files (e : Entry) (id : RuleId) : Prop := e.creator = some id ∨ id ∈ e.mutators

end Entry

namespace Registry

structure Represents (r : Registry) : Prop where
  names : Entry.Lists r.entries r.mentions
  once : (r.entries.map (·.type.name)).Nodup
  filed : ∀ id rule, r.rule? id = some rule →
    ∃ e ∈ r.entries, e.type.name = rule.subject.name ∧
      (e.creator = some id ↔ rule.creates = true) ∧ (id ∈ e.mutators ↔ rule.creates = false) ∧
      ∀ other ∈ r.entries, other.Files id → other = e
  creator : ∀ e ∈ r.entries, ∀ id, e.creator = some id → ∃ rule, r.rule? id = some rule ∧ rule.creates = true
  mutators : ∀ e ∈ r.entries, ∀ id ∈ e.mutators, ∃ rule, r.rule? id = some rule ∧ rule.creates = false
  ascending : ∀ e ∈ r.entries, e.mutators.Pairwise (· < ·)
  managed : ∀ e ∈ r.entries, e.managed = r.mentions.find? fun m => m.same e.type && m.isManaged
  agreed : Agreed r.mentions
  valid : ∀ d : Declaration, .managed d ∈ r.mentions → ∃ contract, (r.verdicts.validate d).1 = .ok contract
  initializers : ∀ rule ∈ r.rules, rule.isInitializer = true →
    ∃ e ∈ r.entries, e.type.name = rule.subject.name ∧ e.managed.isSome = true

variable {r : Registry} {e e' : Entry} {id : RuleId} {rule : Rule} {operations : List Operation}

theorem insertLists (lists : Entry.Lists r.entries r.mentions) (rule : Rule) :
    Entry.Lists (r.insert rule).entries (r.insert rule).mentions := by
  have listed := (lists.update (Entry.enlistType rule r.rules.length) rule.subject).updates rule.inputs
  rwa [List.append_assoc, List.singleton_append, ← Rule.mentions, ← mentionsInsert] at listed

theorem registerLists (sound : r.Sound) (lists : Entry.Lists r.entries r.mentions) (rule : Rule) :
    Entry.Lists (r.register rule).2.entries (r.register rule).2.mentions := by
  obtain ⟨verdicts, _, _, ⟨refusal, answer⟩ | ⟨answer, _⟩⟩ := registerCases sound rule <;> rw [answer]
  · exact lists
  · exact insertLists (r := { r with verdicts }) lists rule

theorem runLists (sound : r.Sound) (lists : Entry.Lists r.entries r.mentions) (operations : List Operation) :
    Entry.Lists (r.run operations).entries (r.run operations).mentions :=
  (sound.run (P := fun r => Entry.Lists r.entries r.mentions) lists
    (fun _ rule sound lists => registerLists sound lists rule) (fun _ lists => lists) operations).2

section

variable (lists : Entry.Lists r.entries r.mentions)
include lists

theorem listedOnce : (r.entries.map (·.type.name)).Nodup := by
  rw [lists]
  exact eraseDupsNodup _

theorem listedSame (inside : e ∈ r.entries) (inside' : e' ∈ r.entries)
    (named : e.type.name = e'.type.name) : e = e' :=
  List.inj_on_of_nodup_map (listedOnce lists) inside inside' named

theorem listedFound (inside : e ∈ r.entries) : r.entry? e.type = some e := by
  unfold entry?
  cases found : r.entries.find? (·.type.same e.type) with
  | none => simpa [TypeRef.same] using List.find?_eq_none.mp found e inside
  | some e' =>
    have named := TypeRef.sameIff.mp (List.find?_some (p := fun e' : Entry => e'.type.same e.type) found)
    rw [listedSame lists (List.mem_of_find?_eq_some found) inside named]

end

theorem numberedIff : (id, rule) ∈ r.numbered ↔ r.rule? id = some rule := by
  refine ⟨numberedRule, fun found => List.mem_map.mpr ⟨(rule, id), ?_, rfl⟩⟩
  exact List.mk_mem_zipIdx_iff_getElem?.mpr found

theorem numberedAscending (r : Registry) : (r.numbered.map (·.1)).Pairwise (· < ·) := by
  have range : r.numbered.map (·.1) = List.range r.rules.length := by
    simp [numbered, Function.comp_def, List.zipIdx_map_snd, List.range_eq_range']
  rw [range]
  exact List.pairwise_lt_range

theorem Indexed.creatorIff (indexed : r.Indexed) (lists : Entry.Lists r.entries r.mentions)
    (inside : e ∈ r.entries) :
    e.creator = some id ↔
      ∃ rule, r.rule? id = some rule ∧ rule.creates = true ∧ rule.subject.name = e.type.name := by
  have same := indexed.creator e.type
  rw [listedFound lists inside, Option.bind_some] at same
  rw [← Option.mem_toList, ← same]
  simp [creatorsOf, numberedIff, TypeRef.sameIff]

theorem Indexed.mutatorIff (indexed : r.Indexed) (lists : Entry.Lists r.entries r.mentions)
    (inside : e ∈ r.entries) :
    id ∈ e.mutators ↔
      ∃ rule, r.rule? id = some rule ∧ rule.creates = false ∧ rule.subject.name = e.type.name := by
  have same := indexed.mutators e.type
  rw [listedFound lists inside, Option.map_some, Option.getD_some] at same
  rw [← same]
  simp [mutatorsOf, numberedIff, TypeRef.sameIff]

theorem entryOf (lists : Entry.Lists r.entries r.mentions) {t : TypeRef} (mentioned : t ∈ r.mentions) :
    ∃ e ∈ r.entries, e.type.name = t.name := by
  have known : t.name ∈ r.entries.map (·.type.name) := by
    rw [lists]
    exact List.mem_eraseDups.mpr (List.mem_map_of_mem mentioned)
  exact List.mem_map.mp known

theorem subjectMentioned (member : rule ∈ r.rules) : rule.subject ∈ r.mentions :=
  List.mem_flatMap.mpr ⟨rule, member, List.mem_cons_self⟩

theorem Indexed.managedExact (indexed : r.Indexed) (lists : Entry.Lists r.entries r.mentions)
    (inside : e ∈ r.entries) : e.managed = r.mentions.find? fun m => m.same e.type && m.isManaged := by
  have same := indexed.managed e.type
  rwa [listedFound lists inside, Option.bind_some] at same

theorem Indexed.filed (indexed : r.Indexed) (lists : Entry.Lists r.entries r.mentions)
    (found : r.rule? id = some rule) :
    ∃ e ∈ r.entries, e.type.name = rule.subject.name ∧
      (e.creator = some id ↔ rule.creates = true) ∧ (id ∈ e.mutators ↔ rule.creates = false) ∧
      ∀ other ∈ r.entries, other.Files id → other = e := by
  obtain ⟨e, inside, named⟩ := entryOf lists (subjectMentioned (List.mem_of_getElem? found))
  -- a number stands for one rule, so whatever is said of the rule of this number is said of `rule`
  have only : ∀ {P : Rule → Prop}, (∃ other, r.rule? id = some other ∧ P other) ↔ P rule := by
    simp [found]
  refine ⟨e, inside, named, ?_, ?_, fun other inside' files => listedSame lists inside' inside ?_⟩
  · rw [indexed.creatorIff lists inside, only]
    exact and_iff_left named.symm
  · rw [indexed.mutatorIff lists inside, only]
    exact and_iff_left named.symm
  · rw [named]
    rcases files with creator | mutator
    · exact (only.mp ((indexed.creatorIff lists inside').mp creator)).2.symm
    · exact (only.mp ((indexed.mutatorIff lists inside').mp mutator)).2.symm

theorem Sound.represents (sound : r.Sound) (lists : Entry.Lists r.entries r.mentions)
    (agreed : Agreed r.mentions) : r.Represents where
  names := lists
  once := listedOnce lists
  filed _ _ := sound.indexed.filed lists
  creator e inside id same := by
    obtain ⟨rule, found, creates, _⟩ := (sound.indexed.creatorIff lists inside).mp same
    exact ⟨rule, found, creates⟩
  mutators e inside id member := by
    obtain ⟨rule, found, creates, _⟩ := (sound.indexed.mutatorIff lists inside).mp member
    exact ⟨rule, found, creates⟩
  ascending e inside := by
    have same := sound.indexed.mutators e.type
    rw [listedFound lists inside, Option.map_some, Option.getD_some] at same
    rw [← same]
    exact (numberedAscending r).sublist (List.filter_sublist.map _)
  managed _ := sound.indexed.managedExact lists
  agreed := agreed
  valid d mentioned := by
    obtain ⟨contract, known⟩ := sound.accepted _ mentioned d rfl
    exact ⟨contract, congrArg Prod.fst (Verdicts.validateKnown known)⟩
  initializers rule member initializer := by
    obtain ⟨t, mentioned, same, managed⟩ := sound.initializers rule member initializer
    obtain ⟨e, inside, named⟩ := entryOf lists (subjectMentioned member)
    refine ⟨e, inside, named, ?_⟩
    have here : t.same e.type = true := TypeRef.sameIff.mpr ((TypeRef.sameIff.mp same).trans named.symm)
    rw [sound.indexed.managedExact lists inside, List.find?_isSome]
    exact ⟨t, mentioned, Bool.and_eq_true_iff.mpr ⟨here, managed⟩⟩

def accepted (r : Registry) : List Operation → List Rule
  | [] => []
  | .register rule :: rest =>
    (if (r.register rule).1.isOk then [rule] else []) ++ (r.register rule).2.accepted rest
  | .freeze :: rest => r.freeze.accepted rest

theorem registerRules (sound : r.Sound) (rule : Rule) :
    (r.register rule).2.rules = r.rules ++ if (r.register rule).1.isOk then [rule] else [] := by
  obtain ⟨verdicts, _, _, ⟨refusal, answer⟩ | ⟨answer, _⟩⟩ := registerCases sound rule <;> rw [answer]
  · exact (List.append_nil _).symm
  · rfl

theorem runRules (sound : r.Sound) (operations : List Operation) :
    (r.run operations).rules = r.rules ++ r.accepted operations := by
  induction operations generalizing r with
  | nil => exact (List.append_nil _).symm
  | cons operation rest ih =>
    cases operation with
    | register rule =>
      have later := ih (registerSound sound rule)
      rwa [registerRules sound, List.append_assoc] at later
    | freeze => exact ih (freezeSound sound)

def Operation.mentions : Operation → List TypeRef
  | .register rule => rule.mentions
  | .freeze => []

theorem runLike {forms : List TypeRef} {origin : Verdicts} (apart : Apart forms)
    (inside : ∀ t ∈ operations.flatMap Operation.mentions, t ∈ forms)
    (like : Verdicts.Like forms origin r.verdicts) :
    Verdicts.Like forms origin (r.run operations).verdicts := by
  induction operations generalizing r with
  | nil => exact like
  | cons operation rest ih =>
    rw [List.flatMap_cons] at inside
    obtain ⟨here, tail⟩ := List.forall_mem_append.mp inside
    cases operation with
    | register rule => exact ih tail (registerLike apart here like)
    | freeze => exact ih tail like

theorem acceptedMentions {t : TypeRef} (mentioned : t ∈ (r.accepted operations).flatMap Rule.mentions) :
    t ∈ operations.flatMap Operation.mentions := by
  induction operations generalizing r with
  | nil => contradiction
  | cons operation rest ih =>
    rw [List.flatMap_cons]
    cases operation with
    | register rule =>
      rw [accepted, List.flatMap_append] at mentioned
      rcases List.mem_append.mp mentioned with here | later
      · split at here
        · rw [List.flatMap_singleton] at here
          exact List.mem_append_left _ here
        · contradiction
      · exact List.mem_append_right _ (ih later)
    | freeze => exact ih mentioned

theorem afterLike {forms : List TypeRef} (apart : Apart forms) {declarations : List Declaration}
    (inside : ∀ d ∈ declarations, .managed d ∈ forms) :
    Verdicts.Like forms {} (Verdicts.after declarations) := by
  suffices learnt : ∀ v : Verdicts, Verdicts.Like forms {} v →
      Verdicts.Like forms {} (declarations.foldl (fun verdicts d => (verdicts.validate d).2) v) from
    learnt {} fun _ _ => rfl
  induction declarations with
  | nil => exact fun v like => like
  | cons d rest ih =>
    obtain ⟨here, tail⟩ := List.forall_mem_cons.mp inside
    exact fun v like => ih tail _ (like.validate apart here)

theorem Represents.conforms (represents : r.Represents) {forms : List TypeRef}
    (like : Verdicts.Like forms {} r.verdicts) (inside : ∀ t ∈ r.mentions, t ∈ forms) {d : Declaration}
    (mentioned : .managed d ∈ r.mentions) : d.Conforms := by
  obtain ⟨contract, valid⟩ := represents.valid d mentioned
  have examined : Contract.ofDeclaration d = .ok contract := (like d (inside _ mentioned)).symm.trans valid
  exact (ofDeclarationSound examined).1

theorem registryRepresents (declarations : List Declaration) (operations : List Operation) :
    let start : Registry := { verdicts := Verdicts.after declarations }
    let r := start.run operations
    r.rules = start.accepted operations ∧ r.Represents ∧
      ((∀ d : Declaration, .managed d ∈ r.mentions → d.Conforms) ∨
        Collides (declarations.map .managed ++ operations.flatMap Operation.mentions)) := by
  intro start r
  have sound : start.Sound := soundEmpty (Verdicts.genuineAfter declarations)
  have reachable : r.Reachable := ⟨declarations, operations, rfl⟩
  have represents : r.Represents :=
    reachable.sound.represents (runLists sound rfl operations) reachable.agreed
  have rules : r.rules = start.accepted operations := runRules sound operations
  refine ⟨rules, represents, (apartOr _).imp_left fun apart d mentioned => ?_⟩
  have told : ∀ t ∈ r.mentions, t ∈ operations.flatMap Operation.mentions := by
    unfold Registry.mentions
    rw [rules]
    exact fun t => acceptedMentions
  refine represents.conforms (runLike apart (fun t => List.mem_append_right _) (afterLike apart ?_))
    (fun t member => List.mem_append_right _ (told t member)) mentioned
  exact fun d member => List.mem_append_left _ (List.mem_map_of_mem member)

end Registry

end Realization
