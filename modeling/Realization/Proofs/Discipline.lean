import Mathlib.Data.List.Sigma
import Realization.Proofs.Courses
import Realization.Proofs.Moments

/-!
The order in which bodies are started. The bodies of one type are started in the order of its rules,
none twice and none left out, each on inputs that are realized. Those of different types may be nested,
as one type is realized for the sake of another, but they never cross.
-/
namespace Realization.Graph

variable {r : Registry} {ids : List RuleId} {g g' : Graph} {t : TypeRef}

def Orderly (g : Graph) : Prop := Course g.registry none [] (ofRegistry {} {}) g g.starts

theorem Orderly.kept (orderly : g.Orderly) (rules : g.registry.rules <+: g'.registry.rules)
    (starts : g'.starts = g.starts) (standing : ∀ t, g'.standing t = g.standing t)
    (bodies : ∀ t, g.standing t ≠ .unrealized → g'.registry.bodiesOf t = g.registry.bodiesOf t) :
    g'.Orderly := by
  rw [Orderly, starts]
  exact (orderly.widen rules bodies).congr rfl starts (fun _ => rfl) standing

theorem Orderly.stays (orderly : g.Orderly) (stays : g.Stays g') : g'.Orderly := by
  refine orderly.kept ?_ ?_ stays.standing fun t _ => by rw [Registry.bodiesKept stays.rules]
  · exact stays.rules ▸ List.prefix_refl _
  · rw [starts, stays.journal, ← starts]

theorem Orderly.realize (orderly : g.Orderly) (resting : g.Resting) (t : TypeRef) :
    (g.realize t).2.Orderly := by
  have stays := g.startStays
  rcases realizeLeaves resting t with left | ⟨_, work⟩
  · rw [left]
    exact orderly.stays stays
  · have indexed := (stays.resting resting).coherent.sound.indexed
    obtain ⟨ids, course⟩ := work.course (r := g.start.2.registry) rfl indexed (fun u top => by contradiction)
      fun s id rule member => by simp at member
    have whole := (orderly.stays stays).andThen course (fun _ _ => rfl) work.grows.unrealized
    rw [Orderly, course.journal]
    exact whole.widen (work.grows.rules ▸ List.prefix_refl _) fun t _ => by
      rw [Registry.bodiesKept work.grows.rules]

theorem insertBodies (rule : Rule) {verdicts : Verdicts} (other : rule.subject.same t = false) :
    (Registry.insert { g.registry with verdicts } rule).bodiesOf t = g.registry.bodiesOf t := by
  simp only [Registry.bodiesOf, Registry.creatorsInsert, Registry.mutatorsInsert, other, Bool.and_false,
    Bool.false_eq_true, if_false, List.append_nil]
  rfl

theorem Orderly.register (orderly : g.Orderly) (resting : g.Resting) (rule : Rule) :
    (g.register rule).2.Orderly := by
  unfold Graph.register
  split
  · exact orderly
  · rename_i fresh
    obtain ⟨verdicts, within, genuine, ⟨refusal, answer⟩ | ⟨answer, _⟩⟩ :=
      Registry.registerCases resting.coherent.sound rule <;> rw [answer]
    · exact orderly.stays (g.staysRemember within fun _ => genuine)
    · let after : Graph := { g with registry := Registry.insert { g.registry with verdicts } rule }
      have registry := registryTracks rule.mentions after
      refine orderly.kept (g.insertAges rule verdicts).rules ?_ (standingTracks rule.mentions after) ?_
      · exact congrArg (fun journal => (journal.filterMap Event.start?).map (·.1))
          (journalTracks rule.mentions after)
      · intro t started
        refine (congrArg (fun r : Registry => r.bodiesOf t) registry).trans (insertBodies rule ?_)
        cases same : rule.subject.same t with
        | false => rfl
        | true =>
          rw [← standingCongr (TypeRef.sameIff.mp same), unstarted.mp fresh] at started
          contradiction

theorem Reachable.orderly (reachable : g.Reachable) : g.Orderly := by
  refine reachable.keeps ?fresh ?performs
  case fresh =>
    intro registry settings _
    have silent : (ofRegistry registry settings).starts = [] := by simp [starts]
    rw [Orderly, silent]
    exact .silent silent
  case performs =>
    intro h operation single reached orderly
    have resting := reached.resting
    cases operation with
    | register rule => exact orderly.register resting rule
    | finalize => exact orderly.stays h.finalizeStays
    | plan t => exact orderly.stays (planStays resting.coherent.sound.indexed t)
    | realize t => exact orderly.realize resting t
    | realizeAll => contradiction

theorem bodiesDistinct (r : Registry) (t : TypeRef) : (r.bodiesOf t).Nodup := by
  have distinct : (r.numbered.map (·.1)).Nodup := by
    rw [Registry.numbered, List.map_map]
    exact List.nodup_zipIdx_map_snd r.rules
  unfold Registry.bodiesOf
  rw [List.map_append, List.nodup_append]
  refine ⟨distinct.sublist (List.filter_sublist.map _), distinct.sublist (List.filter_sublist.map _), ?_⟩
  intro id creation id' mutation same
  obtain ⟨p, created, rfl⟩ := List.mem_map.mp creation
  obtain ⟨q, mutated, rfl⟩ := List.mem_map.mp mutation
  obtain ⟨inside, creates⟩ := List.mem_filter.mp created
  obtain ⟨inside', mutates⟩ := List.mem_filter.mp mutated
  have one : p.2 = q.2 := by
    have found := Registry.numberedRule inside
    rw [same, Registry.numberedRule inside'] at found
    exact (Option.some.inj found).symm
  rw [one, Bool.and_eq_true] at creates
  simp [creates.1] at mutates

theorem Orderly.once (orderly : g.Orderly) : g.starts.Nodup := by
  refine List.nodup_iff_sublist.mpr fun id twice => ?_
  obtain ⟨t, named, _⟩ := orderly.known (twice.subset List.mem_cons_self)
  have among := twice.filter fun id => decide (g.registry.subjectOf? id = some t.name)
  simp only [List.filter_cons, List.filter_nil, named, decide_true, if_true] at among
  have bodies := (orderly.ordered t (by simp)).sublist
  exact List.nodup_iff_sublist.mp ((bodiesDistinct g.registry t).sublist bodies) id among

structure Disciplined (g : Graph) : Prop where
  once : g.starts.Nodup
  ordered : ∀ t, g.startsOf t <+: g.registry.bodiesOf t
  supplied : ∀ k id locator, g.journal[k]? = some (.started id locator) →
    ∃ (g₀ : Graph) (t : TypeRef) (later : List Operation) (m : Moment) (rule : Rule) (inputs : Inputs),
      g₀.Reachable ∧ g = (g₀.realize t).2.run later ∧ g₀.Passes t m ∧
        m.graph.journal = g.journal.take k ∧ m.Starts id rule inputs ∧
          g.registry.rule? id = some rule ∧ rule.locator = locator ∧
            ∀ i ∈ rule.inputs, ∃ e, m.graph.progress? i = some (.realized e)
  uncrossed : ∀ s t s' t', [s, t, s', t'].Sublist g.starts →
    g.registry.subjectOf? s = g.registry.subjectOf? s' →
      g.registry.subjectOf? t = g.registry.subjectOf? t' →
        g.registry.subjectOf? s = g.registry.subjectOf? t
  registers : ∀ rule, (g.register rule).2.journal = g.journal
  finalizes : g.finalize.2.journal = g.journal
  plans : ∀ t, (g.plan t).2.journal = g.journal

theorem Moment.Starts.supplied {m : Moment} {id : RuleId} {rule : Rule} {inputs : Inputs}
    (starts : m.Starts id rule inputs) {i : TypeRef} (declared : i ∈ rule.inputs) :
    ∃ e, m.graph.progress? i = some (.realized e) := by
  have given := inputsForExact m.graph rule.inputs
  rw [starts.given] at given
  obtain ⟨e, found⟩ := inputsOfRead given.symm i declared
  exact ⟨e, standingProgress (storedIff.mp found) (by simp)⟩

theorem executionDiscipline (reachable : g.Reachable) : g.Disciplined := by
  have orderly := reachable.orderly
  have resting := reachable.resting
  refine ⟨orderly.once, fun t => orderly.ordered t (by simp), ?supplied, ?uncrossed,
    fun rule => registerJournal rule g, g.finalizeStays.journal,
    fun t => (planStays resting.coherent.sound.indexed t).journal⟩
  case supplied =>
    intro k id locator event
    obtain ⟨g₀, t, later, m, before, whole, passes, journal, rule, inputs, starts, located⟩ :=
      reachable.begins event
    refine ⟨g₀, t, later, m, rule, inputs, before, whole, passes, journal, starts, ?_, located,
      fun i declared => starts.supplied declared⟩
    have kept : m.graph.registry.rules <+: g.registry.rules := by
      rw [passes.onward.rules, whole]
      exact (realizeAges before.resting t).1.rules.trans
        (runAges (realizeResting before.resting t) later).1.rules
    exact Registry.ruleKept kept starts.known
  case uncrossed =>
    intro s t s' t' turns same same'
    have crossing := turns.map g.registry.subjectOf?
    simp only [List.map_cons, List.map_nil, ← same, ← same'] at crossing
    exact orderly.uncrossed _ _ crossing

theorem executionDisciplineList :
    (smallSession [.realize (.plain "List")]).starts = [0, 1, 2] ∧
      (smallSession [.realize (.plain "List")]).startsOf (.plain "List") <+:
        (smallSession [.realize (.plain "List")]).registry.bodiesOf (.plain "List") := by
  have started : (smallSession [.realize (.plain "List")]).starts = [0, 1, 2] := by decide +kernel
  exact ⟨started, (executionDiscipline (smallSessionReachable _)).ordered (.plain "List")⟩

end Realization.Graph
