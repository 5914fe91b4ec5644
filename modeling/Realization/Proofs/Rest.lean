import Realization.Proofs.Stays

/-!
Graphs are at rest between the operations of a session: whatever was asked of a graph before, no realization is
under way and the graph is coherent.
-/
namespace Realization.Graph

variable {g g' : Graph}

theorem Work.resting {limit : Nat} {stack : List TypeRef} {duties : List Duty} {own : Option Element}
    {result : Except Fault (Option Element)} (work : Work limit stack duties own g result g')
    (resting : g.Resting) (bounded : g.settings.maxDepth = limit) : g'.Resting where
  coherent := work.coherent resting.coherent bounded
  quiet t busy := resting.quiet t ((work.grows.realizing t).mp busy)

theorem requestWorks (indexed : g.registry.Indexed) (t : TypeRef) :
    Works g.settings.maxDepth [] [.input none t] none g (fun _ => none)
      (realizeNode g.settings.maxDepth [] none t g) :=
  realizeNodeWorks g.settings.maxDepth rfl none t g none ⟨indexed, rfl⟩ (.request t)

theorem realizeRun {h : Graph} (opening : g.start = (.ok (), h)) (indexed : h.registry.Indexed)
    (t : TypeRef) :
    ∃ result h', Work h.settings.maxDepth [] [.input none t] none h result h' ∧
      ((∃ e, result = .ok none ∧ g.realize t = (.ok e, h') ∧ h'.stored t = some e) ∨
        ∃ fault, result = .error fault ∧ g.realize t = (.error fault, h')) := by
  have works := requestWorks indexed t
  unfold realize
  rw [opening]
  dsimp only
  rcases entered : realizeNode h.settings.maxDepth [] none t h with ⟨fault | _, h'⟩ <;>
    rw [entered] at works
  · exact ⟨.error fault, h', works, .inr ⟨fault, rfl, rfl⟩⟩
  · obtain ⟨e, found⟩ := Work.obtained works indexed (List.mem_singleton_self _)
    refine ⟨.ok none, h', works, .inl ⟨e, rfl, ?_, found⟩⟩
    dsimp only
    rw [storedElement found]

theorem realizeWork {h : Graph} (opening : g.start = (.ok (), h)) (indexed : h.registry.Indexed)
    (t : TypeRef) :
    ∃ result, Work h.settings.maxDepth [] [.input none t] none h result (g.realize t).2 := by
  obtain ⟨result, h', work, ⟨e, _, answer, _⟩ | ⟨fault, _, answer⟩⟩ := realizeRun opening indexed t <;>
  · rw [answer]
    exact ⟨result, work⟩

theorem realizeLeaves (resting : g.Resting) (t : TypeRef) : (g.realize t).2 = g.start.2 ∨
    ∃ result, Work g.start.2.settings.maxDepth [] [.input none t] none g.start.2 result (g.realize t).2 := by
  have started := g.startStays.resting resting
  rcases opening : g.start with ⟨fault | _, h⟩ <;> rw [opening] at started
  · left
    unfold realize
    rw [opening]
  · exact .inr (realizeWork opening started.coherent.sound.indexed t)

theorem realizeResting (resting : g.Resting) (t : TypeRef) : (g.realize t).2.Resting := by
  have started := g.startStays.resting resting
  rcases realizeLeaves resting t with left | ⟨_, work⟩
  · rw [left]
    exact started
  · exact work.resting started rfl

def news {α : Type} : Except Fault α → List Fault
  | .ok _ | .error (.previouslyFailed _) => []
  | .error fault => [fault]

theorem realizeEachTurn (t : TypeRef) (ts : List TypeRef) (g : Graph) :
    realizeEach (t :: ts) g = (news (g.realize t).1 ++ (realizeEach ts (g.realize t).2).1,
      (realizeEach ts (g.realize t).2).2) := by
  simp only [realizeEach]
  rcases g.realize t with ⟨fault | e, g₁⟩
  · cases fault <;> rfl
  · rfl

theorem realizeEachFaults (t : TypeRef) (ts : List TypeRef) (g : Graph) :
    (realizeEach (t :: ts) g).1 = news (g.realize t).1 ++ (realizeEach ts (g.realize t).2).1 := by
  rw [realizeEachTurn]

theorem realizeEachNext (t : TypeRef) (ts : List TypeRef) (g : Graph) :
    (realizeEach (t :: ts) g).2 = (realizeEach ts (g.realize t).2).2 := by
  rw [realizeEachTurn]

theorem realizeEachResting (ts : List TypeRef) (resting : g.Resting) :
    (realizeEach ts g).2.Resting := by
  induction ts generalizing g with
  | nil => exact resting
  | cons t rest ih =>
    rw [realizeEachNext]
    exact ih (realizeResting resting t)

theorem growsTracks (ts : List TypeRef) (g : Graph) : g.Grows (ts.foldl track g) := by
  induction ts generalizing g with
  | nil => exact growsRefl g
  | cons t rest ih => exact (growsTrack g t).trans (ih _)

@[simp] theorem standingTracks (ts : List TypeRef) (g : Graph) (u : TypeRef) :
    (ts.foldl track g).standing u = g.standing u := by
  induction ts generalizing g with
  | nil => rfl
  | cons t rest ih => exact (ih _).trans (standingTrack g t u)

@[simp] theorem registryTracks (ts : List TypeRef) (g : Graph) :
    (ts.foldl track g).registry = g.registry := by
  rw [tracksNodes]

theorem distinctTracks (ts : List TypeRef) {g : Graph}
    (distinct : (g.nodes.map (·.subject.name)).Nodup) :
    ((ts.foldl track g).nodes.map (·.subject.name)).Nodup := by
  rw [tracksNodes]
  exact Node.tracksDistinct ts distinct

theorem knownTracks {ts : List TypeRef} (g : Graph) {m : TypeRef} (member : m ∈ ts) :
    ∃ n, (ts.foldl track g).node? m = some n ∧ (m.isManaged = true → n.subject.isManaged = true) := by
  induction ts generalizing g with
  | nil => contradiction
  | cons t rest ih =>
    rcases List.mem_cons.mp member with rfl | member
    · have here := nodeTrack g m m
      rw [if_pos (TypeRef.sameSelf _)] at here
      obtain ⟨n', found, kept⟩ := (growsTracks rest (g.track m)).form m _ here
      refine ⟨n', found, fun managed => ?_⟩
      have form := Node.mentionForm ((g.node? m).getD { subject := m }) managed
      rw [kept form]
      exact form
    · exact ih (g.track t) member

theorem originTracks (ts : List TypeRef) (g : Graph) {t : TypeRef} {n : Node}
    (found : (ts.foldl track g).node? t = some n) :
    (∃ n₀, g.node? t = some n₀ ∧ n₀.subject = n.subject ∧ n₀.progress = n.progress) ∨
      n.subject ∈ ts := by
  induction ts generalizing g with
  | nil => exact .inl ⟨n, found, rfl, rfl⟩
  | cons u rest ih =>
    rcases ih (g.track u) found with ⟨n₀, before, form, progress⟩ | listed
    · rw [nodeTrack] at before
      split at before
      · rename_i same
        cases known : g.node? t with
        | none =>
          simp only [known, Option.getD_none, Option.some.injEq] at before
          subst before
          right
          rw [← form]
          simp [Node.mention]
        | some x =>
          simp only [known, Option.getD_some, Option.some.injEq] at before
          subst before
          rcases Node.mentionCases x u with kept | taken
          · rw [kept] at form progress
            exact .inl ⟨x, rfl, form, progress⟩
          · rw [taken] at form
            exact .inr (by rw [← form]; exact List.mem_cons_self)
      · exact .inl ⟨n₀, before, form, progress⟩
    · exact .inr (List.mem_cons_of_mem _ listed)

@[simp] theorem registryOfRegistry (r : Registry) (settings : Settings) : (ofRegistry r settings).registry = r :=
  registryTracks _ _

@[simp] theorem standingOfRegistry (r : Registry) (settings : Settings) (t : TypeRef) :
    (ofRegistry r settings).standing t = .unrealized :=
  standingTracks _ _ t

theorem ofRegistrySpoken {r : Registry} (sound : r.Sound) (settings : Settings) {t : TypeRef} {n : Node}
    (found : (ofRegistry r settings).node? t = some n) : n.subject ∈ r.mentions := by
  rcases originTracks _ _ found with ⟨n₀, before, _⟩ | listed
  · contradiction
  · obtain ⟨e, member, form⟩ := List.mem_map.mp listed
    obtain ⟨type, managed⟩ := sound.listed e member
    rw [← form]
    cases known : e.managed with
    | none => exact type
    | some m => exact managed m known

theorem ofRegistryTracked {r : Registry} (sound : r.Sound) (settings : Settings) : (ofRegistry r settings).Tracked := by
  intro m mentioned
  rw [registryOfRegistry] at mentioned
  obtain ⟨u, resolved, managed⟩ := sound.indexed.resolveManaged mentioned
  obtain ⟨e, entry, form⟩ := Option.map_eq_some_iff.mp resolved
  have listed : u ∈ r.entries.map fun e => e.managed.getD e.type :=
    List.mem_map.mpr ⟨e, List.mem_of_find?_eq_some entry, form⟩
  obtain ⟨n, found, keeps⟩ := knownTracks { registry := r, settings := settings.withMaxDepth settings.maxDepth } listed
  exact ⟨n, (nodeCongr (sound.indexed.resolveName resolved) _).symm.trans found,
    fun isManaged => keeps (managed isManaged)⟩

theorem ofRegistryResting {r : Registry} (sound : r.Sound) (settings : Settings) :
    (ofRegistry r settings).Resting where
  coherent :=
    { sound := by simpa using sound
      depth := by
        rw [ofRegistry, (growsTracks _ _).settings]
        exact Nat.le_max_right _ _
      tracked := ofRegistryTracked sound settings
      distinct := distinctTracks _ List.nodup_nil
      formed := fun t n found _ _ => by simpa using ofRegistrySpoken sound settings found
      truthful := fun t e found => by simp [storedIff] at found }
  quiet t := by simp

theorem unstarted {t : TypeRef} : ¬ g.hasStarted t = true ↔ g.standing t = .unrealized := by
  unfold hasStarted standing
  cases g.progress? t <;> simp [Progress.isStarted]

theorem Coherent.learn (coherent : g.Coherent) {rule : Rule} {verdicts : Verdicts}
    (fresh : g.standing rule.subject = .unrealized) (within : g.registry.verdicts.Within verdicts)
    (sound : (Registry.insert { g.registry with verdicts } rule).Sound) :
    (rule.mentions.foldl Graph.track
      { g with registry := Registry.insert { g.registry with verdicts } rule }).Coherent := by
  let after : Graph := { g with registry := Registry.insert { g.registry with verdicts } rule }
  have standing : ∀ t, (rule.mentions.foldl Graph.track after).standing t = g.standing t :=
    standingTracks rule.mentions after
  have mentions : after.registry.mentions = g.registry.mentions ++ rule.mentions :=
    Registry.mentionsInsert _ rule
  have grown := growsTracks rule.mentions after
  have ext : g.Extends (rule.mentions.foldl Graph.track after) :=
    ⟨within.trans grown.verdicts, grown.form, fun t e found => by simpa only [stored, standing] using found⟩
  refine ⟨by simpa using sound, by rw [grown.settings]; exact coherent.depth, ?tracked,
    distinctTracks rule.mentions coherent.distinct, ?formed, ?truthful⟩
  case tracked =>
    intro m mentioned
    rw [registryTracks, mentions] at mentioned
    rcases List.mem_append.mp mentioned with old | new
    · obtain ⟨n, found, keeps⟩ := coherent.tracked m old
      obtain ⟨n', found', kept⟩ := ext.form m n found
      refine ⟨n', found', fun managed => ?_⟩
      rw [kept (keeps managed)]
      exact keeps managed
    · exact knownTracks after new
  case formed =>
    intro t n found unrealized managed
    rw [registryTracks, mentions]
    rcases originTracks rule.mentions after found with ⟨n₀, before, form, progress⟩ | listed
    · rw [← form]
      exact List.mem_append_left _ (coherent.formed t n₀ before (progress.trans unrealized)
        (by rw [form]; exact managed))
    · exact List.mem_append_right _ listed
  case truthful =>
    refine coherent.truthfulKept ext (fun t e found => ?_) fun t e found => .inl ?_
    · -- the rule is not one for a type with a stored element
      have other : rule.subject.same t = false := by
        cases same : rule.subject.same t with
        | false => rfl
        | true =>
          rw [storedIff, ← standingCongr (TypeRef.sameIff.mp same), fresh] at found
          contradiction
      simp [Registry.creationRule?, Registry.mutationRules, Registry.insert, other]
    · rwa [storedIff, standing, ← storedIff] at found

theorem registerResting (resting : g.Resting) (rule : Rule) : (g.register rule).2.Resting := by
  obtain ⟨coherent, quiet⟩ := resting
  unfold register
  split
  · exact ⟨coherent, quiet⟩
  · rename_i notStarted
    obtain ⟨verdicts, within, genuine, ⟨refusal, answer⟩ | ⟨answer, sound⟩⟩ :=
      Registry.registerCases coherent.sound rule
    · rw [answer]
      exact ⟨coherent.remember within genuine, quiet⟩
    · rw [answer]
      have kept := coherent.learn (unstarted.mp notStarted) within sound
      let after : Graph := { g with registry := Registry.insert { g.registry with verdicts } rule }
      exact ⟨⟨kept.sound, kept.depth, kept.tracked, kept.distinct, kept.formed, kept.truthful⟩,
        fun t busy => quiet t ((standingTracks rule.mentions after t).symm.trans busy)⟩

theorem performResting (resting : g.Resting) (operation : Operation) :
    (g.perform operation).Resting := by
  cases operation with
  | register rule => exact registerResting resting rule
  | finalize => exact g.finalizeStays.resting resting
  | plan t => exact (planStays resting.coherent.sound.indexed t).resting resting
  | realize t => exact realizeResting resting t
  | realizeAll => exact realizeEachResting _ resting

theorem Reachable.resting (reachable : g.Reachable) : g.Resting := by
  obtain ⟨registry, settings, operations, start, rfl⟩ := reachable
  suffices kept : ∀ h : Graph, h.Resting → (h.run operations).Resting from
    kept _ (ofRegistryResting start.sound settings)
  intro h resting
  induction operations generalizing h with
  | nil => exact resting
  | cons operation rest ih => exact ih _ (performResting resting operation)

end Realization.Graph
