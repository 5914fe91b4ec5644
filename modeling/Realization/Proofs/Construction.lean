import Mathlib.Data.List.Forall2
import Realization.Proofs.Moments

/-!
Two ways to a graph: rules registered one by one on an empty graph, which tracks the types of each, and
rules registered on a registry over which a graph is then made, which tracks what the registry knows in
the end. The nodes mirror the entries of the registry at every point, so both ways lead to one graph.
-/
namespace Realization

namespace Entry

def node (e : Entry) : Node := { subject := e.managed.getD e.type }

structure Tidy (e : Entry) : Prop where
  bare : e.managed = none → e.type.isManaged = false
  managed : ∀ m, e.managed = some m → m.isManaged = true ∧ m.name = e.type.name

variable {e : Entry} {t : TypeRef} {entries : List Entry} {change : Entry → Entry}

theorem Tidy.named (tidy : e.Tidy) : e.node.subject.name = e.type.name := by
  unfold node
  cases known : e.managed with
  | none => rfl
  | some m => exact (tidy.managed m known).2

theorem Tidy.mention (tidy : e.Tidy) (same : e.type.same t = true) : (e.mention t).Tidy := by
  unfold Entry.mention
  split
  · rename_i first
    have managed : t.isManaged = true := by simp_all
    refine ⟨fun none => by contradiction, fun m form => ?_⟩
    cases form
    exact ⟨managed, (TypeRef.sameIff.mp same).symm⟩
  · exact tidy

theorem freshTidy (t : TypeRef) : (Entry.mention { type := t } t).Tidy := by
  unfold Entry.mention
  cases managed : t.isManaged with
  | false => exact ⟨fun _ => managed, fun m form => by contradiction⟩
  | true =>
    refine ⟨fun none => by contradiction, fun m form => ?_⟩
    cases form
    exact ⟨managed, rfl⟩

theorem nodeFresh (t : TypeRef) : (Entry.mention { type := t } t).node = { subject := t } := by
  unfold Entry.mention node
  split <;> rfl

theorem Tidy.mentionNode (tidy : e.Tidy) : (e.mention t).node = e.node.mention t := by
  cases known : e.managed with
  | none =>
    have plain : e.node.subject.isManaged = false := by
      simp only [node, known, Option.getD_none]
      exact tidy.bare known
    cases managed : t.isManaged with
    | false =>
      rw [Node.mentionPlain managed]
      simp [Entry.mention, managed]
    | true =>
      rw [Node.mentionUpgrade managed plain]
      simp [Entry.mention, managed, known, node]
  | some m =>
    have managed : e.node.subject.isManaged = true := by
      simp only [node, known, Option.getD_some]
      exact (tidy.managed m known).1
    rw [Node.mentionManaged managed]
    simp [Entry.mention, known]

theorem updateTidy (keeps : ∀ e : Entry, e.Tidy → (change e).Tidy) (tidy : ∀ e ∈ entries, e.Tidy) :
    ∀ e ∈ update t change entries, e.Tidy := by
  induction entries with
  | nil =>
    intro e member
    cases List.mem_singleton.mp member
    exact keeps _ (freshTidy t)
  | cons first rest ih =>
    obtain ⟨here, tail⟩ := List.forall_mem_cons.mp tidy
    unfold update
    split
    · rename_i same
      exact List.forall_mem_cons.mpr ⟨keeps _ (here.mention same), tail⟩
    · exact List.forall_mem_cons.mpr ⟨here, ih tail⟩

theorem updateNodes (keeps : ∀ e, (change e).node = e.node) (tidy : ∀ e ∈ entries, e.Tidy) :
    (update t change entries).map node = Node.track t (entries.map node) := by
  induction entries with
  | nil => simp only [update, List.map_cons, List.map_nil, keeps, nodeFresh, Node.track]
  | cons first rest ih =>
    obtain ⟨here, tail⟩ := List.forall_mem_cons.mp tidy
    have agree : first.node.subject.same t = first.type.same t := by
      simp only [TypeRef.same, here.named]
    unfold update
    rw [List.map_cons, Node.track, agree]
    split
    · rw [List.map_cons, keeps, here.mentionNode]
    · rw [List.map_cons, ih tail]

theorem updatesNodes (ts : List TypeRef) (tidy : ∀ e ∈ entries, e.Tidy) :
    (∀ e ∈ ts.foldl (fun entries t => update t id entries) entries, e.Tidy) ∧
      (ts.foldl (fun entries t => update t id entries) entries).map node =
        ts.foldl (fun nodes t => Node.track t nodes) (entries.map node) := by
  induction ts generalizing entries with
  | nil => exact ⟨tidy, rfl⟩
  | cons t rest ih =>
    obtain ⟨kept, nodes⟩ := ih (updateTidy (fun _ => id) tidy)
    refine ⟨kept, nodes.trans ?_⟩
    rw [updateNodes (fun _ => rfl) tidy, List.foldl_cons]

theorem enlistTidy (rule : Rule) (id : RuleId) (tidy : e.Tidy) : (enlist rule id e).Tidy := by
  refine ⟨?_, ?_⟩
  · rw [enlistManaged, enlistType]
    exact tidy.bare
  · rw [enlistManaged, enlistType]
    exact tidy.managed

@[simp] theorem enlistNode (rule : Rule) (id : RuleId) (e : Entry) : (enlist rule id e).node = e.node := by
  simp only [node, enlistManaged, enlistType]

end Entry

namespace Node

theorem trackNew {t : TypeRef} {nodes : List Node} (fresh : t.name ∉ nodes.map (·.subject.name)) :
    track t nodes = nodes ++ [{ subject := t }] := by
  induction nodes with
  | nil => rfl
  | cons n rest ih =>
    rw [List.map_cons, List.mem_cons, not_or] at fresh
    have other : ¬ n.subject.same t = true := fun same => fresh.1 (TypeRef.sameIff.mp same).symm
    rw [track, if_neg other, ih fresh.2, List.cons_append]

theorem tracksNew {ts : List TypeRef} {nodes : List Node}
    (distinct : (nodes.map (·.subject.name) ++ ts.map (·.name)).Nodup) :
    ts.foldl (fun nodes t => track t nodes) nodes = nodes ++ ts.map fun t => { subject := t } := by
  induction ts generalizing nodes with
  | nil => simp
  | cons t rest ih =>
    have fresh : t.name ∉ nodes.map (·.subject.name) := fun known =>
      (List.nodup_append.mp distinct).2.2 _ known _ List.mem_cons_self rfl
    rw [List.foldl_cons, trackNew fresh, ih (by simpa using distinct)]
    simp

end Node

namespace Registry

structure Tidy (r : Registry) : Prop where
  entries : ∀ e ∈ r.entries, e.Tidy
  distinct : ((r.entries.map Entry.node).map (·.subject.name)).Nodup

variable {r : Registry}

theorem tidyEmpty (verdicts : Verdicts) : Tidy { verdicts } := ⟨by simp, List.nodup_nil⟩

theorem insertNodes (tidy : r.Tidy) (rule : Rule) :
    (r.insert rule).Tidy ∧ (r.insert rule).entries.map Entry.node =
      rule.mentions.foldl (fun nodes t => Node.track t nodes) (r.entries.map Entry.node) := by
  obtain ⟨kept, nodes⟩ := Entry.updatesNodes rule.inputs
    (Entry.updateTidy (t := rule.subject) (fun _ => Entry.enlistTidy rule r.rules.length) tidy.entries)
  rw [Entry.updateNodes (Entry.enlistNode rule r.rules.length) tidy.entries] at nodes
  refine ⟨⟨kept, ?_⟩, nodes⟩
  show (((r.insert rule).entries.map Entry.node).map (·.subject.name)).Nodup
  exact (congrArg (fun nodes : List Node => nodes.map (·.subject.name)) nodes) ▸
    Node.tracksDistinct rule.mentions tidy.distinct

theorem registerTidy (sound : r.Sound) (tidy : r.Tidy) (rule : Rule) : (r.register rule).2.Tidy := by
  obtain ⟨verdicts, _, _, ⟨refusal, answer⟩ | ⟨answer, _⟩⟩ := registerCases sound rule <;> rw [answer]
  · exact ⟨tidy.entries, tidy.distinct⟩
  · exact (insertNodes (r := { r with verdicts }) ⟨tidy.entries, tidy.distinct⟩ rule).1

end Registry

namespace Graph

variable {r : Registry} {g : Graph}

theorem ofRegistryNodes (tidy : r.Tidy) (settings : Settings) :
    ofRegistry r settings = {
      registry := r
      settings := settings.withMaxDepth settings.maxDepth
      nodes := r.entries.map Entry.node } := by
  have distinct := tidy.distinct
  rw [List.map_map] at distinct
  unfold ofRegistry
  rw [tracksNodes, Node.tracksNew]
  · rw [List.map_map]
    rfl
  · rw [List.map_map]
    exact distinct

theorem registerOfRegistry (sound : r.Sound) (tidy : r.Tidy) (settings : Settings) (rule : Rule) :
    (ofRegistry r settings).register rule =
      ((r.register rule).1, ofRegistry (r.register rule).2 settings) := by
  have kept := Registry.registerTidy sound tidy rule
  unfold register
  rw [if_neg (unstarted.mpr (standingOfRegistry r settings rule.subject)), ofRegistryNodes kept, ofRegistryNodes tidy]
  dsimp only
  obtain ⟨verdicts, _, _, ⟨refusal, answer⟩ | ⟨answer, _⟩⟩ := Registry.registerCases sound rule <;>
    rw [answer]
  obtain ⟨_, nodes⟩ := Registry.insertNodes (r := { r with verdicts }) ⟨tidy.entries, tidy.distinct⟩ rule
  dsimp only
  rw [tracksNodes, nodes]

/- Which reference names a known type does not matter, so long as it is not in a managed form of its own. -/
def Stands (g : Graph) (s t : TypeRef) : Prop :=
  s.name = t.name ∧ (s = t ∨ ∃ n, g.node? t = some n ∧ n.subject.isManaged = true)

theorem Stands.resolve {s t : TypeRef} (stands : g.Stands s t) : g.resolve s = g.resolve t := by
  obtain ⟨named, rfl | ⟨n, found, managed⟩⟩ := stands
  · rfl
  · rw [resolveForm found managed, resolveForm ((nodeCongr named g).trans found) managed]

theorem Stands.onward {s t : TypeRef} {h : Graph} (stands : g.Stands s t) (onward : g.Onward h) :
    h.Stands s t := by
  refine ⟨stands.1, stands.2.imp_right ?_⟩
  rintro ⟨n, found, managed⟩
  obtain ⟨n', found', kept⟩ := onward.form t n found
  exact ⟨n', found', by rw [kept managed, managed]⟩

theorem elementCongr {s t : TypeRef} (named : s.name = t.name) (g : Graph) : g.element s = g.element t := by
  unfold element
  simp only [progressCongr named, TypeRef.sameCongr named]

theorem Stands.realizeNode {s t : TypeRef} (stands : g.Stands s t) (room : Nat) (stack : List TypeRef)
    (via : Option Locator) : realizeNode room stack via s g = realizeNode room stack via t g := by
  cases room <;> simp only [Graph.realizeNode, stands.resolve]

theorem Stands.realize {s t : TypeRef} (stands : g.Stands s t) : g.realize s = g.realize t := by
  have opened : g.start.2.Stands s t := stands.onward g.startStays.onward
  unfold Graph.realize
  rcases opening : g.start with ⟨fault | _, h⟩
  · rfl
  · rw [opening] at opened
    dsimp only
    rw [opened.realizeNode]
    simp only [elementCongr opened.1]

theorem realizeEachStands {ss ts : List TypeRef} (resting : g.Resting) (stand : List.Forall₂ g.Stands ss ts) :
    realizeEach ss g = realizeEach ts g := by
  induction ss generalizing ts g with
  | nil =>
    cases stand
    rfl
  | cons s ss ih =>
    obtain ⟨t, ts, here, rest, rfl⟩ := List.forall₂_cons_left_iff.mp stand
    have onward := realizeOnward resting t
    have later := ih (realizeResting resting t) (rest.imp fun _ _ stands => stands.onward onward)
    refine Prod.ext ?_ ?_
    · rw [realizeEachFaults, realizeEachFaults, here.realize, later]
    · rw [realizeEachNext, realizeEachNext, here.realize, later]

end Graph

namespace Registry

def registerEach : List Rule → Registry → List (Except Refusal RuleId) × Registry
  | [], r => ([], r)
  | rule :: rest, r =>
    let (answer, r) := r.register rule
    let (answers, r) := registerEach rest r
    (answer :: answers, r)

theorem checkContractsAgain (locator : Locator) (ts : List TypeRef) {v w : Verdicts}
    (within : (checkContracts locator ts v).2.Within w) :
    checkContracts locator ts w = ((checkContracts locator ts v).1, w) := by
  induction ts generalizing v with
  | nil => rfl
  | cons t rest ih =>
    unfold checkContracts at within ⊢
    cases declared : t.declaration? with
    | none =>
      rw [declared] at within
      exact ih within
    | some d =>
      rw [declared] at within
      dsimp only at within ⊢
      have found := v.validateFound d
      rcases answer : v.validate d with ⟨violation | contract, v₁⟩ <;> rw [answer] at within found
      · rw [Verdicts.validateKnown (within _ _ found)]
      · rw [Verdicts.validateKnown (within _ _ (checkContractsWithin locator rest v₁ _ _ found))]
        exact ih within

theorem checkConflictsKept (r : Registry) (v : Verdicts) (locator : Locator) (earlier ts : List TypeRef) :
    checkConflicts { r with verdicts := v } locator earlier ts = checkConflicts r locator earlier ts := by
  induction ts generalizing earlier with
  | nil => rfl
  | cons t rest ih =>
    unfold checkConflicts
    simp only [ih]
    rfl

theorem registerAgain (r : Registry) (rule : Rule) {w : Verdicts}
    (within : (r.register rule).2.verdicts.Within w) :
    register { r with verdicts := w } rule =
      ((r.register rule).1, { (r.register rule).2 with verdicts := w }) := by
  have opened : checkOpen { r with verdicts := w } rule = checkOpen r rule := rfl
  have subject : ∀ v, checkSubject { r with verdicts := v } rule = checkSubject r rule := fun _ => rfl
  unfold register at within ⊢
  rw [opened]
  cases start : r.checkOpen rule with
  | error refusal => rfl
  | ok _ =>
    rw [start] at within
    dsimp only at within ⊢
    have again := @checkContractsAgain rule.locator rule.mentions r.verdicts w
    rcases answer : checkContracts rule.locator rule.mentions r.verdicts with ⟨refusal | _, v⟩ <;>
      rw [answer] at within again <;> dsimp only at within again
    · rw [again within]
    · simp only [checkConflictsKept, subject] at within ⊢
      cases agreed : r.checkConflicts rule.locator [] rule.mentions with
      | error refusal =>
        rw [agreed] at within
        rw [again within]
      | ok _ =>
        cases fitting : r.checkSubject rule with
        | error refusal =>
          rw [agreed, fitting] at within
          rw [again within]
        | ok _ =>
          rw [agreed, fitting] at within
          rw [again within]
          rfl

theorem registerEachWithin (rules : List Rule) (r : Registry) (sound : r.Sound) :
    r.verdicts.Within (registerEach rules r).2.verdicts := by
  induction rules generalizing r with
  | nil => exact r.verdicts.withinRefl
  | cons rule rest ih =>
    have first : r.verdicts.Within (r.register rule).2.verdicts := by
      obtain ⟨verdicts, within, _, ⟨refusal, answer⟩ | ⟨answer, _⟩⟩ := registerCases sound rule <;>
        rw [answer] <;> exact within
    exact first.trans (ih _ (registerSound sound rule))

theorem registerEachAgain (rules : List Rule) {r : Registry} (sound : r.Sound) {w : Verdicts}
    (within : (registerEach rules r).2.verdicts.Within w) :
    registerEach rules { r with verdicts := w } =
      ((registerEach rules r).1, { (registerEach rules r).2 with verdicts := w }) := by
  induction rules generalizing r with
  | nil => rfl
  | cons rule rest ih =>
    have kept := registerSound sound rule
    have first := r.registerAgain rule ((registerEachWithin rest _ kept).trans within)
    simp only [registerEach, first, ih kept within]

end Registry

namespace Graph

def registerEach : List Rule → Graph → List (Except Refusal RuleId) × Graph
  | [], g => ([], g)
  | rule :: rest, g =>
    let (answer, g) := g.register rule
    let (answers, g) := registerEach rest g
    (answer :: answers, g)

theorem registerEachOfRegistry {r : Registry} (sound : r.Sound) (tidy : r.Tidy) (settings : Settings)
    (rules : List Rule) :
    registerEach rules (ofRegistry r settings) =
      ((Registry.registerEach rules r).1, ofRegistry (Registry.registerEach rules r).2 settings) ∧
      (Registry.registerEach rules r).2.Sound ∧ (Registry.registerEach rules r).2.Tidy := by
  induction rules generalizing r with
  | nil => exact ⟨rfl, sound, tidy⟩
  | cons rule rest ih =>
    obtain ⟨same, kept⟩ := ih (Registry.registerSound sound rule) (Registry.registerTidy sound tidy rule)
    refine ⟨?_, kept⟩
    simp only [registerEach, Registry.registerEach, registerOfRegistry sound tidy, same]

theorem standsEntries {r : Registry} (tidy : r.Tidy) (settings : Settings) :
    List.Forall₂ (ofRegistry r settings).Stands (r.entries.map (·.type)) (ofRegistry r settings).subjects := by
  have whole := ofRegistryNodes tidy settings
  have nodes : (ofRegistry r settings).nodes = r.entries.map Entry.node := by rw [whole]
  unfold subjects
  rw [nodes, List.map_map, List.forall₂_map_left_iff, List.forall₂_map_right_iff, List.forall₂_same]
  intro e member
  have tidied := tidy.entries e member
  refine ⟨tidied.named.symm, ?_⟩
  cases known : e.managed with
  | none => exact .inl (by simp [Entry.node, known])
  | some m =>
    refine .inr ⟨e.node, nodeMember (by rw [nodes]; exact tidy.distinct) ?_, ?_⟩
    · rw [nodes]
      exact List.mem_map_of_mem member
    · simp only [Entry.node, known, Option.getD_some]
      exact (tidied.managed m known).1

theorem constructionsAgree (declarations : List Declaration) (rules : List Rule) (settings : Settings) :
    let fresh : Registry := { verdicts := Verdicts.after declarations }
    let direct := registerEach rules (ofRegistry fresh settings)
    let below := Registry.registerEach rules fresh
    direct = (below.1, ofRegistry below.2 settings) ∧
      Registry.registerEach rules { fresh with verdicts := direct.2.registry.verdicts } = below ∧
        realizeEach (below.2.entries.map (·.type)) direct.2 = (ofRegistry below.2 settings).realizeAll := by
  intro fresh direct below
  have sound : fresh.Sound := Registry.soundEmpty (Verdicts.genuineAfter declarations)
  obtain ⟨same, soundly, tidily⟩ := registerEachOfRegistry sound (Registry.tidyEmpty _) settings rules
  have graph : direct.2 = ofRegistry below.2 settings := congrArg Prod.snd same
  have registry : direct.2.registry = below.2 := by simp [graph]
  refine ⟨same, ?_, ?_⟩
  · rw [registry]
    exact Registry.registerEachAgain rules sound below.2.verdicts.withinRefl
  · rw [graph]
    exact realizeEachStands (ofRegistryResting soundly settings) (standsEntries tidily settings)

end Graph

end Realization
