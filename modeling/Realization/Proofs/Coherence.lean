import Realization.Proofs.Accounts
import Realization.Proofs.Planning
import Realization.Proofs.Realizing

/-!
What holds of every graph that operations lead to. All that rules mention is known to the graph, in
a managed form if a rule knows one; no type has two nodes; a managed form that no rule mentions
belongs to a type that was asked for; and a stored element is what the rules prescribe for its type
when they are given the elements stored now.
-/
namespace Realization.Graph

def Tracked (g : Graph) : Prop :=
  ∀ m ∈ g.registry.mentions,
    ∃ n, g.node? m = some n ∧ (m.isManaged = true → n.subject.isManaged = true)

structure Coherent (g : Graph) : Prop where
  sound : g.registry.Sound
  depth : 0 < g.settings.maxDepth
  tracked : g.Tracked
  distinct : (g.nodes.map (·.subject.name)).Nodup
  formed : ∀ t n, g.node? t = some n → n.progress = .unrealized → n.subject.isManaged = true →
    n.subject ∈ g.registry.mentions
  truthful : ∀ t e, g.stored t = some e → g.prescribed g.stored t = some (.ok e)

/- What a later graph keeps of an earlier one, as far as stored elements depend on it. -/
structure Extends (g g' : Graph) : Prop where
  verdicts : g.registry.verdicts.Within g'.registry.verdicts
  form : ∀ t n, g.node? t = some n →
    ∃ n', g'.node? t = some n' ∧ (n.subject.isManaged = true → n'.subject = n.subject)
  stored : ∀ t e, g.stored t = some e → g'.stored t = some e

variable {limit : Nat} {stack : List TypeRef} {own : Option Element} {g g' : Graph} {s t : TypeRef}
  {result : Except Fault (Option Element)}

theorem Grows.extends (grows : g.Grows g') : g.Extends g' :=
  ⟨grows.verdicts, grows.form, fun _ _ => grows.stored⟩

theorem resolveManaged (indexed : g.registry.Indexed) (tracked : g.Tracked)
    (managed : (g.resolve t).isManaged = true) :
    (∃ n, g.node? t = some n ∧ n.subject = g.resolve t) ∨
      g.resolve t = t ∧ t ∉ g.registry.mentions := by
  unfold resolve at managed ⊢
  cases node : (g.node? t).filter (·.subject.isManaged) with
  | some n => exact .inl ⟨n, (Option.filter_eq_some_iff.mp node).1, rfl⟩
  | none =>
    rw [node] at managed
    dsimp only at managed ⊢
    have unmanaged : ∀ m ∈ g.registry.mentions, m.name = t.name → m.isManaged = false := by
      intro m mentioned named
      obtain ⟨n, found, keeps⟩ := tracked m mentioned
      rw [nodeCongr named] at found
      cases managed : m.isManaged with
      | false => rfl
      | true =>
        have kept : (g.node? t).filter (·.subject.isManaged) = some n :=
          Option.filter_eq_some_iff.mpr ⟨found, keeps managed⟩
        rw [node] at kept
        contradiction
    cases known : (g.registry.resolve? t).filter (·.isManaged) with
    | some u =>
      obtain ⟨found, isManaged⟩ := Option.filter_eq_some_iff.mp known
      have plain := unmanaged u (indexed.resolveMentioned found) (indexed.resolveName found)
      simp [plain] at isManaged
    | none =>
      rw [known] at managed
      refine .inr ⟨rfl, fun mentioned => ?_⟩
      simp [unmanaged t mentioned rfl] at managed

theorem Coherent.resolveSubject (coherent : g.Coherent) (member : t ∈ g.subjects) : g.resolve t = t := by
  obtain ⟨n, inside, rfl⟩ := List.mem_map.mp member
  have found := nodeMember coherent.distinct inside
  cases managed : (g.resolve n.subject).isManaged with
  | true =>
    rcases resolveManaged coherent.sound.indexed coherent.tracked managed with
      ⟨n', found', same⟩ | ⟨same, _⟩
    · cases found.symm.trans found'
      exact same.symm
    · exact same
  | false =>
    have plain : n.subject.isManaged = false := by
      cases form : n.subject.isManaged with
      | false => rfl
      | true =>
        rw [resolveForm found form, form] at managed
        contradiction
    exact TypeRef.plainExt managed plain (resolveName coherent.sound.indexed n.subject)

theorem blankNode (indexed : g.registry.Indexed) (tracked : g.Tracked) {e : Element}
    (blank : g.blank? t = some e) :
    ∃ n d contract, g.node? t = some n ∧ n.subject = .managed d ∧
      g.registry.verdicts.find? d.fingerprint = some (.ok contract) ∧
        e = .managed (.blank contract) := by
  obtain ⟨d, declared, found⟩ := Option.bind_eq_some_iff.mp blank
  obtain ⟨verdict, found, made⟩ := Option.bind_eq_some_iff.mp found
  have form : g.resolve (.plain t.name) = .managed d := by
    cases known : g.resolve (.plain t.name) <;> simp [known, TypeRef.declaration?] at declared ⊢
    exact declared
  rcases @resolveManaged g (.plain t.name) indexed tracked (by rw [form]; rfl) with
    ⟨n, node, same⟩ | ⟨same, _⟩
  · rcases verdict with _ | contract
    · contradiction
    · exact ⟨n, d, contract, (nodeCongr rfl g).trans node, same.trans form, found,
        (Option.some.inj made).symm⟩
  · rw [form] at same
    contradiction

theorem Extends.blank (ext : g.Extends g') (indexed : g.registry.Indexed) (tracked : g.Tracked)
    {e : Element} (blank : g.blank? t = some e) : g'.blank? t = some e := by
  obtain ⟨n, d, contract, node, form, found, rfl⟩ := blankNode indexed tracked blank
  obtain ⟨n', node', kept⟩ := ext.form t n node
  have named : TypeRef.name (.managed d) = t.name := by rw [← nodeName node, form]
  have same : n'.subject = .managed d := (kept (by rw [form]; rfl)).trans form
  have placed : g'.Placed (.managed d) := fun _ => ⟨n', (nodeCongr named g').trans node', same⟩
  rw [blankCongr (u := .managed d) named.symm]
  exact placed.blank (ext.verdicts _ _ found)

theorem Coherent.truthfulKept (coherent : g.Coherent) (ext : g.Extends g')
    (rules : ∀ t e, g.stored t = some e →
      g'.registry.creationRule? t = g.registry.creationRule? t ∧
        g'.registry.mutationRules t = g.registry.mutationRules t)
    (fresh : ∀ t e, g'.stored t = some e →
      g.stored t = some e ∨ g'.prescribed g'.stored t = some (.ok e)) :
    ∀ t e, g'.stored t = some e → g'.prescribed g'.stored t = some (.ok e) := by
  intro t e found
  rcases fresh t e found with before | made
  · obtain ⟨creation, mutation⟩ := rules t e before
    exact prescribedMono creation mutation
      (fun _ blank => ext.blank coherent.sound.indexed coherent.tracked blank)
      (fun i _ => ext.stored i) (coherent.truthful t e before)
  · exact made

theorem Tracked.kept (tracked : g.Tracked) (mentions : g'.registry.mentions = g.registry.mentions)
    (ext : g.Extends g') : g'.Tracked := by
  intro m member
  rw [mentions] at member
  obtain ⟨n, found, keeps⟩ := tracked m member
  obtain ⟨n', found', kept⟩ := ext.form m n found
  refine ⟨n', found', fun managed => ?_⟩
  rw [kept (keeps managed)]
  exact keeps managed

theorem Coherent.remember (coherent : g.Coherent) {verdicts : Verdicts}
    (within : g.registry.verdicts.Within verdicts) (genuine : verdicts.Genuine) :
    (g.withVerdicts verdicts).Coherent where
  sound := coherent.sound.grow within genuine
  depth := coherent.depth
  tracked := coherent.tracked
  distinct := coherent.distinct
  formed := coherent.formed
  truthful := coherent.truthfulKept (growsVerdicts g within).extends (fun _ _ _ => ⟨rfl, rfl⟩)
    fun _ _ found => .inl found

theorem Coherent.record (coherent : g.Coherent) (events : List Event) : (g.record events).Coherent :=
  ⟨coherent.sound, coherent.depth, coherent.tracked, coherent.distinct, coherent.formed,
    coherent.truthful⟩

theorem Coherent.track (coherent : g.Coherent) (started : g.standing s ≠ .unrealized) :
    (g.track s).Coherent where
  sound := coherent.sound
  depth := coherent.depth
  tracked := coherent.tracked.kept rfl (growsTrack g s).extends
  distinct := Node.trackDistinct s coherent.distinct
  formed u n found fresh managed := coherent.formed u n (trackFresh started found fresh) fresh managed
  truthful := coherent.truthfulKept (growsTrack g s).extends (fun _ _ _ => ⟨rfl, rfl⟩)
    fun u e found => .inl (by simpa [stored] using found)

def Admits (g : Graph) (t : TypeRef) : Prop :=
  ∃ n, g.node? t = some n ∧ ((g.resolve t).isManaged = true → n.subject.isManaged = true)

theorem Admits.track (admits : g.Admits t) (indexed : g.registry.Indexed) :
    g.track (g.resolve t) = g := by
  obtain ⟨n, found, formed⟩ := admits
  have same : Node.track (g.resolve t) g.nodes = g.nodes :=
    Node.trackSame ((nodeCongr (resolveName indexed t) g).trans found) formed
  unfold Graph.track
  rw [same]

theorem Tracked.admits (tracked : g.Tracked) (indexed : g.registry.Indexed)
    (mentioned : t ∈ g.registry.mentions) : g.Admits t := by
  obtain ⟨n, found, _⟩ := tracked t mentioned
  refine ⟨n, found, fun managed => ?_⟩
  rcases resolveManaged indexed tracked managed with ⟨n', found', same⟩ | ⟨_, unmentioned⟩
  · cases found.symm.trans found'
    rw [same]
    exact managed
  · exact absurd mentioned unmentioned

theorem enterStored (fresh : g.standing s = .unrealized) (u : TypeRef) :
    (g.enter s).stored u = g.stored u := by
  unfold stored
  rw [standingEnter]
  split
  · rename_i same
    rw [← standingCongr (TypeRef.sameIff.mp same), fresh]
    rfl
  · rfl

theorem enterExtends (fresh : g.standing s = .unrealized) : g.Extends (g.enter s) where
  verdicts := g.registry.verdicts.withinRefl
  form _ _ found := enterForm g s found
  stored u e found := by rwa [enterStored fresh]

theorem Coherent.enter (coherent : g.Coherent) (fresh : g.standing s = .unrealized) :
    (g.enter s).Coherent where
  sound := coherent.sound
  depth := coherent.depth
  tracked := coherent.tracked.kept rfl (enterExtends fresh)
  distinct := by
    rw [Graph.enter, mark, Node.markNames]
    exact Node.trackDistinct s coherent.distinct
  formed u n found unrealized managed := coherent.formed u n (enterFresh found unrealized) unrealized managed
  truthful := coherent.truthfulKept (enterExtends fresh) (fun _ _ _ => ⟨rfl, rfl⟩)
    fun u e found => .inl (by rwa [enterStored fresh] at found)

theorem enterPlaced (indexed : g.registry.Indexed) (t : TypeRef) :
    (g.enter (g.resolve t)).Placed (g.resolve t) := by
  have placed : ∃ n, (g.track (g.resolve t)).node? (g.resolve t) = some n ∧
      ((g.resolve t).isManaged = true → n.subject = g.resolve t) := by
    rw [nodeTrack, if_pos (TypeRef.sameSelf _)]
    refine ⟨_, rfl, fun managed => ?_⟩
    cases found : g.node? (g.resolve t) with
    | none => simp [Node.mention]
    | some n =>
      rw [Option.getD_some]
      cases form : n.subject.isManaged with
      | false => rw [Node.mentionUpgrade managed form]
      | true =>
        rw [Node.mentionManaged form]
        exact (resolveForm ((nodeCongr (resolveName indexed t) g).symm.trans found) form).symm
  obtain ⟨n, found, same⟩ := placed
  intro managed
  rw [Graph.enter, nodeMark, if_pos (TypeRef.sameSelf _), found]
  exact ⟨_, rfl, same managed⟩

theorem markExtends (busy : g.standing s = .realizing) (outcome : Progress) :
    g.Extends (g.mark s outcome) where
  verdicts := g.registry.verdicts.withinRefl
  form u n found := by
    rw [nodeMark, found]
    split
    · exact ⟨{ n with progress := outcome }, rfl, fun _ => rfl⟩
    · exact ⟨n, rfl, fun _ => rfl⟩
  stored u e found := by
    have known : (g.node? s).isSome = true := by
      have progress := standingProgress busy (by simp)
      rw [progress?] at progress
      cases node : g.node? s with
      | none => simp [node] at progress
      | some n => rfl
    rw [storedIff] at found ⊢
    rw [standingMark known]
    split
    · rename_i same
      rw [← standingCongr (TypeRef.sameIff.mp same), busy] at found
      contradiction
    · exact found

theorem Coherent.settle (coherent : g.Coherent) (busy : g.standing s = .realizing)
    {outcome : Progress} (ended : outcome ≠ .unrealized)
    (prescribed : ∀ e, outcome = .realized e → g.prescribed g.stored s = some (.ok e)) :
    (g.mark s outcome).Coherent where
  sound := coherent.sound
  depth := coherent.depth
  tracked := coherent.tracked.kept rfl (markExtends busy outcome)
  distinct := by
    simpa [mark] using coherent.distinct
  formed u n found unrealized managed :=
    coherent.formed u n (markFresh ended found unrealized).2 unrealized managed
  truthful := by
    refine coherent.truthfulKept (markExtends busy outcome) (fun _ _ _ => ⟨rfl, rfl⟩) ?_
    intro u e found
    by_cases same : s.same u
    · right
      have named := TypeRef.sameIff.mp same
      have here : outcome = .realized e := by
        have progress := standingProgress (storedIff.mp found) (by simp)
        rw [progressMark, if_pos same] at progress
        obtain ⟨_, _, rfl⟩ := Option.map_eq_some_iff.mp progress
        rfl
      have creation : (g.mark s outcome).registry.creationRule? s = g.registry.creationRule? s := rfl
      rw [← prescribedCongr named]
      exact prescribedMono creation rfl
        (fun _ blank => (markExtends busy outcome).blank coherent.sound.indexed coherent.tracked blank)
        (fun i _ => (markExtends busy outcome).stored i) (prescribed e here)
    · left
      simpa [stored, standing, same] using found

theorem placedDuties (indexed : g.registry.Indexed) (t : TypeRef) {below : List TypeRef}
    {via : Option Locator} {u : TypeRef}
    (member : .synthesize u ∈ g.registry.duties below via (g.resolve t)) :
    (g.enter (g.resolve t)).Placed u := by
  rw [indexed.dutyOwner member rfl]
  exact enterPlaced indexed t

theorem Work.busy {g₁ : Graph} {duties : List Duty} (inner : Work limit stack duties own (g.enter s) result g₁) :
    g₁.standing s = .realizing := by
  rw [inner.grows.realizing]
  simp

theorem Work.prescribed {g₁ : Graph} {below : List TypeRef} {via : Option Locator} {e : Element}
    (inner : Work limit stack (g.registry.duties below via (g.resolve t)) none (g.enter (g.resolve t))
      (.ok (some e)) g₁)
    (indexed : g.registry.Indexed) : g₁.prescribed g₁.stored (g.resolve t) = some (.ok e) := by
  have accounts := inner.accounts fun u member => placedDuties indexed t member
  have registry : g₁.registry.duties below via (g.resolve t) = g.registry.duties below via (g.resolve t) := by
    rw [inner.grows.registry]
    rfl
  rw [← registry] at accounts
  obtain ⟨y, made, same⟩ :=
    outcomePrescribed (indexed.congr inner.grows.rules inner.grows.entries) accounts
  cases y with
  | error failure => contradiction
  | ok e' =>
    cases same
    exact made

theorem Work.builtCoherent {g₁ : Graph} {below : List TypeRef} {via : Option Locator} {e : Element}
    (inner : Work limit stack (g.registry.duties below via (g.resolve t)) none (g.enter (g.resolve t))
      (.ok (some e)) g₁)
    (indexed : g.registry.Indexed) (coherent : g₁.Coherent) :
    (g₁.mark (g.resolve t) (.realized e)).Coherent := by
  refine coherent.settle inner.busy (by simp) fun e' same => ?_
  cases same
  exact inner.prescribed indexed

theorem Work.unbuiltCoherent {g₁ : Graph} {duties : List Duty}
    (inner : Work limit stack duties own (g.enter s) result g₁) (coherent : g₁.Coherent) :
    (g₁.mark s .failed).Coherent :=
  coherent.settle inner.busy (by simp) fun e same => by contradiction

theorem Coherent.told (coherent : g.Coherent) {answer : Except Fault Contract} {verdicts : Verdicts}
    (made : contractFor s g.registry.verdicts = (answer, verdicts)) : (g.withVerdicts verdicts).Coherent := by
  have genuine := contractForGenuine s coherent.sound.genuine
  rw [made] at genuine
  exact coherent.remember (growsContract made).verdicts genuine

/- Only what a rule declares is asked for at the depth limit, and of that there is a node. -/
theorem Coherent.deep (coherent : g.Coherent) (bounded : g.settings.maxDepth = limit)
    (asks : g.registry.Asks stack via t) (full : limit ≤ stack.length) : g.track (g.resolve t) = g := by
  cases asks with
  | request =>
    have depth := coherent.depth
    simp only [List.length_nil, bounded] at full depth
    omega
  | input member own declared =>
    have mentioned : t ∈ g.registry.mentions :=
      List.mem_flatMap.mpr ⟨_, member, List.mem_cons_of_mem _ declared⟩
    exact (coherent.tracked.admits coherent.sound.indexed mentioned).track coherent.sound.indexed

theorem Work.coherent {duties : List Duty} (work : Work limit stack duties own g result g')
    (coherent : g.Coherent) (bounded : g.settings.maxDepth = limit) : g'.Coherent := by
  induction work with
  | done | lacking => exact coherent
  | synthesized made _ ih => exact ih (coherent.told made) bounded
  | unsynthesized made => exact coherent.told made
  | ran _ _ _ _ _ _ ih => exact ih (coherent.record _) bounded
  | broke => exact coherent.record _
  | present _ settled _ ih => exact ih (coherent.track (by rw [settled]; simp)) bounded
  | failed _ settled => exact coherent.track (by rw [settled]; simp)
  | cyclic _ busy => exact coherent.track (by rw [busy]; simp)
  | deep asks _ full =>
    rw [coherent.deep bounded asks full]
    exact coherent
  | built _ fresh _ inner _ ih ih' =>
    exact ih' (inner.builtCoherent coherent.sound.indexed (ih (coherent.enter fresh) bounded))
      (by rw [← bounded]; exact inner.grows.settings ▸ rfl)
  | unbuilt _ fresh _ inner ih => exact inner.unbuiltCoherent (ih (coherent.enter fresh) bounded)

end Realization.Graph
