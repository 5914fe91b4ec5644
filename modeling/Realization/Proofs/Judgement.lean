import Realization.Proofs.OneContract
import Realization.Proofs.StaticCheck

/-!
What the static check judges. On a graph over a registry it judges the rules alone: whether each type
that they mention has a source among them, and whether none depends on itself. On a graph with a past it
also judges the types that were asked for, in forms that no rule has; such a type was started by a
request, and the two verdicts differ only over types of this kind.
-/
namespace Realization

def Registry.Provided (r : Registry) : Prop :=
  ∀ m ∈ r.mentions, (∃ rule ∈ r.rules, rule.creates = true ∧ rule.subject.same m = true) ∨
    ∃ u ∈ r.mentions, u.name = m.name ∧ u.isManaged = true

theorem Registry.Indexed.creatorMissing {r : Registry} (indexed : r.Indexed) {t : TypeRef} :
    r.creator? t = none ↔ ∀ rule ∈ r.rules, ¬ (rule.creates = true ∧ rule.subject.same t = true) := by
  have exact := indexed.creationRuleExact t
  unfold creationRule? at exact
  rw [← Option.map_eq_none_iff (f := fun p : RuleId × Rule => p.2), ← exact, List.find?_eq_none]
  simp only [Bool.and_eq_true]

namespace Graph

variable {g h : Graph} {s t : TypeRef} {r : Registry}

def Spoken (g : Graph) : Prop :=
  ∀ t n, g.node? t = some n → n.progress = .unrealized → n.subject ∈ g.registry.mentions

theorem Spoken.stays (spoken : g.Spoken) (stays : g.Stays h) : h.Spoken := by
  have mentions : h.registry.mentions = g.registry.mentions := by
    simp only [Registry.mentions, stays.rules]
  intro t n found fresh
  rw [stays.node] at found
  rw [mentions]
  exact spoken t n found fresh

theorem Spoken.track (spoken : g.Spoken) (started : g.standing s ≠ .unrealized) : (g.track s).Spoken := by
  intro t n found fresh
  exact spoken t n (trackFresh started found fresh) fresh

theorem Spoken.mark (spoken : g.Spoken) {outcome : Progress} (started : outcome ≠ .unrealized) :
    (g.mark s outcome).Spoken := by
  intro t n found fresh
  exact spoken t n (markFresh started found fresh).2 fresh

theorem Spoken.enter (spoken : g.Spoken) : (g.enter s).Spoken := by
  intro t n found fresh
  exact spoken t n (enterFresh found fresh) fresh

theorem Work.spoken {limit : Nat} {stack : List TypeRef} {duties : List Duty} {own : Option Element}
    {result : Except Fault (Option Element)} (work : Work limit stack duties own g result h)
    (coherent : g.Coherent) (bounded : g.settings.maxDepth = limit) (spoken : g.Spoken) : h.Spoken := by
  induction work with
  | done | lacking => exact spoken
  | synthesized made _ ih => exact ih (coherent.told made) bounded spoken
  | unsynthesized => exact spoken
  | ran _ _ _ _ _ _ ih => exact ih (coherent.record _) bounded spoken
  | broke => exact spoken
  | present _ settled _ ih =>
    exact ih (coherent.track (by rw [settled]; simp)) bounded (spoken.track (by rw [settled]; simp))
  | failed _ settled => exact spoken.track (by rw [settled]; simp)
  | cyclic _ busy => exact spoken.track (by rw [busy]; simp)
  | deep asks _ full =>
    rw [coherent.deep bounded asks full]
    exact spoken
  | built _ fresh _ inner _ ih ih' =>
    have entered := coherent.enter fresh
    exact ih' (inner.builtCoherent coherent.sound.indexed (inner.coherent entered bounded))
      (by rw [← bounded]; exact inner.grows.settings ▸ rfl) ((ih entered bounded spoken.enter).mark (by simp))
  | unbuilt _ fresh _ _ ih => exact (ih (coherent.enter fresh) bounded spoken.enter).mark (by simp)

theorem Spoken.realize (spoken : g.Spoken) (resting : g.Resting) (t : TypeRef) : (g.realize t).2.Spoken := by
  have started := g.startStays.resting resting
  have opened := spoken.stays g.startStays
  rcases realizeLeaves resting t with left | ⟨_, work⟩
  · rw [left]
    exact opened
  · exact work.spoken started.coherent rfl opened

theorem Spoken.register (spoken : g.Spoken) (resting : g.Resting) (rule : Rule) :
    (g.register rule).2.Spoken := by
  unfold Graph.register
  split
  · exact spoken
  · obtain ⟨verdicts, _, _, ⟨refusal, answer⟩ | ⟨answer, _⟩⟩ :=
      Registry.registerCases resting.coherent.sound rule <;> rw [answer]
    · exact spoken
    · let after : Graph := { g with registry := Registry.insert { g.registry with verdicts } rule }
      have mentions : (rule.mentions.foldl Graph.track after).registry.mentions =
          g.registry.mentions ++ rule.mentions := by
        rw [registryTracks]
        exact Registry.mentionsInsert _ rule
      intro t n found fresh
      show n.subject ∈ (rule.mentions.foldl Graph.track after).registry.mentions
      rw [mentions, List.mem_append]
      rcases originTracks rule.mentions after found with ⟨n₀, before, form, progress⟩ | listed
      · exact .inl (form ▸ spoken t n₀ before (progress.trans fresh))
      · exact .inr listed

theorem Reachable.spoken (reachable : g.Reachable) : g.Spoken := by
  refine reachable.keeps ?fresh ?performs
  case fresh =>
    intro registry settings start t n found _
    simpa using ofRegistrySpoken start.sound settings found
  case performs =>
    intro h operation single reached spoken
    cases operation with
    | register rule => exact spoken.register reached.resting rule
    | finalize => exact spoken.stays h.finalizeStays
    | plan t => exact spoken.stays (planStays reached.resting.coherent.sound.indexed t)
    | realize t => exact spoken.realize reached.resting t
    | realizeAll => contradiction

theorem checkSourcesPassed {ts : List TypeRef} {v : Verdicts} (passed : (g.checkSources ts v).1 = .ok ()) :
    ∀ t ∈ ts, g.registry.creator? t = none → t.isManaged = true := by
  induction ts generalizing v with
  | nil => simp
  | cons t rest ih =>
    unfold checkSources at passed
    refine List.forall_mem_cons.mpr ⟨fun missing => ?_, ?_⟩
    · cases managed : t.isManaged with
      | true => rfl
      | false =>
        rw [missing, if_neg (by simp), if_neg (by simp [managed])] at passed
        contradiction
    · split at passed
      · exact ih passed
      · split at passed
        · split at passed
          · contradiction
          · exact ih passed
        · contradiction

inductive Stops (g : Graph) (v : Verdicts) (t : TypeRef) : Fault → Prop where
  | plain (plain : t.isManaged = false) :
    Stops g v t (.noCreator t ((g.firstDependent? t).map (·.1)) ((g.firstDependent? t).map (·.2)))
  | rejected {d violation} (form : t = .managed d) (rejected : ¬ v.Accepts d) :
    Stops g v t (.invalidContract t violation)

theorem Stops.within {v w : Verdicts} {fault : Fault} (stops : g.Stops w t fault) (within : v.Within w) :
    g.Stops v t fault := by
  cases stops with
  | plain plain => exact .plain plain
  | rejected form rejected => exact .rejected form fun accepts => rejected (accepts.within within)

theorem contractForStops {v v' : Verdicts} {fault : Fault} (managed : t.isManaged = true)
    (answer : contractFor t v = (.error fault, v')) : g.Stops v t fault := by
  cases t with
  | plain name => contradiction
  | managed d =>
    have rejected : ¬ v.Accepts d := fun accepts => by
      obtain ⟨contract, good⟩ := contractForAccepted accepts
      cases good.symm.trans answer
    simp only [contractFor, TypeRef.declaration?] at answer
    split at answer <;> cases answer
    exact .rejected rfl rejected

theorem checkSourcesStops {ts : List TypeRef} {v : Verdicts} {fault : Fault}
    (failed : (g.checkSources ts v).1 = .error fault) :
    ∃ before t after, ts = before ++ t :: after ∧
      (∀ u ∈ before, g.registry.creator? u = none → u.isManaged = true) ∧
        g.registry.creator? t = none ∧ g.Stops v t fault := by
  induction ts generalizing v with
  | nil => contradiction
  | cons t rest ih =>
    have later : ∀ w : Verdicts, v.Within w → (g.registry.creator? t = none → t.isManaged = true) →
        (g.checkSources rest w).1 = .error fault →
        ∃ before t' after, t :: rest = before ++ t' :: after ∧
          (∀ u ∈ before, g.registry.creator? u = none → u.isManaged = true) ∧
            g.registry.creator? t' = none ∧ g.Stops v t' fault := by
      intro w within supplied failed
      obtain ⟨before, t', after, rfl, earlier, missing, stops⟩ := ih failed
      exact ⟨t :: before, t', after, rfl, List.forall_mem_cons.mpr ⟨supplied, earlier⟩, missing,
        stops.within within⟩
    unfold checkSources at failed
    split at failed
    · rename_i found
      exact later v v.withinRefl (fun missing => by simp [missing] at found) failed
    · rename_i missing
      have missing : g.registry.creator? t = none := by simpa using missing
      split at failed
      · rename_i managed
        split at failed <;> rename_i answer
        · cases failed
          exact ⟨[], t, rest, rfl, by simp, missing, contractForStops managed answer⟩
        · have within := contractForWithin t v
          rw [answer] at within
          exact later _ within (fun _ => managed) failed
      · rename_i plain
        cases failed
        exact ⟨[], t, rest, rfl, by simp, missing, .plain (by simpa using plain)⟩

theorem Reachable.spoilt (reachable : g.Reachable) {n : Node} (member : n ∈ g.nodes)
    (foreign : n.subject ∉ g.registry.mentions) (missing : g.registry.creator? n.subject = none)
    (rejected : ∀ d, n.subject = .managed d → ¬ g.registry.verdicts.Accepts d) : n.progress = .failed := by
  have coherent := reachable.resting.coherent
  have standing := memberStanding coherent.distinct member
  have found := nodeMember coherent.distinct member
  cases progress : n.progress with
  | failed => rfl
  | unrealized => exact absurd (reachable.spoken _ n found progress) foreign
  | realizing => exact absurd (standing.trans progress) (reachable.resting.quiet _)
  | realized e =>
    obtain ⟨first, blank, _⟩ := coherent.sourceless missing (storedIff.mpr (standing.trans progress))
    obtain ⟨n', d, contract, found', form, known, _⟩ :=
      blankNode coherent.sound.indexed coherent.tracked blank
    cases found.symm.trans found'
    exact absurd ⟨contract, known⟩ (rejected d form)

/- What the check has against a graph whose rules are in order. -/
structure Spoils (g : Graph) (fault : Fault) (n : Node) : Prop where
  foreign : n.subject ∉ g.registry.mentions
  failed : n.progress = .failed
  missing : g.registry.creator? n.subject = none
  blamed : fault = .noCreator n.subject none none ∨ ∃ violation, fault = .invalidContract n.subject violation

theorem Reachable.spoils (reachable : g.Reachable) (provided : g.registry.Provided)
    (acyclic : g.registry.Acyclic) {fault : Fault} (failed : g.finalize.1 = .error fault) :
    ∃ n ∈ g.nodes, g.Spoils fault n := by
  have coherent := reachable.resting.coherent
  have sources := (finalizeFails failed).resolve_right fun stuck => by
    obtain ⟨ts, ordered⟩ := (orderExact coherent.tracked).mpr acyclic
    rw [ordered] at stuck
    contradiction
  obtain ⟨before, t, after, whole, _, missing, stops⟩ := checkSourcesStops sources
  have member : t ∈ g.subjects := by
    rw [whole]
    simp
  obtain ⟨n, inside, rfl⟩ := List.mem_map.mp member
  have found := nodeMember coherent.distinct inside
  -- a mentioned type without a creation rule is managed, and so is its node, with an accepted contract
  have supplied : ∀ m ∈ g.registry.mentions, m.name = n.subject.name → n.subject.isManaged = true := by
    intro m mentioned named
    rcases provided m mentioned with ⟨rule, listed, creates, own⟩ | ⟨u, declared, same, managed⟩
    · have own : rule.subject.same n.subject = true := by rwa [← TypeRef.sameCongr named]
      exact absurd ⟨creates, own⟩ (coherent.sound.indexed.creatorMissing.mp missing rule listed)
    · obtain ⟨n', found', form⟩ := coherent.tracked u declared
      rw [nodeCongr (same.trans named), found] at found'
      cases found'
      exact form managed
  cases stops with
  | plain plain =>
    have unnamed : ∀ m ∈ g.registry.mentions, m.name ≠ n.subject.name := fun m mentioned named => by
      rw [supplied m mentioned named] at plain
      contradiction
    have undeclared : g.firstDependent? n.subject = none := by
      unfold firstDependent?
      rw [Option.map_eq_none_iff, List.find?_eq_none]
      intro rule listed declares
      obtain ⟨i, declared, same⟩ := List.any_eq_true.mp declares
      exact unnamed i (List.mem_flatMap.mpr ⟨rule, listed, List.mem_cons_of_mem _ declared⟩)
        (TypeRef.sameIff.mp same)
    have foreign : n.subject ∉ g.registry.mentions := fun mentioned => unnamed _ mentioned rfl
    have failed := reachable.spoilt inside foreign missing fun d form => by
      rw [form] at plain
      contradiction
    exact ⟨n, inside, foreign, failed, missing, .inl (by rw [undeclared]; rfl)⟩
  | @rejected d violation form rejected =>
    have foreign : n.subject ∉ g.registry.mentions := fun mentioned =>
      rejected (coherent.sound.accepted _ mentioned d (by rw [form]; rfl))
    have failed := reachable.spoilt inside foreign missing fun d' form' => by
      cases form.symm.trans form'
      exact rejected
    exact ⟨n, inside, foreign, failed, missing, .inr ⟨violation, rfl⟩⟩

/- What the check lets pass though the rules are not in order. -/
structure Excuses (g : Graph) (n : Node) : Prop where
  foreign : n.subject ∉ g.registry.mentions
  started : n.progress ≠ .unrealized
  missing : g.registry.creator? n.subject = none
  managed : n.subject.isManaged = true
  mentioned : ∃ m ∈ g.registry.mentions, m.name = n.subject.name

theorem Reachable.excuses (reachable : g.Reachable) (passed : g.finalize.1 = .ok ()) :
    g.registry.Acyclic ∧ (g.registry.Provided ∨ ∃ n ∈ g.nodes, g.Excuses n) := by
  have coherent := reachable.resting.coherent
  obtain ⟨sources, ordered⟩ := finalizeHalves.mp passed
  refine ⟨(orderExact coherent.tracked).mp ordered, or_iff_not_imp_right.mpr fun unexcused m mentioned => ?_⟩
  cases creator : g.registry.creator? m with
  | some p =>
    obtain ⟨_, listed, creates, own⟩ :=
      coherent.sound.indexed.creatorFound (show _ = some (p.1, p.2) from creator)
    exact .inl ⟨p.2, listed, creates, own⟩
  | none =>
    right
    obtain ⟨n, found, _⟩ := coherent.tracked m mentioned
    have inside := List.mem_of_find?_eq_some found
    have named := nodeName found
    have missing : g.registry.creator? n.subject = none :=
      (Registry.creatorCongr named _).trans creator
    have managed := checkSourcesPassed sources n.subject (List.mem_map_of_mem inside) missing
    refine ⟨n.subject, Classical.byContradiction fun foreign => unexcused ⟨n, inside, foreign, ?_, missing,
      managed, m, mentioned, named.symm⟩, named, managed⟩
    exact fun fresh => foreign (reachable.spoken m n found fresh)

theorem Reachable.judged (reachable : g.Reachable) (known : ∀ n ∈ g.nodes, n.subject ∈ g.registry.mentions) :
    g.finalize.1 = .ok () ↔ g.registry.Provided ∧ g.registry.Acyclic := by
  constructor
  · intro passed
    obtain ⟨acyclic, provided | ⟨n, inside, excuses⟩⟩ := reachable.excuses passed
    · exact ⟨provided, acyclic⟩
    · exact absurd (known n inside) excuses.foreign
  · rintro ⟨provided, acyclic⟩
    cases answer : g.finalize.1 with
    | ok _ => rfl
    | error fault =>
      obtain ⟨n, inside, spoils⟩ := reachable.spoils provided acyclic answer
      exact absurd (known n inside) spoils.foreign

theorem ofRegistryJudged (start : r.Reachable) (settings : Settings) :
    (ofRegistry r settings).finalize.1 = .ok () ↔ r.Provided ∧ r.Acyclic := by
  have reachable : (ofRegistry r settings).Reachable := ⟨r, settings, [], start, rfl⟩
  simpa using reachable.judged fun n inside => by
    simpa using ofRegistrySpoken start.sound settings (nodeMember reachable.resting.coherent.distinct inside)

theorem finalizeJudges (reachable : g.Reachable) (start : r.Reachable) (rules : r.rules = g.registry.rules)
    (settings : Settings) :
    ((∀ n ∈ g.nodes, n.subject ∈ g.registry.mentions) →
      (g.finalize.1 = .ok () ↔ (ofRegistry r settings).finalize.1 = .ok ())) ∧
    (∀ fault, g.finalize.1 = .error fault → (ofRegistry r settings).finalize.1 = .ok () →
      ∃ n ∈ g.nodes, g.Spoils fault n) ∧
    (∀ fault, g.finalize.1 = .ok () → (ofRegistry r settings).finalize.1 = .error fault →
      ∃ n ∈ g.nodes, g.Excuses n) := by
  have same : r.Provided ∧ r.Acyclic ↔ g.registry.Provided ∧ g.registry.Acyclic := by
    simp only [Registry.Provided, Registry.Acyclic, Registry.mentions, Registry.needsKept rules, rules]
  have judged := (ofRegistryJudged start settings).trans same
  refine ⟨fun known => (reachable.judged known).trans judged.symm, ?_, ?_⟩
  · intro fault failed passes
    obtain ⟨provided, acyclic⟩ := judged.mp passes
    exact reachable.spoils provided acyclic failed
  · intro fault passed fails
    obtain ⟨acyclic, provided | excused⟩ := reachable.excuses passed
    · rw [judged.mpr ⟨provided, acyclic⟩] at fails
      contradiction
    · exact excused

theorem Reachable.passes (reachable : g.Reachable) (rank : String → Nat)
    (falls : ∀ rule ∈ g.registry.rules, ∀ i ∈ rule.inputs, rank i.name < rank rule.subject.name)
    (sources : (g.checkSources g.subjects g.registry.verdicts).1 = .ok ()) : g.finalize.1 = .ok () := by
  have falls : ∀ {a b : String}, g.registry.Needs a b → rank b < rank a := by
    rintro a b ⟨i, ⟨rule, listed, own, declared⟩, rfl⟩
    have named : rule.subject.name = a := TypeRef.sameIff.mp own
    exact named ▸ falls rule listed i declared
  have below : ∀ {a b : String}, Relation.TransGen g.registry.Needs a b → rank b < rank a := by
    intro a b path
    induction path with
    | single needs => exact falls needs
    | tail _ needs ih => exact Nat.lt_trans (falls needs) ih
  exact finalizeHalves.mpr ⟨sources, (orderExact reachable.resting.coherent.tracked).mpr fun a cycle =>
    Nat.lt_irrefl _ (below cycle)⟩

def unitRule (locator : Locator) (name : String) (inputs : List TypeRef) : Rule :=
  ⟨locator, .plain name, inputs, .producer fun _ => ⟨[], .ok .unit⟩⟩

def ruled (rule : Rule) : Registry := Registry.run {} [.register rule]

def asked (rule : Rule) (t : TypeRef) : Graph := (ofRegistry (ruled rule) {}).run [.realize t]

theorem ruledReachable (rule : Rule) : (ruled rule).Reachable := ⟨[], _, rfl⟩

theorem ruledFresh (rule : Rule) : (ofRegistry (ruled rule) {}).Reachable :=
  ⟨_, {}, [], ruledReachable rule, rfl⟩

theorem askedReachable (rule : Rule) (t : TypeRef) : (asked rule t).Reachable :=
  ⟨_, {}, _, ruledReachable rule, rfl⟩

theorem askedRules (rule : Rule) (t : TypeRef) : (ruled rule).rules = (asked rule t).registry.rules := by
  have fresh := ofRegistryResting (ruledReachable rule).sound {}
  have registry : (ofRegistry (ruled rule) {}).registry = ruled rule := registryTracks _ _
  exact ((realizeOnward fresh t).rules.trans (congrArg Registry.rules registry)).symm

theorem finalizeJudgesUnit :
    (∃ n ∈ (asked (unitRule "a" "A" []) (.plain "Z")).nodes,
      (asked (unitRule "a" "A" []) (.plain "Z")).Spoils (.noCreator (.plain "Z") none none) n) ∧
    ∃ n ∈ (asked (unitRule "b" "B" [.plain "Card"]) card).nodes,
      (asked (unitRule "b" "B" [.plain "Card"]) card).Excuses n := by
  have spoilt := (finalizeJudges (askedReachable (unitRule "a" "A" []) (.plain "Z"))
    (ruledReachable _) (askedRules _ _) {}).2.1
  have excused := (finalizeJudges (askedReachable (unitRule "b" "B" [.plain "Card"]) card)
    (ruledReachable _) (askedRules _ _) {}).2.2
  have passes := (ruledFresh (unitRule "a" "A" [])).passes (fun _ => 0) (by decide +kernel)
    (by decide +kernel)
  have passes' := (askedReachable (unitRule "b" "B" [.plain "Card"]) card).passes
    (fun name => if name = "B" then 1 else 0) (by decide +kernel) (by decide +kernel)
  exact ⟨spoilt _ (by decide +kernel) passes,
    excused (.noCreator (.plain "Card") (some (.plain "B")) (some "b")) passes' (by decide +kernel)⟩

theorem requestSwaysFinalize :
    (asked (unitRule "a" "A" []) (.plain "Z")).finalize.1 = .error (.noCreator (.plain "Z") none none) ∧
      (ofRegistry (ruled (unitRule "a" "A" [])) {}).finalize.1 = .ok () ∧
    (asked (unitRule "b" "B" [.plain "Card"]) card).finalize.1 = .ok () ∧
      (ofRegistry (ruled (unitRule "b" "B" [.plain "Card"])) {}).finalize.1 =
        .error (.noCreator (.plain "Card") (some (.plain "B")) (some "b")) :=
  ⟨by decide +kernel,
    (ruledFresh _).passes (fun _ => 0) (by decide +kernel) (by decide +kernel),
    (askedReachable _ _).passes (fun name => if name = "B" then 1 else 0) (by decide +kernel)
      (by decide +kernel),
    by decide +kernel⟩

end Graph

end Realization
