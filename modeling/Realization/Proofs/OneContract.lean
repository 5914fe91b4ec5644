import Realization.Proofs.Agreement
import Realization.Proofs.Moments
import Realization.Proofs.Repetition

/-!
The contracts behind synthesized elements. Rules agree on what a name stands for, and the form in which
a graph knows a type is one that a rule declares, unless the type was asked for in a form of its own
before any rule declared it managed. So a body is given instances of the contracts that its rule
declares, but for such a type.
-/
namespace Realization

def Duty.acts : Duty → Bool
  | .input _ _ => false
  | _ => true

namespace Duty

variable {blank read : TypeRef → Option Element}

theorem outcomeActs (duties : List Duty) (own : Option Element) :
    outcome blank read (duties.filter acts) own = outcome blank read duties own := by
  induction duties generalizing own with
  | nil => rfl
  | cons duty rest ih =>
    cases duty with
    | input via t => exact ih own
    | lack => rfl
    | synthesize s =>
      simp only [List.filter_cons, acts, if_true, outcome, ih]
    | run s id rule =>
      simp only [List.filter_cons, acts, if_true, outcome, ih]

theorem rulesAct (s : TypeRef) (rules : List (RuleId × Rule)) :
    (rules.flatMap fun (id, rule) => rule.duties s id).filter acts =
      rules.map fun (id, rule) => .run s id rule := by
  have silent : ∀ (via : Option Locator) (types : List TypeRef), (types.map (.input via)).filter acts = [] := by
    intro via types
    induction types with
    | nil => rfl
    | cons t rest ih => exact ih
  induction rules with
  | nil => rfl
  | cons p rest ih =>
    have own : (p.2.duties s p.1).filter acts = [.run s p.1 p.2] := by
      rw [Rule.duties, List.filter_append, silent]
      rfl
    rw [List.flatMap_cons, List.filter_append, ih]
    exact congrArg (· ++ _) own

end Duty

namespace Graph

variable {g k : Graph} {s t : TypeRef} {d : Declaration}

/- The type was started by operations that came before any rule declared it managed. -/
def Preceded (g : Graph) (s : TypeRef) : Prop :=
  ∃ (earlier : Graph) (later : List Operation), earlier.Reachable ∧ g = earlier.run later ∧
    earlier.standing s ≠ .unrealized ∧
      ∀ u ∈ earlier.registry.mentions, u.name = s.name → u.isManaged = false

theorem Preceded.perform (preceded : g.Preceded s) (operation : Operation) :
    (g.perform operation).Preceded s := by
  obtain ⟨earlier, later, reachable, rfl, started⟩ := preceded
  exact ⟨earlier, later ++ [operation], reachable, by simp [run], started⟩

theorem Preceded.congr (preceded : g.Preceded s) (named : s.name = t.name) : g.Preceded t := by
  obtain ⟨earlier, later, reachable, whole, started, undeclared⟩ := preceded
  exact ⟨earlier, later, reachable, whole, by rwa [← standingCongr named],
    fun u member same => undeclared u member (same.trans named.symm)⟩

theorem Preceded.settled (preceded : g.Preceded s) (onward : g.Onward k) :
    ∃ (earlier : Graph) (later : List Operation), earlier.Reachable ∧ g = earlier.run later ∧
      earlier.standing s = k.standing s ∧ k.standing s ≠ .unrealized ∧
        ∀ u ∈ earlier.registry.mentions, u.name = s.name → u.isManaged = false := by
  obtain ⟨earlier, later, reachable, rfl, started, undeclared⟩ := preceded
  have kept : (earlier.run later).standing s = earlier.standing s := by
    rcases (runAges reachable.resting later).1.standing s with same | ⟨fresh, _⟩
    · exact same
    · exact absurd fresh started
  rw [← kept] at started
  have same := onward.settled s started
  exact ⟨earlier, later, reachable, rfl, (same.trans kept).symm, same ▸ started, undeclared⟩

structure Attested (g : Graph) : Prop where
  agreed : Agreed g.registry.mentions
  formed : ∀ t n, g.node? t = some n → n.subject.isManaged = true →
    n.subject ∈ g.registry.mentions ∨ g.Preceded n.subject

theorem Attested.stays (attested : g.Attested) (stays : g.Stays k)
    (onward : ∀ s, g.Preceded s → k.Preceded s) : k.Attested := by
  have mentions : k.registry.mentions = g.registry.mentions := by
    simp only [Registry.mentions, stays.rules]
  refine ⟨by rw [mentions]; exact attested.agreed, fun t n found managed => ?_⟩
  rw [stays.node] at found
  rw [mentions]
  exact (attested.formed t n found managed).imp_right (onward _)

theorem Attested.register (attested : g.Attested) (resting : g.Resting) (rule : Rule) :
    (g.register rule).2.Attested := by
  have onward : ∀ s, g.Preceded s → (g.register rule).2.Preceded s :=
    fun s preceded => preceded.perform (.register rule)
  have agreed := Registry.registerAgreed resting.coherent.sound.indexed attested.agreed rule
  unfold Graph.register at onward ⊢
  split at onward
  · rename_i late
    rw [if_pos late]
    exact attested
  · rename_i fresh
    rw [if_neg fresh]
    obtain ⟨verdicts, within, genuine, ⟨refusal, answer⟩ | ⟨answer, _⟩⟩ :=
      Registry.registerCases resting.coherent.sound rule <;> rw [answer] at onward agreed ⊢
    · exact attested.stays (g.staysRemember within fun _ => genuine) onward
    · let after : Graph := { g with registry := Registry.insert { g.registry with verdicts } rule }
      have registry : (rule.mentions.foldl track after).registry = after.registry :=
        registryTracks rule.mentions after
      have mentions : after.registry.mentions = g.registry.mentions ++ rule.mentions :=
        Registry.mentionsInsert _ rule
      refine ⟨?_, fun t n found managed => ?_⟩
      · exact registry ▸ agreed
      · show n.subject ∈ (rule.mentions.foldl track after).registry.mentions ∨ _
        rw [registry, mentions]
        rcases originTracks rule.mentions after found with ⟨n₀, before, form, _⟩ | listed
        · rcases attested.formed t n₀ before (by rw [form]; exact managed) with declared | preceded
          · exact .inl (List.mem_append_left _ (form ▸ declared))
          · exact .inr (onward _ (form ▸ preceded))
        · exact .inl (List.mem_append_right _ listed)

/- A request may bring a form of its own, but for a type that it then starts and that no rule has declared
managed. -/
theorem Attested.realize (attested : g.Attested) (reachable : g.Reachable) (t : TypeRef) :
    (g.realize t).2.Attested := by
  have resting := reachable.resting
  have coherent := (realizeResting resting t).coherent
  have onward := realizeOnward resting t
  have mentions : (g.realize t).2.registry.mentions = g.registry.mentions := by
    simp only [Registry.mentions, onward.rules]
  refine ⟨by rw [mentions]; exact attested.agreed, fun u n found managed => ?_⟩
  by_cases fresh : n.progress = .unrealized
  · exact .inl (coherent.formed u n found fresh managed)
  · by_cases declared : ∃ m ∈ g.registry.mentions, m.name = n.subject.name ∧ m.isManaged = true
    · obtain ⟨m, mentioned, named, isManaged⟩ := declared
      obtain ⟨n₀, before, form⟩ := resting.coherent.tracked m mentioned
      obtain ⟨n', after, kept⟩ := onward.form m n₀ before
      rw [nodeCongr (named.trans (nodeName found)), found] at after
      cases after
      have same := kept (form isManaged)
      rw [same, mentions]
      exact (attested.formed m n₀ before (form isManaged)).imp_right fun preceded =>
        preceded.perform (.realize t)
    · have reached : (g.realize t).2.Reachable := reachable.perform (.realize t)
      refine .inr ⟨_, [], reached, rfl, ?_, fun m member named => ?_⟩
      · have progress : (g.realize t).2.progress? n.subject = some n.progress := by
          rw [progress?, nodeCongr (nodeName found), found]
          rfl
        rw [progressStanding progress]
        exact fresh
      · rw [mentions] at member
        exact eq_false_of_ne_true fun isManaged => declared ⟨m, member, named, isManaged⟩

theorem Reachable.attested (reachable : g.Reachable) : g.Attested := by
  refine reachable.keeps ?fresh ?performs
  case fresh =>
    intro registry settings start
    have coherent := (ofRegistryResting start.sound settings).coherent
    refine ⟨?_, fun t n found managed => .inl (coherent.formed t n found ?_ managed)⟩
    · simpa using start.agreed
    · have progress : (ofRegistry registry settings).progress? t = some n.progress := by
        rw [progress?, found]
        rfl
      exact (progressStanding progress).symm.trans (standingOfRegistry registry settings t)
  case performs =>
    intro h operation single reached attested
    cases operation with
    | register rule => exact attested.register reached.resting rule
    | finalize => exact attested.stays h.finalizeStays fun s preceded => preceded.perform .finalize
    | plan t =>
      exact attested.stays (planStays reached.resting.coherent.sound.indexed t) fun s preceded =>
        preceded.perform (.plan t)
    | realize t => exact attested.realize reached t
    | realizeAll => contradiction

theorem Reachable.declaredForm (reachable : g.Reachable) (declared : .managed d ∈ g.registry.mentions) :
    ∃ n d₀, g.node? (.managed d) = some n ∧ n.subject = .managed d₀ ∧
      (d₀.fingerprint = d.fingerprint ∨ g.Preceded (.managed d)) := by
  have attested := reachable.attested
  obtain ⟨n, found, form⟩ := reachable.resting.coherent.tracked _ declared
  have managed := form rfl
  have named : n.subject.name = d.name := nodeName found
  have origin := attested.formed _ n found managed
  cases subject : n.subject with
  | plain name =>
    rw [subject] at managed
    contradiction
  | managed d₀ =>
    rw [subject] at named origin
    refine ⟨n, d₀, found, subject, origin.imp (fun member => ?_) fun preceded => preceded.congr named⟩
    exact attested.agreed d₀ d member declared named

theorem Onward.synthesized {n : Node} {d₀ : Declaration} {e : Element} (onward : g.Onward k)
    (coherent : k.Coherent) (found : g.node? (.managed d) = some n) (form : n.subject = .managed d₀)
    (blank : k.blank? (.managed d) = some e) :
    ∃ contract, e = .managed (.blank contract) ∧ contract.fingerprint = d₀.fingerprint := by
  obtain ⟨n', d', contract, found', form', known, rfl⟩ :=
    blankNode coherent.sound.indexed coherent.tracked blank
  obtain ⟨n'', again, kept⟩ := onward.form _ n found
  cases found'.symm.trans again
  have same := kept (by rw [form]; rfl)
  rw [form', form] at same
  cases same
  exact ⟨contract, rfl, coherent.sound.genuine.fingerprint known⟩

theorem inputsOfAt {read : TypeRef → Option Element} {types : List TypeRef} {inputs : Inputs} {place : Nat}
    (supplied : inputsOf? read types = some inputs) (declared : types[place]? = some t) :
    ∃ e, inputs.element? place = some e ∧ read t = some e := by
  obtain ⟨entries, listed, rfl⟩ := Option.map_eq_some_iff.mp supplied
  clear supplied
  induction types generalizing entries place with
  | nil => simp at declared
  | cons u rest ih =>
    simp only [List.mapM_cons, Option.bind_eq_bind, Option.bind_eq_some_iff,
      Option.map_eq_some_iff] at listed
    obtain ⟨_, ⟨e, found, rfl⟩, tail, later, same⟩ := listed
    cases same
    cases place with
    | zero =>
      cases declared
      exact ⟨e, rfl, found⟩
    | succ place => exact ih declared tail later

theorem Moment.Building.account {m : Moment} {limit : Nat} {below : List TypeRef} {via : Option Locator}
    {u : TypeRef} {id : RuleId} {rule : Rule} (building : m.Building limit below via u g)
    (indexed : g.registry.Indexed) (duty : m.duty = .run (g.resolve u) id rule)
    (sourceless : g.registry.creator? (g.resolve u) = none) (managed : (g.resolve u).isManaged = true) :
    ∃ own e before after, m.own = some own ∧ m.graph.blank? (g.resolve u) = some e ∧
      g.registry.mutators (g.resolve u) = before ++ (id, rule) :: after ∧
        Rule.effects m.graph.stored (before.map (·.2)) e = some (.ok own) := by
  obtain ⟨_, _, _, _, before, rest, whole, work⟩ := building
  have accounts := work.accounts fun s member => placedDuties indexed u
    (whole ▸ List.mem_append_left _ member)
  rw [← Duty.outcomeActs] at accounts
  have acts := congrArg (List.filter Duty.acts) whole
  rw [duty, Registry.duties, Registry.creationDuties, sourceless] at acts
  simp only [managed, if_true, Registry.mutationDuties, List.filter_append, Duty.rulesAct, List.filter_cons,
    Duty.acts, List.singleton_append] at acts
  cases first : before.filter Duty.acts with
  | nil =>
    rw [first] at acts
    simp at acts
  | cons duty before' =>
    rw [first] at acts accounts
    rw [List.cons_append, List.cons.injEq] at acts
    obtain ⟨rfl, later⟩ := acts
    obtain ⟨earlier, others, mutators, rfl, runs⟩ := List.map_eq_append_iff.mp later
    obtain ⟨⟨id', rule'⟩, after, rfl, same, _⟩ := List.map_eq_cons_iff.mp runs
    cases same
    obtain ⟨e, blank, made⟩ := Option.bind_eq_some_iff.mp accounts
    rw [← Duty.rulesAct, Duty.outcomeActs, Duty.outcomeRules] at made
    obtain ⟨outcome, effects, made⟩ := Option.map_eq_some_iff.mp made
    cases outcome with
    | error failure => contradiction
    | ok own => exact ⟨own, e, earlier, after, (Except.ok.inj made).symm, blank, mutators, effects⟩

theorem Coherent.sourceless {e : Element} (coherent : g.Coherent) (missing : g.registry.creator? t = none)
    (found : g.stored t = some e) :
    ∃ first, g.blank? t = some first ∧
      Rule.effects g.stored (g.registry.mutationRules t) first = some (.ok e) := by
  have made := coherent.truthful t e found
  unfold prescribed created at made
  rw [coherent.sound.indexed.creationRuleExact, missing] at made
  cases blank : g.blank? t with
  | none => simp [blank] at made
  | some first =>
    rw [blank] at made
    exact ⟨first, rfl, made⟩

section
variable {m : Moment} {id : RuleId} {rule : Rule} {inputs : Inputs}

theorem Passes.member (passes : g.Passes t m) (starts : m.Starts id rule inputs) :
    rule ∈ g.registry.rules := by
  rw [← passes.onward.rules]
  exact List.mem_of_getElem? starts.known

theorem Passes.subjectContract (reachable : g.Reachable) (passes : g.Passes t m)
    (starts : m.Starts id rule inputs) (sourceless : g.registry.creator? (.managed d) = none)
    (subject : rule.subject = .managed d) :
    ∃ own contract before after, m.own = some own ∧ contract.fingerprint = d.fingerprint ∧
      g.registry.mutators (.managed d) = before ++ (id, rule) :: after ∧
        Rule.effects m.graph.stored (before.map (·.2)) (.managed (.blank contract)) = some (.ok own) := by
  have indexed := reachable.resting.coherent.sound.indexed
  have mentioned : .managed d ∈ g.registry.mentions :=
    List.mem_flatMap.mpr ⟨rule, passes.member starts, subject ▸ List.mem_cons_self⟩
  obtain ⟨s, duty, applies⟩ := starts.duty
  obtain ⟨limit, below, via, u, g₁, before, building, rfl⟩ := passes.building duty indexed
  have indexed₁ := indexed.congr before.rules before.entries
  have named : (g₁.resolve u).name = TypeRef.name (.managed d) := by
    rw [← TypeRef.sameIff.mp applies, subject]
  obtain ⟨n, d₀, found, form, agreed | preceded⟩ := reachable.declaredForm mentioned
  · have managed : (g₁.resolve u).isManaged = true := by
      obtain ⟨n', found', kept⟩ := before.form _ n found
      have form' := kept (by rw [form]; rfl)
      rw [nodeCongr (named.symm.trans (resolveName indexed₁ u))] at found'
      rw [resolveForm found' (by rw [form', form]; rfl), form', form]
      rfl
    have sourceless₁ : g₁.registry.creator? (g₁.resolve u) = none := by
      rw [Registry.creatorKept before.rules before.entries, Registry.creatorCongr named]
      exact sourceless
    obtain ⟨own, e, done, after, held, blank, mutators, effects⟩ :=
      building.account indexed₁ duty sourceless₁ managed
    rw [blankCongr named] at blank
    rw [Registry.mutatorsKept before.rules before.entries named] at mutators
    obtain ⟨contract, rfl, same⟩ :=
      passes.onward.synthesized (passes.coherent reachable.resting) found form blank
    exact ⟨own, contract, done, after, held, same.trans agreed, mutators, effects⟩
  · -- a type that was started before is not built again
    obtain ⟨_, _, _, _, _, started, _⟩ := preceded.settled before
    rw [← standingCongr named] at started
    exact absurd building.2.1 started

theorem Passes.inputContract (reachable : g.Reachable) (passes : g.Passes t m)
    (starts : m.Starts id rule inputs) (sourceless : g.registry.creator? (.managed d) = none) {place : Nat}
    (declared : rule.inputs[place]? = some (.managed d)) :
    ∃ e contract, inputs.element? place = some e ∧
      Rule.effects m.graph.stored (g.registry.mutationRules (.managed d)) (.managed (.blank contract)) =
        some (.ok e) ∧
      (contract.fingerprint = d.fingerprint ∨
        ∃ (earlier : Graph) (later : List Operation), earlier.Reachable ∧ g = earlier.run later ∧
          earlier.progress? (.managed d) = some (.realized e) ∧
            ∀ u ∈ earlier.registry.mentions, u.name = d.name → u.isManaged = false) := by
  have onward := passes.onward
  have coherent := passes.coherent reachable.resting
  have mentioned : .managed d ∈ g.registry.mentions := List.mem_flatMap.mpr
    ⟨rule, passes.member starts, List.mem_cons_of_mem _ (List.mem_of_getElem? declared)⟩
  obtain ⟨n, d₀, found, form, origin⟩ := reachable.declaredForm mentioned
  have given := inputsForExact m.graph rule.inputs
  rw [starts.given] at given
  obtain ⟨e, supplied, stored⟩ := inputsOfAt given.symm declared
  obtain ⟨first, blank, effects⟩ := coherent.sourceless
    ((Registry.creatorKept onward.rules onward.entries _).trans sourceless) stored
  obtain ⟨contract, rfl, same⟩ := onward.synthesized coherent found form blank
  refine ⟨e, contract, supplied, ?_, origin.imp (fun agreed => same.trans agreed) fun preceded => ?_⟩
  · rw [Registry.mutationRules, ← onward.rules]
    exact effects
  · obtain ⟨earlier, later, reached, whole, standing, _, undeclared⟩ := preceded.settled onward
    refine ⟨earlier, later, reached, whole, ?_, undeclared⟩
    exact standingProgress (standing.trans (storedIff.mp stored)) (by simp)

theorem oneContractPerName (reachable : g.Reachable) :
    (∀ k id locator, g.journal[k]? = some (.started id locator) →
      ∃ (g₀ : Graph) (t : TypeRef) (later : List Operation) (m : Moment), g₀.Reachable ∧
        g = (g₀.realize t).2.run later ∧ g₀.Passes t m ∧ g.Begun k id locator m) ∧
    ∀ t m id rule inputs d, g.Passes t m → m.Starts id rule inputs →
      g.registry.creator? (.managed d) = none →
        (rule.subject = .managed d → ∃ own contract before after, m.own = some own ∧
          contract.fingerprint = d.fingerprint ∧
            g.registry.mutators (.managed d) = before ++ (id, rule) :: after ∧
              Rule.effects m.graph.stored (before.map (·.2)) (.managed (.blank contract)) =
                some (.ok own)) ∧
        ∀ place, rule.inputs[place]? = some (.managed d) → ∃ e contract,
          inputs.element? place = some e ∧
          Rule.effects m.graph.stored (g.registry.mutationRules (.managed d))
            (.managed (.blank contract)) = some (.ok e) ∧
          (contract.fingerprint = d.fingerprint ∨
            ∃ (earlier : Graph) (later : List Operation), earlier.Reachable ∧ g = earlier.run later ∧
              earlier.progress? (.managed d) = some (.realized e) ∧
                ∀ u ∈ earlier.registry.mentions, u.name = d.name → u.isManaged = false) := by
  refine ⟨fun k id locator event => reachable.begins event, ?_⟩
  intro t m id rule inputs d passes starts sourceless
  exact ⟨passes.subjectContract reachable starts sourceless,
    fun _ declared => passes.inputContract reachable starts sourceless declared⟩

end

def notedCard : Declaration := (Declaration.interface "Card").property "note" .text

def fillCard : Rule := ⟨"fill", .managed notedCard, [], .mutator fun own _ =>
  match own with
  | .managed i => ⟨[], ((i.set "note" "filled").map .managed).mapError fun error => ⟨error.message, []⟩⟩
  | _ => ⟨[], .error ⟨"no instance", []⟩⟩⟩

def copyCard : Rule := ⟨"copy", .plain "Copy", [.managed notedCard], .producer fun inputs =>
  match inputs.element? 0 with
  | some e => ⟨[], .ok e⟩
  | none => ⟨[], .error ⟨"no card", []⟩⟩⟩

def declaredFirst : Graph := (ofRegistry {} {}).run [.register fillCard, .register copyCard]

theorem oneContractPerNameCard :
    ∃ m rule inputs, declaredFirst.Passes (.plain "Copy") m ∧ m.Starts 0 rule inputs ∧
      ∃ own contract before after, m.own = some own ∧ contract.fingerprint = notedCard.fingerprint ∧
        declaredFirst.registry.mutators (.managed notedCard) = before ++ (0, rule) :: after ∧
          Rule.effects m.graph.stored (before.map (·.2)) (.managed (.blank contract)) = some (.ok own) := by
  have reachable : declaredFirst.Reachable := ⟨{}, {}, _, ⟨[], [], rfl⟩, rfl⟩
  have silent : declaredFirst.journal.length ≤ 0 := by decide +kernel
  have event : (declaredFirst.realize (.plain "Copy")).2.journal[0]? = some (.started 0 "fill") := by
    decide +kernel
  have sourceless : (declaredFirst.registry.creator? (.managed notedCard)).isNone = true := by
    decide +kernel
  have declared : (declaredFirst.registry.rule? 0).map (·.subject) = some (.managed notedCard) := by
    decide +kernel
  obtain ⟨m, passes, _, rule, inputs, starts, _⟩ := realizeBegins reachable.resting silent event
  have subject : rule.subject = .managed notedCard := by
    have known := starts.known
    rw [Registry.rule?, passes.onward.rules, ← Registry.rule?] at known
    rw [known] at declared
    exact Option.some.inj declared
  exact ⟨m, rule, inputs, passes, starts,
    ((oneContractPerName reachable).2 _ m 0 rule inputs notedCard passes starts
      (Option.isNone_iff_eq_none.mp sourceless)).1 subject⟩

def requestedFirst : Graph := (ofRegistry {} {}).run [.realize card, .register copyCard]

theorem requestedFirstPassesOn :
    (requestedFirst.realize (.plain "Copy")).1 = .ok blankCard ∧
      (requestedFirst.realize (.plain "Copy")).2.journal = [.started 0 "copy"] ∧
      copyCard.inputs = [.managed notedCard] ∧
      (requestedFirst.registry.creator? (.managed notedCard)).isNone = true ∧
      (Declaration.interface "Card").fingerprint ≠ notedCard.fingerprint :=
  ⟨by decide +kernel, by decide +kernel, rfl, by decide +kernel, by decide +kernel⟩

end Graph

end Realization
