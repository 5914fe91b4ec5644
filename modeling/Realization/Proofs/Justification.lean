import Realization.Proofs.Blame

/-!
Every mark that a run of requests makes is justified by the rules alone. A type is realized with the element that
the rules yield for it, and it has failed only if it is to blame; work that stops has met something of the kind.
-/
namespace Realization.Graph

variable {g₀ g g₁ g' h : Graph} {s t u : TypeRef} {stack : List TypeRef} {via : Option Locator}
  {limit : Nat} {duties : List Duty} {own : Option Element} {result : Except Fault (Option Element)}
  {e : Element}

structure Steady (g₀ g : Graph) : Prop where
  rules : g.registry.rules = g₀.registry.rules
  entries : g.registry.entries = g₀.registry.entries
  subjects : g.subjects = g₀.subjects
  verdicts : g₀.registry.verdicts.Within g.registry.verdicts

theorem nodeSubject (g : Graph) (t : TypeRef) :
    (g.node? t).map (·.subject) = g.subjects.find? (·.same t) := by
  unfold node? subjects
  rw [List.find?_map]
  rfl

theorem nodeAmong (same : h.subjects = g.subjects) {n : Node} (found : g.node? t = some n) :
    ∃ n', h.node? t = some n' ∧ n'.subject = n.subject := by
  have subject := nodeSubject h t
  rw [same, ← nodeSubject, found] at subject
  exact Option.map_eq_some_iff.mp subject

theorem Steady.resolve (steady : g₀.Steady g) (t : TypeRef) : g.resolve t = g₀.resolve t := by
  have forms : ∀ k : Graph, k.resolve t =
      ((k.subjects.find? (·.same t)).filter (·.isManaged)).getD
        (((k.registry.resolve? t).filter (·.isManaged)).getD t) := by
    intro k
    rw [← nodeSubject]
    unfold Graph.resolve
    cases k.node? t with
    | none => rfl
    | some n => cases managed : n.subject.isManaged <;> simp [Option.filter, managed]
  rw [forms g, forms g₀, steady.subjects]
  simp only [Registry.resolve?, Registry.entry?, steady.entries]

theorem Steady.admits (steady : g₀.Steady g) (admits : g₀.Admits t) : g.Admits t := by
  obtain ⟨n, found, formed⟩ := admits
  obtain ⟨n', found', same⟩ := nodeAmong steady.subjects found
  exact ⟨n', found', by rw [steady.resolve, same]; exact formed⟩

structure Pristine (g : Graph) : Prop where
  coherent : g.Coherent
  fresh : ∀ t, g.standing t = .unrealized

theorem Steady.blank (steady : g₀.Steady g) (pristine : g₀.Pristine) (coherent : g.Coherent)
    (blank : g.blank? t = some e) : g₀.blank? t = some e := by
  obtain ⟨n, d, contract, found, form, known, rfl⟩ :=
    blankNode coherent.sound.indexed coherent.tracked blank
  obtain ⟨n', found', same⟩ := nodeAmong steady.subjects.symm found
  obtain ⟨contract', known'⟩ :=
    pristine.coherent.formAccepted found' (pristine.fresh t) (same.trans form)
  have one : contract' = contract := by
    have kept := steady.verdicts _ _ known'
    rw [known] at kept
    cases kept
    rfl
  have named : TypeRef.name (.managed d) = t.name := by rw [← nodeName found, form]
  have placed : g₀.Placed (.managed d) := fun _ => ⟨n', (nodeCongr named g₀).trans found', same.trans form⟩
  rw [blankCongr named.symm, placed.blank known', one]

theorem Steady.prescribed (steady : g₀.Steady g) (pristine : g₀.Pristine) (coherent : g.Coherent)
    {read : TypeRef → Option Element} {x : Except Failure Element}
    (made : g.prescribed read t = some x) : g₀.prescribed read t = some x := by
  refine prescribedMono ?_ ?_ (fun _ => steady.blank pristine coherent) (fun _ _ _ found => found) made
  · simp only [Registry.creationRule?, steady.rules]
  · simp only [Registry.mutationRules, steady.rules]

/- No mark on the graph contradicts what the rules settle. -/
def Just (g₀ g : Graph) : Prop :=
  ∀ t, (∀ e, g.standing t = .realized e → g₀.Yields t e) ∧ (g.standing t = .failed → g₀.Blamed t)

theorem Just.genuine (just : g₀.Just g) {x : Element} (found : g.stored t = some x) : g₀.Yields t x :=
  (just t).1 x (storedIff.mp found)

theorem Just.congr (just : g₀.Just g) (same : ∀ t, g'.standing t = g.standing t) : g₀.Just g' := by
  intro t
  rw [same]
  exact just t

/- What stands in the way of a list of duties: a rule that fails, a source that is missing, or an
input that is to blame. -/
def Obstructed (g₀ g : Graph) (duties : List Duty) (own : Option Element) : Prop :=
  (∃ failure, Duty.outcome g.blank? g.stored duties own = some (.error failure)) ∨
    (∃ via t, .input via t ∈ duties ∧ g₀.Blamed t) ∨
      ∃ s requiredBy via, .lack s requiredBy via ∈ duties

theorem Obstructed.later {duty : Duty} {next : Option Element} (obstructed : Obstructed g₀ g duties next)
    (turn : ∀ failure, Duty.outcome g.blank? g.stored duties next = some (.error failure) →
      Duty.outcome g.blank? g.stored (duty :: duties) own = some (.error failure)) :
    Obstructed g₀ g (duty :: duties) own := by
  rcases obstructed with ⟨failure, broke⟩ | ⟨via, t, member, blamed⟩ | ⟨s, requiredBy, via, member⟩
  · exact .inl ⟨failure, turn failure broke⟩
  · exact .inr (.inl ⟨via, t, List.mem_cons_of_mem _ member, blamed⟩)
  · exact .inr (.inr ⟨s, requiredBy, via, List.mem_cons_of_mem _ member⟩)

theorem Obstructed.blamed (obstructed : Obstructed g₀ g₁ (g.registry.duties stack via (g.resolve t)) none)
    (pristine : g₀.Pristine) (steady : g₀.Steady g) (steady₁ : g₀.Steady g₁) (coherent₁ : g₁.Coherent)
    (indexed : g.registry.Indexed) (just : g₀.Just g₁)
    (sameDuties : g₁.registry.duties stack via (g.resolve t) = g.registry.duties stack via (g.resolve t)) :
    g₀.Blamed t := by
  have named := resolveName indexed t
  rcases obstructed with ⟨failure, broke⟩ | ⟨by', i, member, blamed⟩ | ⟨s, requiredBy, by', member⟩
  · rw [← sameDuties] at broke
    obtain ⟨y, made, same⟩ := outcomePrescribed coherent₁.sound.indexed broke
    cases y with
    | ok e => contradiction
    | error failure =>
      have fails : g₀.Fails t := ⟨g₁.stored, failure, fun i x found => just.genuine found, by
        rw [← prescribedCongr named]
        exact steady₁.prescribed pristine coherent₁ made⟩
      exact ⟨t, .refl, .inr (.inr fails)⟩
  · obtain ⟨rule, inside, own, declared⟩ := (indexed.dutyAsks member).2
    rw [steady.rules] at inside
    exact blamed.above ⟨rule, inside, by rw [← TypeRef.sameCongr named]; exact own, declared⟩
  · have missing : ¬ g₀.Supplied t := by
      intro supplied
      refine lackMissing indexed member fun none => ?_
      have creator := Registry.creatorKept steady.rules steady.entries t
      obtain ⟨n, found, managed⟩ := supplied (creator.symm.trans none)
      obtain ⟨n', found', same⟩ := nodeAmong steady.subjects found
      exact ⟨n', found', by rw [same]; exact managed⟩
    exact ⟨t, .refl, .inl missing⟩

theorem Steady.step (steady : g₀.Steady g) (grows : g.Grows g') (subjects : g'.subjects = g.subjects) :
    g₀.Steady g' :=
  ⟨grows.rules.trans steady.rules, grows.entries.trans steady.entries,
    subjects.trans steady.subjects, steady.verdicts.trans grows.verdicts⟩

theorem Steady.names (steady : g₀.Steady g) : g.names = g₀.names := by
  rw [subjectNames, subjectNames, steady.subjects]

theorem Steady.enter (steady : g₀.Steady g) (admits : g₀.Admits t) (indexed : g.registry.Indexed) :
    g₀.Steady (g.enter (g.resolve t)) where
  rules := steady.rules
  entries := steady.entries
  subjects := by
    rw [Graph.enter, markedSubjects, (steady.admits admits).track indexed]
    exact steady.subjects
  verdicts := steady.verdicts

theorem Steady.mark (steady : g₀.Steady g) (s : TypeRef) (outcome : Progress) :
    g₀.Steady (g.mark s outcome) :=
  ⟨steady.rules, steady.entries, (markedSubjects g s outcome).trans steady.subjects, steady.verdicts⟩

structure Fit (g₀ g : Graph) (duties : List Duty) : Prop where
  admits : ∀ via t, .input via t ∈ duties → g₀.Admits t
  accepted : ∀ u, .synthesize u ∈ duties → ∃ d, u = .managed d ∧ g.registry.verdicts.Accepts d
  placed : ∀ u, .synthesize u ∈ duties → g.Placed u

theorem Fit.rest {duty : Duty} (fit : Fit g₀ g (duty :: duties)) (grows : g.Grows g') :
    Fit g₀ g' duties where
  admits via t member := fit.admits via t (List.mem_cons_of_mem _ member)
  accepted u member := by
    obtain ⟨d, form, accepts⟩ := fit.accepted u (List.mem_cons_of_mem _ member)
    exact ⟨d, form, accepts.within grows.verdicts⟩
  placed u member := (fit.placed u (List.mem_cons_of_mem _ member)).grow grows

theorem Fit.knows (fit : Fit g₀ g duties) (steady : g₀.Steady g) : g.Knows duties := by
  intro via t member
  obtain ⟨n, found, _⟩ := fit.admits via t member
  rw [steady.names]
  exact knownName.mp (by rw [found]; rfl)

theorem Fit.tracked (fit : Fit g₀ g (.input via t :: duties)) (steady : g₀.Steady g)
    (indexed : g.registry.Indexed) : g.track (g.resolve t) = g :=
  (steady.admits (fit.admits via t List.mem_cons_self)).track indexed

theorem Pristine.fit (pristine : g₀.Pristine) (steady : g₀.Steady g) (coherent : g.Coherent)
    (admits : g₀.Admits t) (fresh : g.standing t = .unrealized) :
    Fit g₀ (g.enter (g.resolve t)) (g.registry.duties stack via (g.resolve t)) where
  admits by' i member := by
    have mentioned := coherent.sound.indexed.dutyMentioned member
    unfold Registry.mentions at mentioned
    rw [steady.rules] at mentioned
    exact pristine.coherent.tracked.admits pristine.coherent.sound.indexed mentioned
  accepted u member := by
    obtain ⟨n, found, formed⟩ := steady.admits admits
    exact coherent.synthesisAccepted fresh (fun _ managed => ⟨n, found, formed managed⟩) member
  placed u member := placedDuties coherent.sound.indexed t member

theorem Just.enter (just : g₀.Just g) (s : TypeRef) : g₀.Just (g.enter s) := by
  intro u
  rw [standingEnter]
  split
  · exact ⟨fun e impossible => by contradiction, fun impossible => by contradiction⟩
  · exact just u

theorem Just.settle (just : g₀.Just g₁) (grows : (g.enter s).Grows g₁) {outcome : Progress}
    (realized : ∀ e, outcome = .realized e → g₀.Yields s e) (failed : outcome = .failed → g₀.Blamed s) :
    g₀.Just (g₁.mark s outcome) := by
  intro u
  rw [standingSettle grows]
  split
  · rename_i same
    have named := TypeRef.sameIff.mp same
    exact ⟨fun e ended => (realized e ended).congr named, fun ended => (failed ended).congr named⟩
  · exact just u

/- What stands when a type is taken up, of all that the work of a run keeps. -/
theorem Just.opened (just : g₀.Just g) (pristine : g₀.Pristine) (underway : Underway limit stack g)
    (steady : g₀.Steady g) (fit : Fit g₀ g (.input via t :: duties)) (asks : g.registry.Asks stack via t)
    (fresh : g.standing (g.resolve t) = .unrealized) :
    Underway limit (stack ++ [g.resolve t]) (g.enter (g.resolve t)) ∧ g₀.Steady (g.enter (g.resolve t)) ∧
      Fit g₀ (g.enter (g.resolve t)) (g.registry.duties stack via (g.resolve t)) ∧
      g₀.Just (g.enter (g.resolve t)) := by
  have indexed := underway.coherent.sound.indexed
  have here := (standingResolve indexed t).symm.trans fresh
  have admits := fit.admits _ _ List.mem_cons_self
  exact ⟨underway.enter asks fresh (fit.knows steady _ _ List.mem_cons_self), steady.enter admits indexed,
    pristine.fit steady underway.coherent admits here, just.enter _⟩

theorem Work.just (pristine : g₀.Pristine) (work : Work limit stack duties own g result g')
    (underway : Underway limit stack g) (steady : g₀.Steady g) (fit : Fit g₀ g duties)
    (just : g₀.Just g) :
    g₀.Steady g' ∧ g₀.Just g' ∧ ∀ fault, result = .error fault → Obstructed g₀ g' duties own := by
  induction work with
  | done => exact ⟨steady, just, by simp⟩
  | @synthesized _ s _ _ g contract verdicts _ g' made later ih =>
    have grows := growsContract made
    obtain ⟨steady', just', stops⟩ := ih (underway.remember made) (steady.step grows rfl)
      (fit.rest grows) (just.congr fun _ => rfl)
    refine ⟨steady', just', fun fault ended => (stops fault ended).later fun failure broke => ?_⟩
    obtain ⟨d, rfl, found⟩ := contractForDeclared made
    have blank := ((fit.placed _ List.mem_cons_self).grow (grows.trans later.grows)).blank
      (later.grows.verdicts _ _ found)
    simpa only [Duty.outcome, blank, Option.bind_some] using broke
  | unsynthesized made =>
    obtain ⟨d, rfl, accepts⟩ := fit.accepted _ List.mem_cons_self
    obtain ⟨contract, answer⟩ := contractForAccepted accepts
    rw [answer] at made
    cases made
  | lacking => exact ⟨steady, just, fun _ _ => .inr (.inr ⟨_, _, _, List.mem_cons_self⟩)⟩
  | @ran _ _ id rule _ _ g body inputs e _ g' _ _ starts given outcome later ih =>
    have grows := growsRecord g (.started id rule.locator :: (body inputs).notes.map .noted)
    obtain ⟨steady', just', stops⟩ := ih (underway.ran _ _ _) (steady.step grows rfl)
      (fit.rest grows) (just.congr fun _ => rfl)
    refine ⟨steady', just', fun fault ended => (stops fault ended).later fun failure broke => ?_⟩
    have effect := effectGiven (grows.trans later.grows) starts given
    rw [outcome] at effect
    simpa only [Duty.outcome, effect] using broke
  | @broke _ _ id rule _ own g body inputs failure _ _ starts given outcome =>
    have grows := growsRecord g (.started id rule.locator :: (body inputs).notes.map .noted)
    refine ⟨steady.step grows rfl, just.congr fun _ => rfl, fun _ _ => .inl ⟨failure, ?_⟩⟩
    have effect : rule.effect (g.ran id rule (body inputs)).stored own = some (body inputs).result :=
      effectGiven grows starts given
    rw [outcome] at effect
    simp only [Duty.outcome, effect]
    rfl
  | @present _ _ t _ _ g _ _ _ _ settled _ ih =>
    have same := fit.tracked steady underway.coherent.sound.indexed
    rw [same] at ih
    obtain ⟨steady', just', stops⟩ := ih underway steady (fit.rest (growsRefl g)) just
    exact ⟨steady', just', fun fault ended => (stops fault ended).later fun _ broke => broke⟩
  | @failed _ _ t _ _ g _ settled =>
    have same := fit.tracked steady underway.coherent.sound.indexed
    rw [same]
    have blamed := ((just _).2 settled).congr (resolveName underway.coherent.sound.indexed t)
    exact ⟨steady, just, fun _ _ => .inr (.inl ⟨_, _, List.mem_cons_self, blamed⟩)⟩
  | @cyclic _ _ t _ _ g asks busy =>
    have same := fit.tracked steady underway.coherent.sound.indexed
    rw [same]
    have cycle := underway.cycle asks busy
    rw [Registry.needsKept steady.rules] at cycle
    exact ⟨steady, just, fun _ _ =>
      .inr (.inl ⟨_, t, List.mem_cons_self, t, .refl, .inr (.inl cycle)⟩)⟩
  | deep _ fresh full =>
    exact absurd (underway.free (fit.knows steady) fresh) (Nat.not_lt.mpr full)
  | @built stack via t _ _ g e g₁ _ _ asks fresh free inner _ ih ih' =>
    have indexed := underway.coherent.sound.indexed
    obtain ⟨entered, steadily, fits, justly⟩ := just.opened pristine underway steady fit asks fresh
    obtain ⟨steady₁, just₁, _⟩ := ih entered steadily fits justly
    have made := steady₁.prescribed pristine (inner.coherent entered.coherent entered.bounded)
      (inner.prescribed indexed)
    have yields : g₀.Yields (g.resolve t) e := .rules (fun _ _ found => just₁.genuine found) made
    obtain ⟨steady', just', stops⟩ := ih' (underway.built (fit.knows steady) asks fresh free inner).1
      (steady₁.mark _ _) (fit.rest (inner.grows.settle fresh (.inr ⟨e, rfl⟩)))
      (just₁.settle inner.grows (fun e' same => by cases same; exact yields) (by simp))
    exact ⟨steady', just', fun fault ended => (stops fault ended).later fun _ broke => broke⟩
  | @unbuilt stack via t _ _ g fault g₁ asks fresh free inner ih =>
    have indexed := underway.coherent.sound.indexed
    obtain ⟨entered, steadily, fits, justly⟩ := just.opened pristine underway steady fit asks fresh
    obtain ⟨steady₁, just₁, stops⟩ := ih entered steadily fits justly
    have sameDuties : g₁.registry.duties stack via (g.resolve t) =
        g.registry.duties stack via (g.resolve t) := by
      rw [inner.grows.registry]
      rfl
    have blamed : g₀.Blamed t := (stops fault rfl).blamed pristine steady steady₁
      (inner.coherent entered.coherent entered.bounded) indexed just₁ sameDuties
    refine ⟨steady₁.mark _ _, just₁.settle inner.grows (by simp) fun _ => blamed.congr (resolveName indexed t).symm,
      fun _ _ => .inr (.inl ⟨_, t, List.mem_cons_self, blamed⟩)⟩

end Realization.Graph
