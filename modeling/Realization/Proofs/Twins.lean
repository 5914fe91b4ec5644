import Realization.Proofs.Elements
import Realization.Proofs.Kinship

/-!
Two graphs whose rules are the same in another order. As long as each type has the same rules in both and the
same node, realizing takes the same turns in both: it answers the same, starts the same bodies and leaves the
same nodes, though the numbers of the rules and the places of the nodes are not the same.
-/
namespace Realization

/- What an event tells when rules are known by what they are, not by their numbers. -/
def Event.telling (r : Registry) : Event → Option Rule × Locator ⊕ String
  | .started id locator => .inl (r.rule? id, locator)
  | .noted text => .inr text

theorem Event.tellingKept {r r' : Registry} (rules : r'.rules = r.rules) :
    Event.telling r' = Event.telling r := by
  funext event
  cases event <;> simp only [Event.telling, Registry.rule?, rules]

def Alike {α σ : Type} (related : σ → σ → Prop) (x y : Except Fault α × σ) : Prop :=
  x.1 = y.1 ∧ related x.2 y.2

theorem Alike.cases {α σ : Type} {related : σ → σ → Prop} {x y : Except Fault α × σ}
    (alike : Alike related x y) :
    (∃ fault s s', x = (.error fault, s) ∧ y = (.error fault, s') ∧ related s s') ∨
      ∃ a s s', x = (.ok a, s) ∧ y = (.ok a, s') ∧ related s s' := by
  obtain ⟨outcome, s⟩ := x
  obtain ⟨outcome', s'⟩ := y
  obtain ⟨same, left⟩ := alike
  cases (show outcome = outcome' from same)
  cases outcome with
  | error fault => exact .inl ⟨fault, s, s', rfl, rfl, left⟩
  | ok a => exact .inr ⟨a, s, s', rfl, rfl, left⟩

/- Two registries with what the runs over them have in common: the types that can occur, the memory that
they started from, and the settings. -/
structure Comparison where
  left : Registry
  right : Registry
  forms : List TypeRef
  origin : Verdicts
  settings : Settings

namespace Comparison

variable {c : Comparison} {g h : Graph} {s t : TypeRef} {via : Option Locator} {stack : List TypeRef}

abbrev Kin (c : Comparison) : Prop := Registry.Kin c.forms c.left c.right

abbrev Remembers (c : Comparison) (v : Verdicts) : Prop := Verdicts.Like c.forms c.origin v

structure Twin (c : Comparison) (g h : Graph) : Prop where
  rules : g.registry.rules = c.left.rules
  entries : g.registry.entries = c.left.entries
  rules' : h.registry.rules = c.right.rules
  entries' : h.registry.entries = c.right.entries
  settings : g.settings = c.settings
  settings' : h.settings = c.settings
  node : ∀ t, g.node? t = h.node? t
  formed : ∀ t n, g.node? t = some n → n.subject ∈ c.forms
  told : g.journal.map (Event.telling c.left) = h.journal.map (Event.telling c.right)
  remembers : c.Remembers g.registry.verdicts
  remembers' : c.Remembers h.registry.verdicts

namespace Twin

theorem standing (twin : c.Twin g h) (t : TypeRef) : g.standing t = h.standing t := by
  simp only [Graph.standing, Graph.progress?, twin.node]

theorem stored (twin : c.Twin g h) (t : TypeRef) : g.stored t = h.stored t := by
  simp only [Graph.stored, twin.standing]

theorem ready (twin : c.Twin g h) (kin : c.Kin) : Graph.Ready c.settings.maxDepth g :=
  ⟨kin.indexed.congr twin.rules twin.entries, by rw [twin.settings]⟩

theorem indexed' (twin : c.Twin g h) (kin : c.Kin) : h.registry.Indexed :=
  kin.indexed'.congr twin.rules' twin.entries'

theorem known (twin : c.Twin g h) : g.registry.resolve? t = c.left.resolve? t := by
  simp only [Registry.resolve?, Registry.entry?, twin.entries]

theorem known' (twin : c.Twin g h) : h.registry.resolve? t = c.right.resolve? t := by
  simp only [Registry.resolve?, Registry.entry?, twin.entries']

theorem resolve (twin : c.Twin g h) (kin : c.Kin) (t : TypeRef) : g.resolve t = h.resolve t := by
  simp only [Graph.resolve, twin.node, twin.known, twin.known', kin.known]

theorem resolved (twin : c.Twin g h) (kin : c.Kin) (inside : t ∈ c.forms) : g.resolve t ∈ c.forms := by
  unfold Graph.resolve
  split
  · rename_i n found
    exact twin.formed t n (Option.filter_eq_some_iff.mp found).1
  · rw [twin.known]
    cases known : (c.left.resolve? t).filter (·.isManaged) with
    | none => exact inside
    | some u => exact kin.inside u (kin.indexed.resolveMentioned (Option.filter_eq_some_iff.mp known).1)

theorem remember (twin : c.Twin g h) {v w : Verdicts} (remembers : c.Remembers v)
    (remembers' : c.Remembers w) : c.Twin (g.withVerdicts v) (h.withVerdicts w) :=
  ⟨twin.rules, twin.entries, twin.rules', twin.entries', twin.settings, twin.settings', twin.node,
    twin.formed, twin.told, remembers, remembers'⟩

theorem record (twin : c.Twin g h) {events events' : List Event}
    (same : events.map (Event.telling c.left) = events'.map (Event.telling c.right)) :
    c.Twin (g.record events) (h.record events') where
  __ := twin
  told := by
    simp only [Graph.record, List.map_append, twin.told, same]

theorem track (twin : c.Twin g h) (inside : s ∈ c.forms) : c.Twin (g.track s) (h.track s) where
  __ := twin
  node t := by rw [Graph.nodeTrack, Graph.nodeTrack, twin.node]
  formed t n found := by
    rw [Graph.nodeTrack] at found
    split at found
    · cases found
      rcases Node.mentionCases ((g.node? t).getD { subject := s }) s with same | same <;> rw [same]
      · cases known : g.node? t with
        | none => exact inside
        | some n => exact twin.formed t n known
      · exact inside
    · exact twin.formed t n found

theorem mark (twin : c.Twin g h) (s : TypeRef) (outcome : Progress) :
    c.Twin (g.mark s outcome) (h.mark s outcome) where
  __ := twin
  node t := by rw [Graph.nodeMark, Graph.nodeMark, twin.node]
  formed t n found := by
    rw [Graph.nodeMark] at found
    split at found
    · obtain ⟨n, known, rfl⟩ := Option.map_eq_some_iff.mp found
      exact twin.formed t n known
    · exact twin.formed t n found

theorem enter (twin : c.Twin g h) (inside : s ∈ c.forms) : c.Twin (g.enter s) (h.enter s) :=
  (twin.track inside).mark s .realizing

end Twin

theorem contractForAlike (kin : c.Kin) (inside : s ∈ c.forms) {v w : Verdicts} (remembers : c.Remembers v)
    (remembers' : c.Remembers w) :
    Alike (fun v w => c.Remembers v ∧ c.Remembers w) (Graph.contractFor s v) (Graph.contractFor s w) := by
  unfold Graph.contractFor
  cases s with
  | plain name => exact ⟨rfl, remembers, remembers'⟩
  | managed d =>
    have same := (remembers d inside).trans (remembers' d inside).symm
    have learnt := remembers.validate kin.apart inside
    have learnt' := remembers'.validate kin.apart inside
    dsimp only [TypeRef.declaration?]
    rcases answer : v.validate d with ⟨verdict, v₁⟩
    rcases answer' : w.validate d with ⟨verdict', w₁⟩
    rw [answer] at same learnt
    rw [answer'] at same learnt'
    cases (show verdict = verdict' from same)
    cases verdict <;> exact ⟨rfl, learnt, learnt'⟩

theorem synthesizeAlike (kin : c.Kin) (twin : c.Twin g h) (inside : s ∈ c.forms) :
    Alike c.Twin (Graph.synthesize s g) (Graph.synthesize s h) := by
  unfold Graph.synthesize
  obtain ⟨fault, v, w, answer, answer', learnt⟩ | ⟨contract, v, w, answer, answer', learnt⟩ :=
    (contractForAlike kin inside twin.remembers twin.remembers').cases <;> rw [answer, answer']
  · exact ⟨rfl, twin.remember learnt.1 learnt.2⟩
  · exact ⟨rfl, twin.remember learnt.1 learnt.2⟩

theorem Twin.inputsFor (twin : c.Twin g h) {types : List TypeRef}
    (obtained : ∀ t ∈ types, ∃ e, g.stored t = some e) :
    ∃ inputs, g.inputsFor types = .ok inputs ∧ h.inputsFor types = .ok inputs := by
  obtain ⟨inputs, given⟩ := Graph.inputsForStored obtained
  obtain ⟨inputs', given'⟩ := Graph.inputsForStored fun t declared => twin.stored t ▸ obtained t declared
  have same : (g.inputsFor types).toOption = (h.inputsFor types).toOption := by
    rw [Graph.inputsForExact, Graph.inputsForExact, Graph.inputsOfAgree fun t _ => twin.stored t]
  rw [given, given'] at same
  cases same
  exact ⟨inputs, given, given'⟩

def EntersAlike (c : Comparison) (stack : List TypeRef) (enter : Graph.Entering) : Prop :=
  Graph.Enters c.settings.maxDepth stack enter ∧
    ∀ via t g h, c.Twin g h → t ∈ c.forms → c.left.Asks stack via t →
      Alike c.Twin (enter via t g) (enter via t h)

theorem Twin.asks (twin : c.Twin g h) (asks : c.left.Asks stack via t) : g.registry.Asks stack via t := by
  cases asks with
  | request => exact .request t
  | input member own declared => exact .input (twin.rules ▸ member) own declared

theorem enterAllAlike {enter : Graph.Entering} (enters : c.EntersAlike stack enter) (twin : c.Twin g h)
    {types : List TypeRef} (inside : ∀ t ∈ types, t ∈ c.forms)
    (asks : ∀ t ∈ types, c.left.Asks stack via t) :
    Alike c.Twin (Graph.enterAll (enter via) types g) (Graph.enterAll (enter via) types h) := by
  induction types generalizing g h with
  | nil => exact ⟨rfl, twin⟩
  | cons t rest ih =>
    obtain ⟨here, tail⟩ := List.forall_mem_cons.mp inside
    obtain ⟨first, later⟩ := List.forall_mem_cons.mp asks
    unfold Graph.enterAll
    obtain ⟨fault, g₁, h₁, answer, answer', left⟩ | ⟨_, g₁, h₁, answer, answer', left⟩ :=
      (enters.2 via t g h twin here first).cases <;> rw [answer, answer']
    · exact ⟨rfl, left⟩
    · exact ih left tail later

section
variable {below : List TypeRef} {subject : TypeRef} {enter : Graph.Entering} {id id' : RuleId} {rule : Rule}

theorem applyRuleAlike (kin : c.Kin) (enters : c.EntersAlike (below ++ [subject]) enter) (twin : c.Twin g h)
    (known : c.left.rule? id = some rule) (known' : c.right.rule? id' = some rule)
    (applies : rule.subject.same subject = true) (run : Inputs → Outcome Element) :
    Alike c.Twin (Graph.applyRule enter subject id rule run g)
      (Graph.applyRule enter subject id' rule run h) := by
  have member : rule ∈ c.left.rules := List.mem_of_getElem? known
  have inside : ∀ t ∈ rule.inputs, t ∈ c.forms := fun t declared =>
    kin.inside t (List.mem_flatMap.mpr ⟨rule, member, List.mem_cons_of_mem _ declared⟩)
  have asks : ∀ t ∈ rule.inputs, c.left.Asks (below ++ [subject]) (some rule.locator) t :=
    fun t declared => .input member applies declared
  have entered : Graph.Works c.settings.maxDepth (below ++ [subject])
      (rule.inputs.map (.input (some rule.locator))) none g (fun _ => none)
      (Graph.enterAll (enter (some rule.locator)) rule.inputs g) :=
    Graph.enterAllWorks enters.1 (twin.ready kin) fun t declared => twin.asks (asks t declared)
  unfold Graph.applyRule
  obtain ⟨fault, g₁, h₁, answer, answer', left⟩ | ⟨_, g₁, h₁, answer, answer', left⟩ :=
    (enterAllAlike enters twin inside asks).cases <;> rw [answer, answer']
  · exact ⟨rfl, left⟩
  · rw [answer] at entered
    obtain ⟨inputs, given, given'⟩ := left.inputsFor fun t declared =>
      Graph.Work.obtained entered (twin.ready kin).indexed (List.mem_map_of_mem declared)
    simp only [given, given', Graph.runBody]
    refine ⟨rfl, left.record ?_⟩
    simp [Event.telling, known, known', Function.comp_def]

theorem createAlike (kin : c.Kin) (enters : c.EntersAlike (below ++ [subject]) enter) (twin : c.Twin g h)
    (inside : subject ∈ c.forms) (via : Option Locator) :
    Alike c.Twin (Graph.create enter below via subject g) (Graph.create enter below via subject h) := by
  have same := kin.creator subject
  unfold Graph.create
  rw [Registry.creatorKept twin.rules twin.entries, Registry.creatorKept twin.rules' twin.entries']
  rcases found : c.left.creator? subject with _ | ⟨id, rule⟩ <;>
    rcases found' : c.right.creator? subject with _ | ⟨id', rule'⟩ <;> rw [found, found'] at same
  · dsimp only
    split
    · exact synthesizeAlike kin twin inside
    · exact ⟨rfl, twin⟩
  · contradiction
  · contradiction
  · cases same
    obtain ⟨known, _, _, applies⟩ := kin.indexed.creatorFound found
    obtain ⟨known', _⟩ := kin.indexed'.creatorFound found'
    dsimp only
    cases body : rule.body with
    | producer run => exact applyRuleAlike kin enters twin known known' applies run
    | initializer run =>
      dsimp only
      obtain ⟨fault, g₁, h₁, answer, answer', left⟩ | ⟨e, g₁, h₁, answer, answer', left⟩ :=
        (synthesizeAlike kin twin inside).cases <;> rw [answer, answer']
      · exact ⟨rfl, left⟩
      · exact applyRuleAlike kin enters left known known' applies (run e)
    | mutator run => exact ⟨rfl, twin⟩

theorem mutateAlike (kin : c.Kin) (enters : c.EntersAlike (below ++ [subject]) enter) (twin : c.Twin g h)
    {rules rules' : List (RuleId × Rule)} (same : rules.map (·.2) = rules'.map (·.2))
    (listed : ∀ p ∈ rules, c.left.rule? p.1 = some p.2 ∧ p.2.subject.same subject = true)
    (listed' : ∀ p ∈ rules', c.right.rule? p.1 = some p.2) (e : Element) :
    Alike c.Twin (Graph.mutate enter subject rules e g) (Graph.mutate enter subject rules' e h) := by
  induction rules generalizing rules' e g h with
  | nil =>
    cases List.map_eq_nil_iff.mp same.symm
    exact ⟨rfl, twin⟩
  | cons p rest ih =>
    obtain ⟨⟨id', rule⟩, rest', rfl, rfl, tail⟩ := List.map_eq_cons_iff.mp same.symm
    obtain ⟨id, rule⟩ := p
    obtain ⟨⟨known, applies⟩, later⟩ := List.forall_mem_cons.mp listed
    obtain ⟨known', later'⟩ := List.forall_mem_cons.mp listed'
    unfold Graph.mutate
    cases body : rule.body with
    | producer run => exact ⟨rfl, twin⟩
    | initializer run => exact ⟨rfl, twin⟩
    | mutator run =>
      dsimp only
      obtain ⟨fault, g₁, h₁, answer, answer', left⟩ | ⟨e, g₁, h₁, answer, answer', left⟩ :=
        (applyRuleAlike kin enters twin known known' applies (run e)).cases <;> rw [answer, answer']
      · exact ⟨rfl, left⟩
      · exact ih left tail.symm later later' e

theorem buildAlike (kin : c.Kin) (enters : c.EntersAlike (below ++ [subject]) enter) (twin : c.Twin g h)
    (inside : subject ∈ c.forms) (via : Option Locator) :
    Alike c.Twin (Graph.build enter below via subject g) (Graph.build enter below via subject h) := by
  unfold Graph.build
  obtain ⟨fault, g₁, h₁, answer, answer', left⟩ | ⟨e, g₁, h₁, answer, answer', left⟩ :=
    (createAlike kin enters twin inside via).cases <;> rw [answer, answer']
  · exact ⟨rfl, left⟩
  · dsimp only
    rw [Registry.mutatorsKept left.rules left.entries rfl,
      Registry.mutatorsKept left.rules' left.entries' rfl]
    refine mutateAlike kin enters left (kin.mutators subject) (fun p member => ?_) (fun p member => ?_) e
    · obtain ⟨known, _, _, applies⟩ := kin.indexed.mutatorFound (show (p.1, p.2) ∈ _ from member)
      exact ⟨known, applies⟩
    · exact (kin.indexed'.mutatorFound (show (p.1, p.2) ∈ _ from member)).1

end

/- The inputs are entered with one type more on the stack and so with less room, on which the induction is;
each turn before that is decided by the node. -/
theorem realizeNodeAlike (kin : c.Kin) (room : Nat) {stack : List TypeRef}
    (size : room + stack.length = c.settings.maxDepth) :
    c.EntersAlike stack (Graph.realizeNode room stack) := by
  induction room generalizing stack with
  | zero =>
    refine ⟨Graph.realizeNodeWorks 0 size, fun via t g h twin inside _ => ?_⟩
    have tracked := twin.track (twin.resolved kin inside)
    rw [Graph.realizeNodeTurns, Graph.realizeNodeTurns, ← twin.resolve kin, ← twin.standing,
      twin.settings, twin.settings']
    cases g.standing (g.resolve t) <;> exact ⟨rfl, tracked⟩
  | succ room ih =>
    refine ⟨Graph.realizeNodeWorks (room + 1) size, fun via t g h twin inside _ => ?_⟩
    have resolved := twin.resolved kin inside
    have tracked := twin.track resolved
    rw [Graph.realizeNodeTurns, Graph.realizeNodeTurns, ← twin.resolve kin, ← twin.standing]
    cases g.standing (g.resolve t) with
    | realized | failed | realizing => exact ⟨rfl, tracked⟩
    | unrealized =>
      have enters :
          c.EntersAlike (stack ++ [g.resolve t]) (Graph.realizeNode room (stack ++ [g.resolve t])) :=
        ih (by simp only [List.length_append, List.length_singleton]; omega)
      dsimp only
      obtain ⟨fault, g₁, h₁, answer, answer', left⟩ | ⟨e, g₁, h₁, answer, answer', left⟩ :=
        (buildAlike kin enters (twin.enter resolved) resolved via).cases <;> rw [answer, answer']
      · exact ⟨rfl, left.mark _ _⟩
      · exact ⟨rfl, left.mark _ _⟩

end Comparison

end Realization
