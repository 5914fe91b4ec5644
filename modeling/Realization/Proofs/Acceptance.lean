import Realization.Proofs.Elements
import Realization.Proofs.Moments
import Realization.Proofs.Refusals
import Realization.Proofs.Representation

/-!
What registering a rule does. A rule is accepted exactly if no check stands against it, and then it is added with
the types that it mentions; a refused one leaves nothing but verdicts in the memory.
-/
namespace Realization

namespace Registry

variable {r : Registry} {rule : Rule}

structure Adds (r : Registry) (rule : Rule) (after : Registry) : Prop where
  rules : after.rules = r.rules ++ [rule]
  frozen : after.isFrozen = r.isFrozen
  names : after.entries.map (·.type.name) = joined (r.entries.map (·.type.name)) (rule.mentions.map (·.name))
  type : ∀ t, (after.entry? t).map (·.type) = ((r.entry? t).map (·.type)).or (rule.mentions.find? (·.same t))
  managed : ∀ t, (after.entry? t).bind (·.managed) =
    ((r.entry? t).bind (·.managed)).or (rule.mentions.find? fun m => m.same t && m.isManaged)
  creator : ∀ t, (after.entry? t).bind (·.creator) =
    if rule.creates && rule.subject.same t then some r.rules.length else (r.entry? t).bind (·.creator)
  mutators : ∀ t, ((after.entry? t).map (·.mutators)).getD [] = ((r.entry? t).map (·.mutators)).getD [] ++
    if !rule.creates && rule.subject.same t then [r.rules.length] else []

theorem updatesNames (ts : List TypeRef) (entries : List Entry) :
    (ts.foldl (fun entries t => Entry.update t id entries) entries).map (·.type.name) =
      joined (entries.map (·.type.name)) (ts.map (·.name)) := by
  induction ts generalizing entries with
  | nil => rw [List.map_nil, joinedNil, List.foldl_nil]
  | cons t rest ih => rw [List.foldl_cons, ih, @Entry.updateNames id fun _ => rfl, List.map_cons, joinedCons]

theorem insertAdds (r : Registry) (rule : Rule) : r.Adds rule (r.insert rule) where
  rules := rfl
  frozen := rfl
  names := by
    unfold insert
    dsimp only
    rw [updatesNames, Entry.updateNames (Entry.enlistType rule r.rules.length), Rule.mentions, List.map_cons,
      joinedCons]
  type t := by
    rw [(entryInsert r rule t).type]
    by_cases same : rule.subject.same t
    · cases r.entry? t <;> simp [same, Rule.mentions]
    · simp [same, Rule.mentions]
  managed t := by
    rw [(entryInsert r rule t).managed]
    by_cases same : rule.subject.same t
    · cases entry : r.entry? t <;> cases managed : rule.subject.isManaged <;> simp [same, managed, Rule.mentions]
    · simp [same, Rule.mentions]
  creator t := by
    rw [(entryInsert r rule t).creator]
    by_cases same : rule.subject.same t
    · cases r.entry? t <;> cases creates : rule.creates <;> simp [same, creates]
    · simp [same]
  mutators t := by
    rw [(entryInsert r rule t).mutators]
    by_cases same : rule.subject.same t
    · cases r.entry? t <;> cases creates : rule.creates <;> simp [same, creates]
    · simp [same]

structure Answers (r : Registry) (rule : Rule) (answer : Except Refusal RuleId × Registry) : Prop where
  accepts : (∃ id, answer.1 = .ok id) ↔ r.Admits rule
  adds : ∀ id, answer.1 = .ok id → id = r.rules.length ∧ r.Adds rule answer.2
  refuses : ∀ refusal, answer.1 = .error refusal ↔ r.Refuses rule refusal
  keeps : ∀ refusal, answer.1 = .error refusal → answer.2 = { r with verdicts := answer.2.verdicts }
  judges : ∀ earlier d, r.verdicts.Judges earlier d
  learns : r.verdicts.Within answer.2.verdicts

theorem Sound.answers (sound : r.Sound) (rule : Rule) : r.Answers rule (r.register rule) where
  accepts := sound.indexed.admits
  adds id accepted := by
    obtain ⟨verdicts, _, _, ⟨refusal, answer⟩ | ⟨answer, _⟩⟩ := registerCases sound rule <;> rw [answer] at accepted ⊢
    · contradiction
    · cases accepted
      exact ⟨rfl, { insertAdds { r with verdicts } rule with }⟩
  refuses refusal := sound.indexed.refuses
  keeps refusal refused := by
    obtain ⟨verdicts, _, _, ⟨refusal, answer⟩ | ⟨answer, _⟩⟩ := registerCases sound rule <;> rw [answer] at refused ⊢
    contradiction
  judges := sound.genuine.judges
  learns := by
    obtain ⟨verdicts, within, _, ⟨refusal, answer⟩ | ⟨answer, _⟩⟩ := registerCases sound rule <;> rw [answer] <;>
      exact within

end Registry

namespace Graph

def TooLate (g : Graph) (rule : Rule) : Prop := ∃ n, g.node? rule.subject = some n ∧ n.progress ≠ .unrealized

structure Notes (g : Graph) (rule : Rule) (after : Graph) : Prop where
  names : after.names = joined g.names (rule.mentions.map (·.name))
  standing : ∀ t, after.standing t = g.standing t
  settings : after.settings = g.settings
  started : after.isStarted = g.isStarted
  finalized : after.isFinalized = false
  journal : after.journal = g.journal

structure Answers (g : Graph) (rule : Rule) (answer : Except Refusal RuleId × Graph) : Prop where
  late : g.TooLate rule → answer = (.error (.alreadyRealized rule.subject rule.locator), g)
  registry : ¬ g.TooLate rule → g.registry.Answers rule (answer.1, answer.2.registry)
  notes : ∀ id, answer.1 = .ok id → g.Notes rule answer.2
  keeps : ∀ refusal, answer.1 = .error refusal → answer.2 = { g with registry := answer.2.registry }

variable {g : Graph} {rule : Rule}

theorem startedExact : g.hasStarted rule.subject = true ↔ g.TooLate rule := by
  unfold hasStarted TooLate progress?
  cases g.node? rule.subject <;> simp [Progress.isStarted]

theorem tracksJoined (ts : List TypeRef) (g : Graph) : (ts.foldl track g).names = joined g.names (ts.map (·.name)) := by
  induction ts generalizing g with
  | nil => rw [List.map_nil, joinedNil, List.foldl_nil]
  | cons t rest ih =>
    have known : g.nodes.any (·.subject.same t) = true ↔ t.name ∈ g.names := by
      simp [names, TypeRef.sameIff]
    have here : (g.track t).names = if t.name ∈ g.names then g.names else g.names ++ [t.name] := by
      simp only [← known]
      exact Node.trackNames t g.nodes
    rw [List.foldl_cons, ih, here, List.map_cons, joinedCons]

theorem answers (sound : g.registry.Sound) (rule : Rule) : g.Answers rule (g.register rule) := by
  have answers := sound.answers rule
  unfold register
  by_cases late : g.TooLate rule
  · rw [if_pos (startedExact.mpr late)]
    exact ⟨fun _ => rfl, fun early => absurd late early, fun _ accepted => by contradiction, fun _ _ => rfl⟩
  · rw [if_neg fun started => late (startedExact.mp started)]
    rcases answer : g.registry.register rule with ⟨refusal | id, registry⟩ <;> rw [answer] at answers
    · exact ⟨fun started => absurd started late, fun _ => answers, fun _ accepted => by contradiction, fun _ _ => rfl⟩
    · have grows := growsTracks rule.mentions { g with registry }
      have kept : (rule.mentions.foldl track { g with registry }).registry = registry := registryTracks _ _
      refine ⟨fun started => absurd started late, fun _ => ?_, fun _ _ => ?_, fun _ refused => by contradiction⟩
      · exact kept.symm ▸ answers
      · exact { names := tracksJoined rule.mentions { g with registry }
                standing := standingTracks rule.mentions { g with registry }
                settings := grows.settings
                started := grows.started
                finalized := rfl
                journal := journalTracks rule.mentions { g with registry } }

end Graph

theorem registrationExact (rule : Rule) :
    (∀ r : Registry, r.Reachable → r.Answers rule (r.register rule)) ∧
    ∀ g : Graph, g.Reachable → g.Answers rule (g.register rule) :=
  ⟨fun _ reachable => reachable.sound.answers rule,
    fun _ reachable => Graph.answers reachable.resting.coherent.sound rule⟩

def mentionsPlain : Rule := ⟨"a", .plain "A", [.plain "X"], .mutator fun e _ => ⟨[], .ok e⟩⟩

def declaresLater : Rule := ⟨"x", .managed (Declaration.interface "X"), [], .initializer fun e _ => ⟨[], .ok e⟩⟩

def plainFirst : Registry := Registry.run {} [.register mentionsPlain]

theorem registrationExactCard :
    (({} : Registry).register declaresLater).1 = .ok 0 ∧ Registry.Admits {} declaresLater ∧
      Registry.Adds {} declaresLater (({} : Registry).register declaresLater).2 ∧
      ((Graph.smallSession [.realize (.plain "Text")]).register Graph.writeText).1 =
        .error (.alreadyRealized (.plain "Text") Graph.writeText.locator) := by
  have accepted : (({} : Registry).register declaresLater).1 = .ok 0 := by decide +kernel
  have answers := (registrationExact declaresLater).1 {} ⟨[], [], rfl⟩
  have late : (Graph.smallSession [.realize (.plain "Text")]).TooLate Graph.writeText :=
    Graph.startedExact.mp (by decide +kernel)
  refine ⟨accepted, answers.accepts.mp ⟨0, accepted⟩, (answers.adds 0 accepted).2, ?_⟩
  rw [((registrationExact Graph.writeText).2 _ (Graph.smallSessionReachable _)).late late]
  rfl

theorem initializerOfPlainName :
    plainFirst.Reachable ∧ declaresLater.subject.isManaged = true ∧ plainFirst.Open declaresLater ∧
      plainFirst.verdicts.Passes declaresLater.mentions ∧
      (∀ t ∈ declaresLater.mentions, ¬ plainFirst.Conflicts declaresLater t) ∧
      (plainFirst.register declaresLater).1 = .error (.noCreator declaresLater.subject declaresLater.locator) := by
  have reachable : plainFirst.Reachable := ⟨[], [.register mentionsPlain], rfl⟩
  have refused : (plainFirst.register declaresLater).1 =
      .error (.noCreator declaresLater.subject declaresLater.locator) := by decide +kernel
  cases reachable.sound.indexed.refuses.mp refused with
  | subject opened passes agrees _ _ => exact ⟨reachable, rfl, opened, passes, agrees, refused⟩

end Realization
