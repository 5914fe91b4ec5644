import Realization.Proofs.Foresight
import Realization.Proofs.Judgement
import Realization.Proofs.Repetition

/-!
The check made again. It reads the rules and the nodes only and learns verdicts, so a check that has failed
fails in the same way every time, and the requests that it stops leave the graph as the first one did.
-/
namespace Realization.Graph

variable {g h : Graph} {t : TypeRef} {ts : List TypeRef} {v w : Verdicts} {fault : Fault}

structure Matches (g h : Graph) : Prop where
  rules : h.registry.rules = g.registry.rules
  entries : h.registry.entries = g.registry.entries
  nodes : h.nodes = g.nodes

theorem Stays.matches (stays : g.Stays h) : g.Matches h := ⟨stays.rules, stays.entries, stays.nodes⟩

namespace Matches

theorem resolve (same : g.Matches h) (t : TypeRef) : h.resolve t = g.resolve t := by
  simp only [Graph.resolve, Graph.node?, same.nodes, Registry.resolve?, Registry.entry?, same.entries]

theorem checkSources (same : g.Matches h) (ts : List TypeRef) (v : Verdicts) :
    h.checkSources ts v = g.checkSources ts v := by
  have creators : h.registry.creator? = g.registry.creator? :=
    funext (Registry.creatorKept same.rules same.entries)
  induction ts generalizing v with
  | nil => rfl
  | cons t rest ih =>
    simp only [Graph.checkSources, creators, ih, Graph.firstDependent?, same.rules, same.resolve]

theorem order (same : g.Matches h) : h.order = g.order := by
  have dependencies : h.dependencies = g.dependencies := by
    simp only [Graph.dependencies, Graph.subjects, same.rules, same.nodes]
  have typeNamed : h.typeNamed = g.typeNamed := by
    funext name
    simp only [Graph.typeNamed, Graph.subjects, same.nodes]
  simp only [Graph.order, Graph.cycleFault, Graph.closingRule?, dependencies, typeNamed, same.rules]

end Matches

theorem checkSourcesAgain (within : (g.checkSources ts v).2.Within w) :
    (g.checkSources ts w).1 = (g.checkSources ts v).1 := by
  induction ts generalizing v w with
  | nil => rfl
  | cons t rest ih =>
    unfold checkSources at within ⊢
    split
    · rename_i created
      rw [if_pos created] at within
      exact ih within
    · rename_i missing
      rw [if_neg missing] at within
      split
      · rename_i managed
        rw [if_pos managed] at within
        rcases answer : contractFor t v with ⟨fault | contract, v'⟩ <;> rw [answer] at within
        · rw [contractForAgain (v := v) (by rw [answer]; exact within), answer]
        · have learnt : v'.Within w := (checkSourcesKeeps v'.withinKept g rest v'.withinRefl).trans within
          rw [contractForAgain (v := v) (by rw [answer]; exact learnt), answer]
          exact ih within
      · rfl

theorem finalizeAgain (stays : g.finalize.2.Stays h) : h.finalize.1 = g.finalize.1 := by
  have same := (g.finalizeStays.trans stays).matches
  have subjects : h.subjects = g.subjects := by rw [Graph.subjects, same.nodes, ← Graph.subjects]
  have within : (g.checkSources g.subjects g.registry.verdicts).2.Within h.registry.verdicts := by
    have learnt := stays.verdicts
    rwa [finalizeLeaves] at learnt
  rw [finalizeAnswer, finalizeAnswer, same.checkSources, same.order, subjects, checkSourcesAgain within]

theorem finalizeStopped (stopped : g.finalize.1 = .error fault) :
    g.finalize.2.isFinalized = g.isFinalized := by
  rw [finalizeLeaves, stopped]
  exact Bool.or_false _

theorem finalizeNews (stopped : g.finalize.1 = .error fault) :
    news (.error fault : Except Fault Element) = [fault] := by
  rcases finalizeFails stopped with sources | ordered
  · obtain ⟨_, t, _, _, _, _, stops⟩ := checkSourcesStops sources
    cases stops <;> rfl
  · unfold order at ordered
    split at ordered
    · contradiction
    · cases ordered
      unfold cycleFault
      split <;> rfl

theorem startStopped (stopped : g.start.1 = .error fault) :
    g.settings.finalizeBeforeRealize = true ∧ g.isFinalized = false ∧ g.start = g.opened.finalize := by
  rw [startOpened] at stopped ⊢
  split at stopped
  · rename_i due
    rw [if_pos due]
    simp only [Bool.and_eq_true, Bool.not_eq_true'] at due
    exact ⟨due.1, due.2, rfl⟩
  · contradiction

theorem startAgain (stopped : g.start.1 = .error fault) : g.start.2.start.1 = .error fault := by
  obtain ⟨strict, unchecked, answer⟩ := startStopped stopped
  have settings := g.startStays.settings
  rw [answer] at stopped settings ⊢
  have started : g.opened.finalize.2.isStarted = true :=
    g.opened.finalizeFlags.1.trans g.openedFlags.1
  rw [startOpened, openedAgain started, settings, strict, finalizeStopped stopped, g.openedFlags.2, unchecked]
  exact (finalizeAgain (staysRefl _)).trans stopped

theorem realizeStopped (stopped : g.start.1 = .error fault) (t : TypeRef) :
    g.realize t = (.error fault, g.start.2) := by
  unfold realize
  rcases opening : g.start with ⟨fault' | _, h⟩ <;> rw [opening] at stopped <;> cases stopped
  rfl

end Realization.Graph
