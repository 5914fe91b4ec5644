import Mathlib.Data.Finset.Card
import Realization.Graph.Session
import Realization.Proofs.Delimiting
import Realization.Proofs.FirstMentions
import Realization.Proofs.VerdictMemory

/-!
The memory of verdicts does not show. While no two of the declarations at hand have one fingerprint, the
memory holds the verdict on each declaration that was examined, in the order in which they came first, so
it answers as a fresh one would and can be asked which declarations it has seen.
-/
namespace Realization.Verdicts

/- The memory is that of someone who examined these declarations, each when it first came up. -/
def Recalls (v : Verdicts) (seen : List Declaration) : Prop :=
  v.known = seen.eraseDups.map fun d => (d.fingerprint, Contract.ofDeclaration d)

def Sole (d : Declaration) (ds : List Declaration) : Prop := ∀ a ∈ ds, a.fingerprint = d.fingerprint → a = d

variable {v : Verdicts} {seen ds : List Declaration} {d : Declaration}

theorem Recalls.find (recalls : v.Recalls seen) (sole : Sole d seen) :
    v.find? d.fingerprint = if d ∈ seen then some (Contract.ofDeclaration d) else none := by
  unfold Recalls at recalls
  unfold find?
  rw [recalls, List.find?_map]
  cases found : seen.eraseDups.find?
      ((·.1 == d.fingerprint) ∘ fun a => (a.fingerprint, Contract.ofDeclaration a)) with
  | some a =>
    have member := List.mem_eraseDups.mp (List.mem_of_find?_eq_some found)
    obtain rfl := sole a member (by simpa using List.find?_some found)
    rw [if_pos member]
    rfl
  | none =>
    have absent : d ∉ seen := fun member => by
      simpa using List.find?_eq_none.mp found d (List.mem_eraseDups.mpr member)
    rw [if_neg absent]
    rfl

theorem Recalls.validate (recalls : v.Recalls seen) (sole : Sole d seen) :
    (v.validate d).1 = Contract.ofDeclaration d ∧ (v.validate d).2.Recalls (seen ++ [d]) := by
  have found := recalls.find sole
  unfold Verdicts.validate Recalls
  rw [found, eraseDupsSnoc]
  by_cases old : d ∈ seen
  · rw [if_pos old, if_pos old]
    exact ⟨rfl, recalls⟩
  · rw [if_neg old, if_neg old, List.map_append, ← recalls]
    exact ⟨rfl, rfl⟩

theorem recallsAfter (apart : ∀ d ∈ ds, Sole d ds) : (after ds).Recalls ds := by
  induction ds using List.reverseRecOn with
  | nil => rfl
  | append_singleton seen d ih =>
    have earlier : ∀ a ∈ seen ++ [d], Sole a seen := fun a member b before =>
      apart a member b (List.mem_append_left _ before)
    have recalls := ih fun a member => earlier a (List.mem_append_left _ member)
    unfold after
    rw [List.foldl_append]
    exact (recalls.validate (earlier d (by simp))).2

theorem Recalls.size (recalls : v.Recalls seen) : v.size = seen.toFinset.card := by
  have same : seen.eraseDups.toFinset = seen.toFinset := by
    ext d
    simp only [List.mem_toFinset, List.mem_eraseDups]
  unfold Verdicts.size
  rw [recalls, List.length_map, ← List.toFinset_card_of_nodup (eraseDupsNodup seen), same]

theorem memoryTransparent (history : List Declaration) (d : Declaration)
    (counted : ∀ a ∈ d :: history, a.Counted)
    (apart : ∀ a ∈ d :: history, ∀ b ∈ d :: history, ¬ Encoding.Collide a b) :
    ((after history).validate d).1 = (({} : Verdicts).validate d).1 ∧
      ((after history).has d = true ↔ d ∈ history) ∧
      (after history).size = history.toFinset.card := by
  have sole : ∀ a ∈ d :: history, Sole a history := fun a member b listed =>
    have listed := List.mem_cons_of_mem d listed
    (fingerprintExact (counted b listed) (counted a member) (apart b listed a member)).mp
  have recalls := recallsAfter fun a member => sole a (List.mem_cons_of_mem d member)
  have here := sole d List.mem_cons_self
  refine ⟨(recalls.validate here).1, ?_, recalls.size⟩
  unfold has
  rw [recalls.find here]
  by_cases old : d ∈ history <;> simp [old]

theorem memoryTransparentNote :
    let note := (Declaration.interface "Note").property "text" .text
    let sealed := Declaration.concrete "Note"
    let history := [note, sealed, note]
    (∀ a ∈ sealed :: history, a.Counted) ∧
      (∀ a ∈ sealed :: history, ∀ b ∈ sealed :: history, ¬ Encoding.Collide a b) ∧
      ((after history).validate sealed).1 = .error (.notAnInterface "Note" "declared as a class") ∧
      (after history).has sealed = true ∧ (after history).size = 2 := by
  intro note sealed history
  have counted : ∀ a ∈ sealed :: history, a.Counted := by decide +kernel
  have apart : ∀ a ∈ sealed :: history, ∀ b ∈ sealed :: history, ¬ Encoding.Collide a b := by
    decide +kernel
  obtain ⟨verdict, seen, size⟩ := memoryTransparent history sealed counted apart
  exact ⟨counted, apart, verdict.trans rfl, seen.mpr (by simp [history]), size.trans (by decide +kernel)⟩

end Realization.Verdicts
