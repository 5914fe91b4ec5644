import Realization.Graph.Basic
import Realization.Proofs.RuleIndex

/-!
The table of nodes as lookups by name. A mention may give a node its managed form, a mark changes
its progress, and neither touches the nodes of other types.
-/
namespace Realization

namespace Node

theorem mentionName {n : Node} {t : TypeRef} (same : n.subject.name = t.name) :
    (n.mention t).subject.name = t.name := by
  unfold mention
  split
  · rfl
  · exact same

@[simp] theorem mentionProgress (n : Node) (t : TypeRef) : (n.mention t).progress = n.progress := by
  unfold mention
  split <;> rfl

@[simp] theorem mentionManaged {n : Node} {t : TypeRef} (managed : n.subject.isManaged = true) :
    n.mention t = n := by
  simp [mention, managed]

@[simp] theorem mentionPlain {n : Node} {t : TypeRef} (plain : t.isManaged = false) : n.mention t = n := by
  simp [mention, plain]

theorem mentionUpgrade {n : Node} {t : TypeRef} (managed : t.isManaged = true)
    (plain : n.subject.isManaged = false) : n.mention t = { n with subject := t } := by
  simp [mention, managed, plain]

theorem mentionForm (n : Node) {t : TypeRef} (managed : t.isManaged = true) :
    (n.mention t).subject.isManaged = true := by
  cases form : n.subject.isManaged with
  | true =>
    rw [mentionManaged form]
    exact form
  | false =>
    rw [mentionUpgrade managed form]
    exact managed

theorem mentionCases (n : Node) (t : TypeRef) :
    n.mention t = n ∨ n.mention t = { n with subject := t } := by
  unfold mention
  split
  · exact .inr rfl
  · exact .inl rfl

theorem trackFind (t u : TypeRef) (nodes : List Node) :
    (track t nodes).find? (·.subject.same u) =
      if t.same u then
        some (((nodes.find? (·.subject.same u)).getD { subject := t }).mention t)
      else nodes.find? (·.subject.same u) := by
  induction nodes with
  | nil =>
    have fresh : Node.mention { subject := t } t = { subject := t } := by simp [mention]
    simp only [track, List.find?_cons, List.find?_nil, Option.getD_none, fresh]
    by_cases same : t.same u <;> simp [same]
  | cons n rest ih =>
    by_cases first : n.subject.same t
    · have named := TypeRef.sameIff.mp first
      have kept : (n.mention t).subject.same u = t.same u := by
        simp [TypeRef.same, mentionName named]
      have agree : n.subject.same u = t.same u := by simp [TypeRef.same, named]
      simp only [track, if_pos first, List.find?_cons, kept, agree]
      by_cases same : t.same u <;> simp [same]
    · simp only [track, if_neg first, List.find?_cons]
      by_cases here : n.subject.same u
      · have other : ¬ t.same u = true := by
          intro same
          rw [TypeRef.sameIff] at first here same
          exact first (here.trans same.symm)
        simp [here, other]
      · simp only [Bool.not_eq_true] at here
        simp only [here, ih]

theorem markFind (t u : TypeRef) (progress : Progress) (nodes : List Node) :
    (mark t progress nodes).find? (·.subject.same u) =
      if t.same u then (nodes.find? (·.subject.same u)).map fun n => { n with progress }
      else nodes.find? (·.subject.same u) := by
  induction nodes with
  | nil => simp [mark]
  | cons n rest ih =>
    unfold mark at ih ⊢
    simp only [List.map_cons, List.find?_cons]
    by_cases here : n.subject.same u
    · have agree : n.subject.same t = t.same u := by
        have named := TypeRef.sameIff.mp here
        simp only [TypeRef.same, named]
        exact BEq.comm
      cases same : t.same u <;> simp [agree, same, here]
    · have kept : (if n.subject.same t = true then { n with progress } else n).subject.same u =
          n.subject.same u := by
        split <;> rfl
      simp only [kept, here, ih]

theorem trackSame {t : TypeRef} {nodes : List Node} {n : Node}
    (found : nodes.find? (·.subject.same t) = some n)
    (formed : t.isManaged = true → n.subject.isManaged = true) : track t nodes = nodes := by
  induction nodes with
  | nil => contradiction
  | cons first rest ih =>
    unfold track
    rw [List.find?_cons] at found
    split
    · rename_i same
      simp only [same, Option.some.injEq] at found
      subst found
      cases managed : t.isManaged with
      | false => rw [mentionPlain managed]
      | true => rw [mentionManaged (formed managed)]
    · rename_i other
      simp only [other] at found
      rw [ih found]

@[simp] theorem trackNames (t : TypeRef) (nodes : List Node) :
    (track t nodes).map (·.subject.name) =
      if nodes.any (·.subject.same t) then nodes.map (·.subject.name)
      else nodes.map (·.subject.name) ++ [t.name] := by
  induction nodes with
  | nil => rfl
  | cons n rest ih =>
    unfold track
    by_cases same : n.subject.same t
    · have named := TypeRef.sameIff.mp same
      simp [same, mentionName named, named]
    · simp only [same, Bool.false_eq_true, if_false, List.map_cons, ih, List.any_cons, Bool.false_or]
      split <;> simp

theorem trackDistinct (t : TypeRef) {nodes : List Node}
    (distinct : (nodes.map (·.subject.name)).Nodup) :
    ((track t nodes).map (·.subject.name)).Nodup := by
  rw [trackNames]
  split
  · exact distinct
  · rename_i missing
    rw [List.nodup_append]
    refine ⟨distinct, by simp, ?_⟩
    intro name member other new same
    cases List.mem_singleton.mp new
    obtain ⟨n, inside, named⟩ := List.mem_map.mp member
    exact missing (List.any_eq_true.mpr ⟨n, inside, TypeRef.sameIff.mpr (named.trans same)⟩)

theorem tracksDistinct (ts : List TypeRef) {nodes : List Node}
    (distinct : (nodes.map (·.subject.name)).Nodup) :
    ((ts.foldl (fun nodes t => track t nodes) nodes).map (·.subject.name)).Nodup := by
  induction ts generalizing nodes with
  | nil => exact distinct
  | cons t rest ih => exact ih (trackDistinct t distinct)

@[simp] theorem markNames (t : TypeRef) (progress : Progress) (nodes : List Node) :
    (mark t progress nodes).map (·.subject.name) = nodes.map (·.subject.name) := by
  unfold mark
  rw [List.map_map]
  congr 1
  funext n
  simp only [Function.comp_apply]
  split <;> rfl

end Node

namespace Graph

theorem nodeCongr {t u : TypeRef} (named : t.name = u.name) (g : Graph) : g.node? t = g.node? u := by
  simp only [node?, TypeRef.sameCongr named]

theorem progressCongr {t u : TypeRef} (named : t.name = u.name) (g : Graph) :
    g.progress? t = g.progress? u := by
  simp only [progress?, nodeCongr named]

theorem nodeName {g : Graph} {t : TypeRef} {n : Node} (found : g.node? t = some n) :
    n.subject.name = t.name :=
  TypeRef.sameIff.mp (List.find?_some (p := fun n : Node => n.subject.same t) found)

theorem nodeMember {g : Graph} (distinct : (g.nodes.map (·.subject.name)).Nodup) {n : Node} (member : n ∈ g.nodes) :
    g.node? n.subject = some n := by
  unfold node?
  generalize g.nodes = nodes at distinct member
  induction nodes with
  | nil => contradiction
  | cons first rest ih =>
    rw [List.map_cons, List.nodup_cons] at distinct
    rw [List.find?_cons]
    rcases List.mem_cons.mp member with rfl | member
    · simp [TypeRef.same]
    · have other : first.subject.same n.subject = false := by
        cases same : first.subject.same n.subject with
        | false => rfl
        | true =>
          refine absurd (List.mem_map.mpr ⟨n, member, ?_⟩) distinct.1
          exact (TypeRef.sameIff.mp same).symm
      rw [other]
      exact ih distinct.2 member

theorem resolveForm {g : Graph} {t : TypeRef} {n : Node} (found : g.node? t = some n)
    (managed : n.subject.isManaged = true) : g.resolve t = n.subject := by
  have kept : (g.node? t).filter (·.subject.isManaged) = some n :=
    Option.filter_eq_some_iff.mpr ⟨found, managed⟩
  unfold resolve
  rw [kept]

@[simp] theorem nodeTrack (g : Graph) (t u : TypeRef) :
    (g.track t).node? u =
      if t.same u then some (((g.node? u).getD { subject := t }).mention t) else g.node? u :=
  Node.trackFind t u g.nodes

@[simp] theorem nodeMark (g : Graph) (t u : TypeRef) (progress : Progress) :
    (g.mark t progress).node? u =
      if t.same u then (g.node? u).map fun n => { n with progress } else g.node? u :=
  Node.markFind t u progress g.nodes

@[simp] theorem progressTrack (g : Graph) (t u : TypeRef) :
    (g.track t).progress? u =
      if t.same u then some ((g.progress? u).getD .unrealized) else g.progress? u := by
  simp only [progress?, nodeTrack]
  split
  · cases g.node? u <;> simp [Node.mentionProgress]
  · rfl

@[simp] theorem progressMark (g : Graph) (t u : TypeRef) (progress : Progress) :
    (g.mark t progress).progress? u =
      if t.same u then (g.progress? u).map fun _ => progress else g.progress? u := by
  simp only [progress?, nodeMark]
  split
  · cases g.node? u <;> rfl
  · rfl

theorem tracksNodes (ts : List TypeRef) (g : Graph) :
    ts.foldl track g = { g with nodes := ts.foldl (fun nodes t => Node.track t nodes) g.nodes } := by
  induction ts generalizing g with
  | nil => rfl
  | cons t rest ih => exact ih (g.track t)

end Graph

end Realization
