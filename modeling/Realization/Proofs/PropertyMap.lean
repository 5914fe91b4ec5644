import Mathlib.Data.List.Forall2
import Realization.Instance
import Realization.Proofs.Admission
import Realization.Proofs.Conformity

/-!
An instance of an accepted contract is a map from the names of its properties to texts. What a call asks of
the map is said from the contract alone, without positions; storage by position answers the same because
no name of an accepted contract leads to two properties.
-/
namespace Realization

inductive Call where
  | get (property : String)
  | set (property value : String)
  | accessor (member : String)
  | mutator (member value : String)
  | invoke (member : String) (args : List String)
  deriving DecidableEq, Repr

abbrev Answer := Except AccessError (Option String)

def serve {σ ι α : Type} (step : σ → ι → α × σ) (s : σ) : List ι → List α × σ
  | [] => ([], s)
  | request :: rest =>
    let (answer, s') := step s request
    let (answers, last) := serve step s' rest
    (answer :: answers, last)

namespace Instance

def attempt (i : Instance) : Call → Except AccessError (Option String × Instance)
  | .get property => (i.get property).map fun text => (some text, i)
  | .set property value => (i.set property value).map fun i' => (none, i')
  | .accessor member => (i.accessor member).map fun text => (some text, i)
  | .mutator member value => (i.mutator member value).map fun i' => (none, i')
  | .invoke member args => i.invoke member args

/- A call that fails leaves the instance on which it was made. -/
def perform (i : Instance) (call : Call) : Answer × Instance :=
  match i.attempt call with
  | .ok (answer, i') => (.ok answer, i')
  | .error e => (.error e, i)

end Instance

abbrev Texts := String → String

inductive Access where
  | read (property : String)
  | write (property value : String)
  | refuse (error : AccessError)
  deriving DecidableEq, Repr

def Texts.act (texts : Texts) : Access → Answer × Texts
  | .read property => (.ok (some (texts property)), texts)
  | .write property value => (.ok none, Function.update texts property value)
  | .refuse e => (.error e, texts)

def Instance.holding (c : Contract) (texts : Texts) : Instance :=
  { contract := c, texts := c.properties.map fun p => texts p.name, sized := List.length_map _ }

namespace Call

def Reads (p : Property) : Call → Prop
  | .get property => p.name = property
  | .accessor member => p.accessor = member
  | .invoke member args => p.accessor = member ∧ args = []
  | .set _ _ | .mutator _ _ => False

def Writes (p : Property) (value : String) : Call → Prop
  | .set property text => p.name = property ∧ text = value
  | .mutator member text => p.mutator = member ∧ text = value
  | .invoke member args => p.mutator = member ∧ args = [value]
  | .get _ | .accessor _ => False

instance (p : Property) : DecidablePred (Reads p)
  | .get _ | .accessor _ => inferInstanceAs (Decidable (_ = _))
  | .invoke _ _ => inferInstanceAs (Decidable (_ ∧ _))
  | .set _ _ | .mutator _ _ => inferInstanceAs (Decidable False)

instance (p : Property) (value : String) : DecidablePred (Writes p value)
  | .set _ _ | .mutator _ _ | .invoke _ _ => inferInstanceAs (Decidable (_ ∧ _))
  | .get _ | .accessor _ => inferInstanceAs (Decidable False)

end Call

namespace Contract

def Refuses (c : Contract) : Call → AccessError → Prop
  | .get property, e | .set property _, e =>
    (∀ p ∈ c.properties, p.name ≠ property) ∧ e = .unknownProperty c.name property
  | .accessor member, e => (∀ p ∈ c.properties, p.accessor ≠ member) ∧ e = .unknownMember c.name member
  | .mutator member _, e => (∀ p ∈ c.properties, p.mutator ≠ member) ∧ e = .unknownMember c.name member
  | .invoke member args, e =>
    (∃ p ∈ c.properties, p.accessor = member ∧ args ≠ [] ∧
      e = .argumentMismatch c.name member 0 args.length) ∨
    (∃ p ∈ c.properties, p.mutator = member ∧ args.length ≠ 1 ∧
      e = .argumentMismatch c.name member 1 args.length) ∨
    ((∀ p ∈ c.properties, p.accessor ≠ member ∧ p.mutator ≠ member) ∧ e = .unknownMember c.name member)

instance (c : Contract) : (call : Call) → (e : AccessError) → Decidable (c.Refuses call e)
  | .get _, _ | .set _ _, _ | .accessor _, _ | .mutator _ _, _ => inferInstanceAs (Decidable (_ ∧ _))
  | .invoke _ _, _ => inferInstanceAs (Decidable (_ ∨ _))

/- What a call asks of the map. -/
def Resolves (c : Contract) (call : Call) : Access → Prop
  | .read property => ∃ p ∈ c.properties, p.name = property ∧ call.Reads p
  | .write property value => ∃ p ∈ c.properties, p.name = property ∧ call.Writes p value
  | .refuse e => c.Refuses call e

instance (c : Contract) (call : Call) : DecidablePred (c.Resolves call)
  | .read _ | .write _ _ => inferInstanceAs (Decidable (∃ p ∈ c.properties, _))
  | .refuse e => inferInstanceAs (Decidable (c.Refuses call e))

structure Keyed (c : Contract) : Prop where
  names : (c.properties.map (·.name)).Nodup
  accessors : (c.properties.map (·.accessor)).Nodup
  mutators : (c.properties.map (·.mutator)).Nodup
  apart : ∀ p ∈ c.properties, ∀ q ∈ c.properties, p.accessor ≠ q.mutator

variable {c : Contract}

theorem Renders.keyed {d : Declaration} (renders : c.Renders d) : c.Keyed := by
  have names : (c.properties.map (·.name)).Nodup := renders.order ▸ eraseDupsNodup _
  have each := List.pairwise_map.mp names
  refine ⟨names, List.pairwise_map.mpr (each.imp_of_mem ?_), List.pairwise_map.mpr (each.imp_of_mem ?_), ?_⟩
  · intro p q first second other same
    exact other ((renders.named p first).1.unique (same ▸ (renders.named q second).1))
  · intro p q first second other same
    exact other ((renders.named p first).2.unique (same ▸ (renders.named q second).2))
  · intro p first q second same
    exact (renders.named p first).1.apart (same ▸ (renders.named q second).2)

theorem keyedAccepted {declarations : List Declaration} {d : Declaration}
    (accepted : ((Verdicts.after declarations).validate d).1 = .ok c) : c.Keyed := by
  have found := (Verdicts.after declarations).validateFound d
  have genuine := Verdicts.validateGenuine (Verdicts.genuineAfter declarations) d
  obtain ⟨source, _, examined⟩ := genuine _ _ found
  exact (ofDeclarationSound (examined.trans accepted)).2.keyed

theorem findIdxKey {ps : List Property} {key : Property → String} (distinct : (ps.map key).Nodup)
    {p : Property} {k : Nat} (stands : ps[k]? = some p) : ps.findIdx? (key · == key p) = some k := by
  obtain ⟨inside, rfl⟩ := List.getElem?_eq_some_iff.mp stands
  have apart := List.pairwise_iff_getElem.mp (List.pairwise_map.mp distinct)
  refine List.findIdx?_eq_some_iff_getElem.mpr ⟨inside, beq_self_eq_true _, fun j before same => ?_⟩
  exact apart j k (Nat.lt_trans before inside) inside before (eq_of_beq same)

theorem findIdxMissing {ps : List Property} {key : Property → String} {name : String}
    (missing : ∀ p ∈ ps, key p ≠ name) : ps.findIdx? (key · == name) = none :=
  List.findIdx?_eq_none_iff.mpr fun p listed => beq_false_of_ne (missing p listed)

theorem Keyed.indices (keyed : c.Keyed) {p : Property} (listed : p ∈ c.properties) :
    ∃ k, c.properties[k]? = some p ∧ c.propertyIndex? p.name = some k ∧
      c.accessorIndex? p.accessor = some k ∧ c.mutatorIndex? p.mutator = some k := by
  obtain ⟨k, stands⟩ := List.mem_iff_getElem?.mp listed
  exact ⟨k, stands, findIdxKey keyed.names stands, findIdxKey keyed.accessors stands,
    findIdxKey keyed.mutators stands⟩

theorem Keyed.unread (keyed : c.Keyed) {p : Property} (listed : p ∈ c.properties) :
    c.accessorIndex? p.mutator = none :=
  findIdxMissing fun q listed' => keyed.apart q listed' p listed

end Contract

namespace Instance

variable {c : Contract} {texts : Texts} {p : Property} {k : Nat} {call : Call} {value : String}

@[simp] theorem propertiesHolding (c : Contract) (texts : Texts) :
    (holding c texts).properties = c.properties.map fun p => (p.name, texts p.name) :=
  List.zip_map'

@[simp] theorem contractHolding : (holding c texts).contract = c := rfl

theorem textAtHolding (stands : c.properties[k]? = some p) : (holding c texts).textAt k = texts p.name := by
  simp [textAt, holding, stands]

theorem setAtHolding (keyed : c.Keyed) (stands : c.properties[k]? = some p) (value : String) :
    (holding c texts).setAt k value = holding c (Function.update texts p.name value) := by
  have inside : k < c.properties.length := (List.getElem?_eq_some_iff.mp stands).1
  have written : (c.properties.map fun q => texts q.name).set k value =
      c.properties.map fun q => Function.update texts p.name value q.name := by
    refine List.ext_getElem? fun j => ?_
    rw [List.getElem?_set, List.getElem?_map, List.getElem?_map]
    by_cases same : k = j
    · subst same
      rw [if_pos rfl, if_pos (by simpa using inside), stands]
      simp
    · rw [if_neg same]
      cases other : c.properties[j]? with
      | none => rfl
      | some q =>
        have apart : q.name ≠ p.name := fun named => by
          have first := Contract.findIdxKey keyed.names other
          rw [named, Contract.findIdxKey keyed.names stands] at first
          exact same (Option.some.inj first)
        simp [apart]
  unfold setAt holding
  simp only [written]

theorem readAlike (keyed : c.Keyed) (listed : p ∈ c.properties) (texts : Texts) :
    (holding c texts).get p.name = .ok (texts p.name) ∧
      (holding c texts).accessor p.accessor = .ok (texts p.name) ∧
      (holding c texts).invoke p.accessor [] = .ok (some (texts p.name), holding c texts) := by
  obtain ⟨k, stands, property, accessor, -⟩ := keyed.indices listed
  have text : (holding c texts).textAt k = texts p.name := textAtHolding stands
  refine ⟨?_, ?_, ?_⟩
  · simp only [get, contractHolding, property, text]
  · simp only [Instance.accessor, contractHolding, accessor, text]
  · simp only [invoke, contractHolding, accessor, text]

theorem writtenAlike (keyed : c.Keyed) (listed : p ∈ c.properties) (texts : Texts) (value : String) :
    let written := holding c (Function.update texts p.name value)
    (holding c texts).set p.name value = .ok written ∧
      (holding c texts).mutator p.mutator value = .ok written ∧
      (holding c texts).invoke p.mutator [value] = .ok (none, written) := by
  intro written
  obtain ⟨k, stands, property, -, mutator⟩ := keyed.indices listed
  have unread := keyed.unread listed
  have change : (holding c texts).setAt k value = written := setAtHolding keyed stands value
  refine ⟨?_, ?_, ?_⟩
  · simp only [set, contractHolding, property, change]
  · simp only [Instance.mutator, contractHolding, mutator, change]
  · simp only [invoke, contractHolding, unread, mutator, change]

theorem refused (keyed : c.Keyed) {e : AccessError} (refuses : c.Refuses call e) (texts : Texts) :
    (holding c texts).attempt call = .error e := by
  cases call with
  | get property | set property value =>
    obtain ⟨missing, rfl⟩ := refuses
    have unknown : c.propertyIndex? property = none := Contract.findIdxMissing missing
    simp only [attempt, get, set, contractHolding, unknown, Except.map]
  | accessor member =>
    obtain ⟨missing, rfl⟩ := refuses
    have unknown : c.accessorIndex? member = none := Contract.findIdxMissing missing
    simp only [attempt, Instance.accessor, contractHolding, unknown, Except.map]
  | mutator member value =>
    obtain ⟨missing, rfl⟩ := refuses
    have unknown : c.mutatorIndex? member = none := Contract.findIdxMissing missing
    simp only [attempt, Instance.mutator, contractHolding, unknown, Except.map]
  | invoke member args =>
    obtain ⟨p, listed, rfl, some, rfl⟩ | ⟨p, listed, rfl, wrong, rfl⟩ | ⟨missing, rfl⟩ := refuses
    · obtain ⟨k, -, -, accessor, -⟩ := keyed.indices listed
      obtain ⟨arg, rest, rfl⟩ := List.exists_cons_of_ne_nil some
      simp only [attempt, invoke, contractHolding, accessor]
    · obtain ⟨k, -, -, -, mutator⟩ := keyed.indices listed
      have unread := keyed.unread listed
      match args, wrong with
      | [], _ | _ :: _ :: _, _ => simp only [attempt, invoke, contractHolding, unread, mutator]
    · have unread : c.accessorIndex? member = none :=
        Contract.findIdxMissing fun p listed => (missing p listed).1
      have unwritten : c.mutatorIndex? member = none :=
        Contract.findIdxMissing fun p listed => (missing p listed).2
      simp only [attempt, invoke, contractHolding, unread, unwritten]

theorem reads (keyed : c.Keyed) (listed : p ∈ c.properties) (asks : call.Reads p) (texts : Texts) :
    (holding c texts).attempt call = .ok (some (texts p.name), holding c texts) := by
  obtain ⟨byName, byAccessor, invoked⟩ := readAlike keyed listed texts
  cases call with
  | get property =>
    obtain rfl : p.name = property := asks
    rw [attempt, byName]
    rfl
  | accessor member =>
    obtain rfl : p.accessor = member := asks
    rw [attempt, byAccessor]
    rfl
  | invoke member args =>
    obtain ⟨rfl, rfl⟩ := asks
    exact invoked
  | set property text | mutator member text => exact asks.elim

theorem writes (keyed : c.Keyed) (listed : p ∈ c.properties) (asks : call.Writes p value) (texts : Texts) :
    (holding c texts).attempt call = .ok (none, holding c (Function.update texts p.name value)) := by
  obtain ⟨byName, byMutator, invoked⟩ := writtenAlike keyed listed texts value
  cases call with
  | set property text =>
    obtain ⟨rfl, rfl⟩ := asks
    rw [attempt, byName]
    rfl
  | mutator member text =>
    obtain ⟨rfl, rfl⟩ := asks
    rw [attempt, byMutator]
    rfl
  | invoke member args =>
    obtain ⟨rfl, rfl⟩ := asks
    exact invoked
  | get property | accessor member => exact asks.elim

theorem performHolding (keyed : c.Keyed) {access : Access} (resolves : c.Resolves call access) (texts : Texts) :
    (holding c texts).perform call = ((texts.act access).1, holding c (texts.act access).2) := by
  unfold perform
  cases access with
  | read property =>
    obtain ⟨p, listed, rfl, asks⟩ := resolves
    rw [reads keyed listed asks]
    rfl
  | write property value =>
    obtain ⟨p, listed, rfl, asks⟩ := resolves
    rw [writes keyed listed asks]
    rfl
  | refuse e =>
    rw [refused keyed resolves]
    rfl

theorem serveHolding (keyed : c.Keyed) {calls : List Call} {accesses : List Access}
    (resolves : List.Forall₂ c.Resolves calls accesses) (texts : Texts) :
    serve perform (holding c texts) calls =
      ((serve Texts.act texts accesses).1, holding c (serve Texts.act texts accesses).2) := by
  induction resolves generalizing texts with
  | nil => rfl
  | cons first later ih => simp only [serve, performHolding keyed first, ih]

end Instance

namespace Contract

variable {c : Contract}

theorem resolvesSome (c : Contract) (call : Call) : ∃ access, c.Resolves call access := by
  have named : ∀ (key : Property → String) (name : String),
      (∃ p ∈ c.properties, key p = name) ∨ ∀ p ∈ c.properties, key p ≠ name := by
    intro key name
    by_cases known : ∃ p ∈ c.properties, key p = name
    · exact .inl known
    · exact .inr (by simpa using known)
  cases call with
  | get property =>
    obtain ⟨p, listed, same⟩ | missing := named (·.name) property
    · exact ⟨.read p.name, p, listed, rfl, same⟩
    · exact ⟨.refuse _, missing, rfl⟩
  | set property value =>
    obtain ⟨p, listed, same⟩ | missing := named (·.name) property
    · exact ⟨.write p.name value, p, listed, rfl, same, rfl⟩
    · exact ⟨.refuse _, missing, rfl⟩
  | accessor member =>
    obtain ⟨p, listed, same⟩ | missing := named (·.accessor) member
    · exact ⟨.read p.name, p, listed, rfl, same⟩
    · exact ⟨.refuse _, missing, rfl⟩
  | mutator member value =>
    obtain ⟨p, listed, same⟩ | missing := named (·.mutator) member
    · exact ⟨.write p.name value, p, listed, rfl, same, rfl⟩
    · exact ⟨.refuse _, missing, rfl⟩
  | invoke member args =>
    obtain ⟨p, listed, same⟩ | unread := named (·.accessor) member
    · by_cases none : args = []
      · exact ⟨.read p.name, p, listed, rfl, same, none⟩
      · exact ⟨.refuse _, .inl ⟨p, listed, same, none, rfl⟩⟩
    obtain ⟨p, listed, same⟩ | unwritten := named (·.mutator) member
    · by_cases one : args.length = 1
      · obtain ⟨value, rfl⟩ := List.length_eq_one_iff.mp one
        exact ⟨.write p.name value, p, listed, rfl, same, rfl⟩
      · exact ⟨.refuse _, .inr (.inl ⟨p, listed, same, one, rfl⟩)⟩
    · exact ⟨.refuse _, .inr (.inr ⟨fun p listed => ⟨unread p listed, unwritten p listed⟩, rfl⟩)⟩

theorem Keyed.resolvesOnce (keyed : c.Keyed) : Relator.RightUnique c.Resolves := by
  intro call a b first second
  have alike : ∀ texts : Texts, (texts.act a).1 = (texts.act b).1 ∧
      Instance.holding c (texts.act a).2 = .holding c (texts.act b).2 := fun texts =>
    Prod.mk.inj ((Instance.performHolding keyed first texts).symm.trans
      (Instance.performHolding keyed second texts))
  have answer := (alike id).1
  cases a <;> cases b <;> simp only [Texts.act, Except.ok.injEq, Except.error.injEq, Option.some.injEq,
    reduceCtorEq, id] at answer
  case read.read | refuse.refuse => rw [answer]
  case write.write property value property' value' =>
    obtain ⟨p, listed, rfl, -⟩ := first
    have there : ∀ texts : Texts, value = Function.update texts property' value' p.name := by
      intro texts
      have held := List.map_inj_left.mp (congrArg Instance.texts (alike texts).2) p listed
      simpa [Texts.act] using held
    by_cases same : p.name = property'
    · subst same
      have written : value = value' := by simpa using there id
      rw [written]
    · have kept := there fun _ => if value = "" then "other" else ""
      rw [Function.update_of_ne same] at kept
      split at kept <;> simp_all

end Contract

namespace Instance

theorem mirrorsMap {declarations : List Declaration} {d : Declaration} {c : Contract}
    (accepted : ((Verdicts.after declarations).validate d).1 = .ok c) (calls : List Call) :
    ∃ accesses, (∀ others, List.Forall₂ c.Resolves calls others ↔ others = accesses) ∧
      let map := serve Texts.act (fun _ => "") accesses
      let served := serve perform (blank c) calls
      let i := served.2
      served.1 = map.1 ∧ i = holding c map.2 ∧
        i.properties = c.properties.map (fun p => (p.name, map.2 p.name)) ∧
        (i.properties.map (·.1)).Nodup ∧
        ∀ p ∈ c.properties, i.accessor p.accessor = i.get p.name ∧
          ∀ value, i.mutator p.mutator value = i.set p.name value := by
  have keyed := Contract.keyedAccepted accepted
  have resolved : ∃ accesses, List.Forall₂ c.Resolves calls accesses := by
    induction calls with
    | nil => exact ⟨[], .nil⟩
    | cons call rest ih =>
      obtain ⟨access, first⟩ := c.resolvesSome call
      obtain ⟨accesses, later⟩ := ih
      exact ⟨access :: accesses, .cons first later⟩
  obtain ⟨accesses, resolves⟩ := resolved
  have only : ∀ others, List.Forall₂ c.Resolves calls others ↔ others = accesses := fun others =>
    ⟨fun also => keyed.resolvesOnce.forall₂ also resolves, fun same => same ▸ resolves⟩
  refine ⟨accesses, only, ?_⟩
  intro map served i
  have mirrored : served = (map.1, holding c map.2) := serveHolding keyed resolves fun _ => ""
  have held : i = holding c map.2 := congrArg Prod.snd mirrored
  have listed : i.properties = c.properties.map fun p => (p.name, map.2 p.name) := by
    rw [held, propertiesHolding]
  refine ⟨congrArg Prod.fst mirrored, held, listed, ?_, fun p inside => ?_⟩
  · rw [listed, List.map_map]
    exact keyed.names
  · rw [held]
    obtain ⟨got, read, -⟩ := readAlike keyed inside map.2
    refine ⟨read.trans got.symm, fun value => ?_⟩
    obtain ⟨put, written, -⟩ := writtenAlike keyed inside map.2 value
    exact written.trans put.symm

theorem mirrorsMapNote :
    let note := ((Declaration.interface "Note").property "text" .text).property "title" .text
    let c : Contract := ⟨"Note", note.fingerprint,
      [⟨"text", .text, "getText", "setText"⟩, ⟨"title", .text, "getTitle", "setTitle"⟩]⟩
    let calls : List Call := [.mutator "setText" "draft", .get "text", .accessor "setText",
      .set "getTitle" "plan", .invoke "setTitle" [], .invoke "getText" ["plan"],
      .invoke "setTitle" ["plan"], .invoke "getTitle" []]
    let served := serve perform (blank c) calls
    ((Verdicts.after [note]).validate note).1 = .ok c ∧
      served.1 = [.ok none, .ok (some "draft"), .error (.unknownMember "Note" "setText"),
        .error (.unknownProperty "Note" "getTitle"), .error (.argumentMismatch "Note" "setTitle" 1 0),
        .error (.argumentMismatch "Note" "getText" 0 1), .ok none, .ok (some "plan")] ∧
      served.2.properties = [("text", "draft"), ("title", "plan")] := by
  intro note c calls served
  have accepted : ((Verdicts.after [note]).validate note).1 = .ok c := by decide +kernel
  obtain ⟨accesses, only, answered, -, listed, -⟩ := mirrorsMap accepted calls
  have asked : accesses = [.write "text" "draft", .read "text", .refuse (.unknownMember "Note" "setText"),
      .refuse (.unknownProperty "Note" "getTitle"), .refuse (.argumentMismatch "Note" "setTitle" 1 0),
      .refuse (.argumentMismatch "Note" "getText" 0 1), .write "title" "plan", .read "title"] :=
    ((only _).mp (by decide)).symm
  subst asked
  exact ⟨accepted, answered.trans (by decide +kernel), listed.trans (by decide +kernel)⟩

end Instance

end Realization
