import Mathlib.Data.List.Forall2
import Mathlib.Data.List.Nodup
import Realization.Declaration.Json

/-!
Declarations survive being written. A record may be written with its fields in any order, among unknown
ones, and without those that are as by default; whichever form a declaration and its members are given,
reading finds that declaration and no other.
-/
namespace Realization

namespace Json

/- The fields that an object may have instead of those of `full`, if the ones in `spare` may be missing. -/
inductive Spells (full spare : List (String × Json)) : List (String × Json) → Prop where
  | shuffled {kept unknown fields} (among : kept.Sublist full) (spared : ∀ f ∈ full, f ∈ kept ∨ f ∈ spare)
      (foreign : ∀ f ∈ unknown, f.1 ∉ full.map (·.1)) (order : fields.Perm (kept ++ unknown)) :
      Spells full spare fields

variable {full spare fields : List (String × Json)} {key : String} {value : Json}

theorem spellsItself (full spare : List (String × Json)) : Spells full spare full :=
  @Spells.shuffled full spare full [] full (List.Sublist.refl full) (fun _ member => .inl member) (by simp)
    (by rw [List.append_nil])

theorem Spells.lookup (spells : Spells full spare fields) (distinct : (full.map (·.1)).Nodup)
    (listed : (key, value) ∈ full) :
    Json.lookup key fields = some value ∨ Json.lookup key fields = none ∧ (key, value) ∈ spare := by
  obtain ⟨among, spared, foreign, order⟩ := spells
  unfold Json.lookup
  cases found : fields.find? (·.1 == key) with
  | none =>
    refine .inr ⟨rfl, (spared _ listed).resolve_left fun kept => ?_⟩
    have member := order.mem_iff.mpr (List.mem_append_left _ kept)
    simpa using List.find?_eq_none.mp found _ member
  | some f =>
    have named : f.1 = key := by simpa using List.find?_some found
    rcases List.mem_append.mp (order.mem_iff.mp (List.mem_of_find?_eq_some found)) with kept | unknown
    · have same := List.inj_on_of_nodup_map distinct (among.subset kept) listed named
      exact .inl (by rw [same]; rfl)
    · exact absurd (List.mem_map.mpr ⟨_, listed, named.symm⟩) (foreign f unknown)

theorem Spells.required (spells : Spells full spare fields) (distinct : (full.map (·.1)).Nodup)
    (listed : (key, value) ∈ full) (needed : (key, value) ∉ spare) :
    Json.lookup key fields = some value :=
  (spells.lookup distinct listed).resolve_right fun missing => needed missing.2

theorem Spells.optional (spells : Spells full spare fields) (distinct : (full.map (·.1)).Nodup)
    (listed : (key, value) ∈ full) {α : Type} {default a : α} {read : Json → Option α}
    (reads : read value = some a) (spared : (key, value) ∈ spare → a = default) :
    orDefault default read (Json.lookup key fields) = some a := by
  rcases spells.lookup distinct listed with found | ⟨missing, member⟩
  · rw [found]
    exact reads
  · rw [missing, spared member]
    rfl

end Json

open Json (Spells)

theorem listOfJsonReads {α : Type} {read : Json → Option α} {items : List α} {forms : List Json}
    (reads : List.Forall₂ (fun item form => read form = some item) items forms) :
    listOfJson? read (.array forms) = some items := by
  show forms.mapM read = some items
  induction reads with
  | nil => rfl
  | cons first _ ih => simp [List.mapM_cons, first, ih]

theorem listOfJsonMap {α : Type} {read : Json → Option α} {write : α → Json}
    (back : ∀ a, read (write a) = some a) (items : List α) :
    listOfJson? read (.array (items.map write)) = some items :=
  listOfJsonReads (List.forall₂_map_right_iff.mpr (List.forall₂_same.mpr fun a _ => back a))

@[simp] theorem Kind.ofJsonToJson (k : Kind) : Kind.ofJson? k.toJson = some k := by
  cases k <;> rfl

@[simp] theorem Shape.ofJsonLabel (s : Shape) : Shape.ofJson? (.string s.label) = some s := by
  cases s <;> rfl

namespace Member

def fields (m : Member) : List (String × Json) :=
  [("name", .string m.name), ("params", .array (m.params.map Kind.toJson)),
    ("returns", (m.returns.map Kind.toJson).getD .null), ("has_body", .bool m.hasBody)]

def spare : List (String × Json) := [("params", .array []), ("returns", .null), ("has_body", .bool false)]

inductive Written (m : Member) : Json → Prop where
  | object {fields} (spells : Spells m.fields spare fields) : Written m (.object fields)

variable {m : Member} {j : Json}

theorem writtenItself (m : Member) : m.Written m.toJson := .object (Json.spellsItself m.fields spare)

theorem returnsRead {fields : List (String × Json)} (spells : Spells m.fields spare fields) :
    returnsOfJson? (Json.lookup "returns" fields) = some m.returns := by
  have listed : ("returns", (m.returns.map Kind.toJson).getD .null) ∈ m.fields := by simp [Member.fields]
  rcases spells.lookup (by simp [Member.fields]) listed with found | ⟨missing, default⟩
  · rw [found]
    cases m.returns with
    | none => rfl
    | some k => cases k <;> rfl
  · rw [missing]
    cases returned : m.returns with
    | none => rfl
    | some k => cases k <;> simp [returned, Member.spare, Kind.toJson] at default

theorem writtenRead (written : m.Written j) : Member.ofJson? j = some m := by
  obtain @⟨fields, spells⟩ := written
  have distinct : (m.fields.map (·.1)).Nodup := by simp [Member.fields]
  have name : Json.lookup "name" fields = some (.string m.name) :=
    spells.required distinct (by simp [Member.fields]) (by simp [Member.spare])
  have params : orDefault [] (listOfJson? Kind.ofJson?) (Json.lookup "params" fields) = some m.params :=
    spells.optional distinct (by simp [Member.fields]) (listOfJsonMap Kind.ofJsonToJson m.params)
      (by simp [Member.spare])
  have listed : ("has_body", .bool m.hasBody) ∈ m.fields := by simp [Member.fields]
  have hasBody : orDefault false Json.bool? (Json.lookup "has_body" fields) = some m.hasBody :=
    spells.optional distinct listed rfl (by simp [Member.spare])
  simp [Member.ofJson?, Json.record?, name, params, returnsRead spells, hasBody, Json.text?]

end Member

namespace Declaration

def fieldsOver (d : Declaration) (members : List Json) : List (String × Json) :=
  [("name", .string d.name), ("shape", .string d.shape.label), ("extends", .array (d.parents.map .string)),
    ("fields", .array (d.fields.map .string)), ("members", .array members)]

def spare : List (String × Json) := [("extends", .array []), ("fields", .array []), ("members", .array [])]

inductive Written (d : Declaration) : Json → Prop where
  | object {members fields} (each : List.Forall₂ Member.Written d.members members)
      (spells : Spells (d.fieldsOver members) spare fields) : Written d (.object fields)

variable {d : Declaration} {j : Json}

theorem writtenItself (d : Declaration) : d.Written d.toJson :=
  .object (List.forall₂_map_right_iff.mpr (List.forall₂_same.mpr fun m _ => m.writtenItself))
    (Json.spellsItself _ spare)

theorem writtenRead (written : d.Written j) : Declaration.ofJson? j = some d := by
  obtain @⟨members, fields, each, spells⟩ := written
  have distinct : ((d.fieldsOver members).map (·.1)).Nodup := by simp [fieldsOver]
  have texts : ∀ s : String, Json.text? (.string s) = some s := fun _ => rfl
  have name : Json.lookup "name" fields = some (.string d.name) :=
    spells.required distinct (by simp [fieldsOver]) (by simp [Declaration.spare])
  have shape : Json.lookup "shape" fields = some (.string d.shape.label) :=
    spells.required distinct (by simp [fieldsOver]) (by simp [Declaration.spare])
  have parents : orDefault [] (listOfJson? Json.text?) (Json.lookup "extends" fields) = some d.parents :=
    spells.optional distinct (by simp [fieldsOver]) (listOfJsonMap texts d.parents) (by simp [Declaration.spare])
  have state : orDefault [] (listOfJson? Json.text?) (Json.lookup "fields" fields) = some d.fields :=
    spells.optional distinct (by simp [fieldsOver]) (listOfJsonMap texts d.fields) (by simp [Declaration.spare])
  have read : listOfJson? Member.ofJson? (.array members) = some d.members :=
    listOfJsonReads (each.imp fun _ _ => Member.writtenRead)
  have memberless : members = [] → d.members = [] := by
    rintro rfl
    exact List.forall₂_nil_right_iff.mp each
  have members : orDefault [] (listOfJson? Member.ofJson?) (Json.lookup "members" fields) = some d.members :=
    spells.optional distinct (by simp [fieldsOver]) read (by simpa [Declaration.spare] using memberless)
  simp [Declaration.ofJson?, Json.record?, name, shape, parents, state, members, Json.text?]

theorem writtenFormsRead (d : Declaration) :
    Declaration.ofJson? d.toJson = some d ∧ ∀ j, d.Written j → Declaration.ofJson? j = some d :=
  ⟨writtenRead (writtenItself d), fun _ => writtenRead⟩

def owned : Declaration :=
  { name := "Owned", shape := .interface,
    members := [{ name := "getOwner", returns := some (.model "Person") },
      { name := "describe", params := [.text], hasBody := true }] }

def ownedForm : Json :=
  .object [("note", .number 7 0),
    ("members", .array [.object [("returns", .object [("model", .string "Person")]), ("name", .string "getOwner")],
      .object [("note", .null), ("has_body", .bool true), ("params", .array [.string "text"]),
        ("name", .string "describe")]]),
    ("shape", .string "interface"), ("name", .string "Owned")]

theorem writtenFormsReadOwned : owned.Written ownedForm ∧ Declaration.ofJson? ownedForm = some owned := by
  have owner : Member.Written ⟨"getOwner", [], some (.model "Person"), false⟩
      (.object [("returns", .object [("model", .string "Person")]), ("name", .string "getOwner")]) := by
    refine .object (@Spells.shuffled _ _
      [("name", .string "getOwner"), ("returns", .object [("model", .string "Person")])]
      [] _ ?_ ?_ ?_ (.swap _ _ _))
    · exact .cons_cons _ (.cons _ (.cons_cons _ (.cons _ .slnil)))
    · simp [Member.fields, Member.spare, Kind.toJson]
    · simp
  have describe : Member.Written ⟨"describe", [.text], none, true⟩
      (.object [("note", .null), ("has_body", .bool true), ("params", .array [.string "text"]),
        ("name", .string "describe")]) := by
    refine .object (@Spells.shuffled _ _
      [("name", .string "describe"), ("params", .array [.string "text"]), ("has_body", .bool true)]
      [("note", .null)] _ ?_ ?_ ?_ (List.reverse_perm _).symm)
    · exact .cons_cons _ (.cons_cons _ (.cons _ (.cons_cons _ .slnil)))
    · simp [Member.fields, Member.spare, Kind.toJson, Kind.label]
    · simp [Member.fields]
  have written : owned.Written ownedForm := by
    refine .object (.cons owner (.cons describe .nil)) (@Spells.shuffled _ _
      [("name", .string "Owned"), ("shape", .string "interface"), ("members", .array _)]
      [("note", .number 7 0)] _ ?_ ?_ ?_ (List.reverse_perm _).symm)
    · exact .cons_cons _ (.cons_cons _ (.cons _ (.cons _ (.cons_cons _ .slnil))))
    · simp [fieldsOver, owned, Declaration.spare, Shape.label]
    · simp [fieldsOver]
  exact ⟨written, (writtenFormsRead owned).2 ownedForm written⟩

end Declaration

end Realization
