import Realization.Proofs.LetterCase
import Realization.Proofs.PropertyMap

/-!
Declared properties under their own names. A list of properties is rendered as a declaration by writing down the
two members of each, one pair after the other, and validation reads the list back. From plain names the members are
named in title case, and the property that is read back has the plain name again, unless the naming rule takes the
start of the member's title for an acronym and keeps it.
-/
namespace Realization

namespace Slot

variable {property type : String} {change : Slot → Slot} {slots : List Slot} {s : Slot} {ps : List Property}

theorem slotMissing (fresh : property ∉ slots.map (·.property)) : slots.find? (·.property == property) = none := by
  refine List.find?_eq_none.mpr fun s member same => fresh ?_
  exact List.mem_map.mpr ⟨s, member, eq_of_beq same⟩

theorem findFresh (fresh : property ∉ slots.map (·.property)) : find property slots = { property := property } := by
  rw [find, slotMissing fresh, Option.getD_none]

theorem findLast (fresh : property ∉ slots.map (·.property)) (own : s.property = property) :
    find property (slots ++ [s]) = s := by
  simp [find, List.find?_append, slotMissing fresh, own]

theorem updateFresh (fresh : property ∉ slots.map (·.property)) :
    update property change slots = slots ++ [change { property := property }] := by
  induction slots with
  | nil => rfl
  | cons first rest ih =>
    rw [List.map_cons, List.mem_cons, not_or] at fresh
    rw [update, if_neg (Ne.symm fresh.1), ih fresh.2, List.cons_append]

theorem updateLast (fresh : property ∉ slots.map (·.property)) (own : s.property = property) :
    update property change (slots ++ [s]) = slots ++ [change s] := by
  induction slots with
  | nil => simp [update, own]
  | cons first rest ih =>
    rw [List.map_cons, List.mem_cons, not_or] at fresh
    rw [List.cons_append, update, if_neg (Ne.symm fresh.1), ih fresh.2, List.cons_append]

theorem ofPair {p : Property} {rest : List Member} (named : ∀ side : Side, Named side.lead p.name (side.title p))
    (fresh : p.name ∉ slots.map (·.property)) :
    ofMembers type slots (p.members ++ rest) = ofMembers type (slots ++ [p.slot]) rest := by
  have role : ∀ side : Side, (side.member (side.title p) p.kind).role = .ok (side.role p.name p.kind) :=
    fun side => Member.roleExact.mpr ⟨by simpa using named side, Side.memberSigned⟩
  have first : ofMember type slots (.reader p.accessor p.kind) =
      .ok (slots ++ [{ property := p.name, accessor := some (p.accessor, p.kind) }]) := by
    refine (ofMemberRole (role .reading)).trans ?_
    rw [findFresh fresh, updateFresh fresh]
    rfl
  have second : ofMember type (slots ++ [{ property := p.name, accessor := some (p.accessor, p.kind) }])
      (.writer p.mutator p.kind) = .ok (slots ++ [p.slot]) := by
    refine (ofMemberRole (role .writing)).trans ?_
    rw [findLast fresh rfl, updateLast fresh rfl]
    rfl
  simp only [Property.members, List.cons_append, List.nil_append, ofMembers, first, second]

theorem ofMembersListed (titled : Titled ps) (distinct : (slots.map (·.property) ++ ps.map (·.name)).Nodup) :
    ofMembers type slots (ps.flatMap Property.members) = .ok (slots ++ ps.map Property.slot) := by
  induction ps generalizing slots with
  | nil => simp [ofMembers]
  | cons p rest ih =>
    obtain ⟨named, later⟩ := List.forall_mem_cons.mp titled
    have fresh : p.name ∉ slots.map (·.property) := fun member =>
      (List.nodup_append.mp distinct).2.2 _ member _ List.mem_cons_self rfl
    have onward : ((slots ++ [p.slot]).map (·.property) ++ rest.map (·.name)).Nodup := by
      simpa [Property.slot, Property.pair, Pair.slot] using distinct
    rw [List.flatMap_cons, ofPair named fresh, ih later onward, List.append_assoc]
    rfl

end Slot

def Declaration.listing (type : String) (ps : List Property) : Declaration :=
  { name := type, shape := .interface, members := ps.flatMap Property.members }

theorem listingAccepted {type : String} {ps : List Property} (titled : Titled ps)
    (distinct : (ps.map (·.name)).Nodup) (textual : ∀ p ∈ ps, p.kind = .text) :
    Contract.ofDeclaration (.listing type ps) = .ok ⟨type, (Declaration.listing type ps).fingerprint, ps⟩ := by
  refine ofDeclarationExact.mpr ⟨checkShapeExact.mpr ⟨rfl, rfl, ?_, rfl⟩, rfl, rfl, ?_, textual⟩
  · intro m member
    obtain ⟨p, _, side, rfl⟩ := memberOf.mp member
    cases side <;> rfl
  · exact Slot.ofMembersListed titled distinct

namespace Instance

variable {i i' : Instance} {property value : String}

theorem getExact (i : Instance) (property : String) :
    (∃ text, i.get property = .ok text) ↔ ∃ p ∈ i.contract.properties, p.name = property := by
  unfold get Contract.propertyIndex?
  cases found : i.contract.properties.findIdx? (·.name == property) with
  | none =>
    rw [List.findIdx?_eq_none_iff] at found
    simpa using found
  | some index =>
    obtain ⟨inside, same, _⟩ := List.findIdx?_eq_some_iff_getElem.mp found
    exact iff_of_true ⟨_, rfl⟩ ⟨_, List.getElem_mem inside, eq_of_beq same⟩

theorem setExact (i : Instance) (property value : String) :
    (∃ i', i.set property value = .ok i') ↔ ∃ p ∈ i.contract.properties, p.name = property := by
  rw [← getExact]
  unfold get set
  cases i.contract.propertyIndex? property <;> simp

theorem getWritten (written : i.set property value = .ok i') : i'.get property = .ok value := by
  unfold set at written
  cases found : i.contract.propertyIndex? property with
  | none =>
    rw [found] at written
    contradiction
  | some index =>
    rw [found] at written
    cases written
    obtain ⟨inside, _⟩ := List.findIdx?_eq_some_iff_getElem.mp found
    have inside : index < i.texts.length := i.sized ▸ inside
    simp [get, setAt, textAt, found, inside]

end Instance

def Plain (name : String) : Prop :=
  ∃ c rest, name = String.ofList (c :: rest) ∧ c.isLower = true ∧ ∀ d ∈ rest, d.isAlphanum = true

def titleOf (name : String) : String :=
  match name.toList with
  | [] => ""
  | c :: rest => String.ofList (c.toUpper :: rest)

def capitalSecond (name : String) : Bool := name.toList.tail.head?.any Char.isUpper

def plainProperty (name : String) : Property where
  name := if capitalSecond name then titleOf name else name
  kind := .text
  accessor := "get" ++ titleOf name
  mutator := "set" ++ titleOf name

def Declaration.withTexts (d : Declaration) (names : List String) : Declaration :=
  names.foldl (fun d name => d.property name .text) d

namespace Plain

variable {n m : String}

theorem title {c : Char} {rest : List Char} :
    titleOf (String.ofList (c :: rest)) = String.ofList (c.toUpper :: rest) := by
  rw [titleOf, String.toList_ofList]

theorem property {c : Char} {rest : List Char} : (plainProperty (String.ofList (c :: rest))).name =
    String.ofList ((if rest.head?.any Char.isUpper then c.toUpper else c) :: rest) := by
  simp only [plainProperty, capitalSecond, String.toList_ofList, List.tail_cons, title]
  split <;> rfl

theorem members (plain : Plain n) :
    accessorName n = "get" ++ titleOf n ∧ mutatorName n = "set" ++ titleOf n := by
  obtain ⟨c, rest, rfl, small, _⟩ := plain
  have capital : Text.capitalize (c :: rest) = c.toUpper :: rest := by
    rw [Text.capitalize, (Text.asciiLower small).1, List.singleton_append]
  rw [title, accessorName, mutatorName, String.toList_ofList, capital, String.ofList_append, String.ofList_append]
  exact ⟨rfl, rfl⟩

theorem uppercase {d : Char} (plain : d.isAlphanum = true) : Text.isUppercase d = d.isUpper :=
  Text.asciiUppercase (Text.alphanumAscii plain)

theorem named (plain : Plain n) {lead : List Char} {word : String} (spelt : word.toList = lead) :
    Named lead (plainProperty n).name (word ++ titleOf n) := by
  obtain ⟨c, rest, rfl, small, plain⟩ := plain
  obtain ⟨_, upper, lowered⟩ := Text.asciiLower small
  refine ⟨c.toUpper, rest, by rw [title, String.toList_append, spelt, String.toList_ofList], upper, ?_⟩
  rw [property]
  cases rest with
  | nil =>
    rw [Text.decapitalize, lowered]
    rfl
  | cons d rest =>
    rw [Text.decapitalize, upper, uppercase (plain d List.mem_cons_self), lowered, List.head?_cons, Option.any_some]
    cases d.isUpper <;> rfl

theorem titleApart (plain : Plain n) (plain' : Plain m) : titleOf n ≠ m := by
  obtain ⟨c, rest, rfl, small, _⟩ := plain
  obtain ⟨c', rest', rfl, small', _⟩ := plain'
  rw [title]
  intro same
  have upper := (Text.asciiLower small).2.1
  have low := Text.lowerRange.mp small'
  rw [List.head_eq_of_cons_eq (String.ofList_injective same), Text.asciiUppercase (by omega), Text.upperRange] at upper
  omega

theorem titleInjective (plain : Plain n) (plain' : Plain m) (same : titleOf n = titleOf m) : n = m := by
  obtain ⟨c, rest, rfl, small, _⟩ := plain
  obtain ⟨c', rest', rfl, small', _⟩ := plain'
  rw [title, title] at same
  obtain ⟨heads, rests⟩ := List.cons.inj (String.ofList_injective same)
  have lowered := (Text.asciiLower small).2.2
  rw [heads, (Text.asciiLower small').2.2] at lowered
  rw [List.head_eq_of_cons_eq lowered, rests]

theorem own (plain : Plain n) (plain' : Plain m) : (plainProperty n).name = m ↔ n = m ∧ capitalSecond n = false := by
  cases capital : capitalSecond n with
  | true => simpa [plainProperty, capital] using titleApart plain plain'
  | false => simp [plainProperty, capital]

theorem apart (plain : Plain n) (plain' : Plain m) (same : (plainProperty n).name = (plainProperty m).name) :
    n = m := by
  cases capital : capitalSecond m with
  | true =>
    cases capital' : capitalSecond n with
    | true => exact titleInjective plain plain' (by simpa [plainProperty, capital, capital'] using same)
    | false =>
      have crossed : titleOf m = n := by simpa [plainProperty, capital, capital'] using same.symm
      exact absurd crossed (titleApart plain' plain)
  | false =>
    have kept : (plainProperty m).name = m := (own plain' plain').mpr ⟨rfl, capital⟩
    exact ((own plain plain').mp (same.trans kept)).1

end Plain

theorem withTextsLists {names : List String} (plain : ∀ n ∈ names, Plain n) (d : Declaration) :
    d.withTexts names = { d with members := d.members ++ (names.map plainProperty).flatMap Property.members } := by
  induction names generalizing d with
  | nil => simp [Declaration.withTexts]
  | cons n rest ih =>
    obtain ⟨here, later⟩ := List.forall_mem_cons.mp plain
    obtain ⟨accessor, mutator⟩ := here.members
    have next : d.withTexts (n :: rest) = (d.property n .text).withTexts rest := rfl
    rw [next, ih later]
    simp [Declaration.property, Declaration.accessor, Declaration.mutator, Declaration.member, accessor, mutator,
      Property.members, plainProperty, Member.reader, Member.writer]

theorem plainAccepted {names : List String} (type : String) (plain : ∀ n ∈ names, Plain n)
    (distinct : names.Nodup) : let d := (Declaration.interface type).withTexts names
    Contract.ofDeclaration d = .ok ⟨type, d.fingerprint, names.map plainProperty⟩ := by
  intro d
  have listed : d = .listing type (names.map plainProperty) := withTextsLists plain _
  have titled : Titled (names.map plainProperty) := by
    intro p member
    obtain ⟨n, listed, rfl⟩ := List.mem_map.mp member
    exact Side.eachSide.mpr ⟨(plain n listed).named rfl, (plain n listed).named rfl⟩
  have apart : ((names.map plainProperty).map (·.name)).Nodup := by
    rw [List.map_map]
    exact distinct.map_on fun n listed m listed' => (plain n listed).apart (plain m listed')
  have textual : ∀ p ∈ names.map plainProperty, p.kind = .text := by
    intro p member
    obtain ⟨n, _, rfl⟩ := List.mem_map.mp member
    rfl
  rw [listed]
  exact listingAccepted titled apart textual

theorem plainNamesUsable {names : List String} (type : String) (plain : ∀ n ∈ names, Plain n)
    (distinct : names.Nodup) :
    let d := (Declaration.interface type).withTexts names
    let c : Contract := ⟨type, d.fingerprint, names.map plainProperty⟩
    (({} : Verdicts).validate d).1 = .ok c ∧
    (∀ memory : Verdicts, memory.Genuine → (memory.validate d).1 = .ok c ∨
      ∃ a : Declaration, a ≠ d ∧ a.fingerprint = d.fingerprint) ∧
    ∀ i : Instance, i.contract = c → ∀ n ∈ names,
      ((∃ text, i.get n = .ok text) ↔ capitalSecond n = false) ∧
      ∀ value, ((∃ i', i.set n value = .ok i') ↔ capitalSecond n = false) ∧
        ∀ i', i.set n value = .ok i' → i'.get n = .ok value := by
  intro d c
  have accepted : Contract.ofDeclaration d = .ok c := plainAccepted type plain distinct
  refine ⟨accepted, fun memory genuine => ?remembered, fun i made n listed => ?used⟩
  case remembered =>
    obtain ⟨a, same, judged⟩ := Verdicts.validateGenuine genuine d _ _ (memory.validateFound d)
    by_cases own : a = d
    · exact .inl (judged.symm.trans (own ▸ accepted))
    · exact .inr ⟨a, own, same⟩
  case used =>
    have known : (∃ p ∈ i.contract.properties, p.name = n) ↔ capitalSecond n = false := by
      rw [made]
      constructor
      · rintro ⟨p, member, same⟩
        obtain ⟨m, listed', rfl⟩ := List.mem_map.mp member
        obtain ⟨rfl, kept⟩ := ((plain m listed').own (plain n listed)).mp same
        exact kept
      · intro kept
        exact ⟨plainProperty n, List.mem_map_of_mem listed, ((plain n listed).own (plain n listed)).mpr ⟨rfl, kept⟩⟩
    exact ⟨(i.getExact n).trans known, fun value => ⟨(i.setExact n value).trans known, fun _ => Instance.getWritten⟩⟩

theorem plainNamesUsablePoint :
    let d := (Declaration.interface "Point").withTexts ["label", "xCoord", "z"]
    let c : Contract := ⟨"Point", d.fingerprint, [⟨"label", .text, "getLabel", "setLabel"⟩,
      ⟨"XCoord", .text, "getXCoord", "setXCoord"⟩, ⟨"z", .text, "getZ", "setZ"⟩]⟩
    (({} : Verdicts).validate d).1 = .ok c ∧ (∃ text, (Instance.blank c).get "label" = .ok text) ∧
      ¬ ∃ text, (Instance.blank c).get "xCoord" = .ok text := by
  intro d c
  have plain : ∀ n ∈ ["label", "xCoord", "z"], Plain n := by
    simp only [List.forall_mem_cons]
    exact ⟨⟨'l', ['a', 'b', 'e', 'l'], rfl, rfl, List.all_eq_true.mp rfl⟩,
      ⟨'x', ['C', 'o', 'o', 'r', 'd'], rfl, rfl, List.all_eq_true.mp rfl⟩, ⟨'z', [], rfl, rfl, by simp⟩, by simp⟩
  obtain ⟨accepted, _, used⟩ := plainNamesUsable "Point" plain (by decide)
  have same : c.properties = ["label", "xCoord", "z"].map plainProperty := by decide +kernel
  have made : (Instance.blank c).contract = ⟨"Point", d.fingerprint, ["label", "xCoord", "z"].map plainProperty⟩ :=
    congrArg (Contract.mk "Point" d.fingerprint) same
  refine ⟨accepted.trans ?_, ?_, ?_⟩
  · rw [← same]
  · exact (used _ made "label" (by simp)).1.mpr (by decide)
  · exact fun read => absurd ((used _ made "xCoord" (by simp)).1.mp read) (by decide)

end Realization
