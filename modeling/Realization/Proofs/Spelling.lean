import Realization.Proofs.LetterCase
import Realization.Proofs.PropertyMap

/-!
How far the members of a property share their spelling. To lower the start of a name loses nothing but the
difference between starts that look alike, as K and the Kelvin sign; and it never yields what is kept of an acronym.
So what follows `get` and what follows `set` is the same for every property, up to the look of its start.
-/
namespace Realization

namespace Text

def Remainder (a : List Char) : Prop := ∃ c rest, a = c :: rest ∧ isUppercase c = true

def startsUppercase (a : List Char) : Bool := a.head?.any isUppercase

/- Different starts that are lowered to the same. -/
def twinStarts : List (List Char × List Char) :=
  (['I', '\u0307'], ['\u0130']) :: twinLetters.map fun p => ([p.1], [p.2])

def Twins (a b : List Char) : Prop :=
  ∃ p ∈ twinStarts, ∃ rest, startsUppercase rest = false ∧ a = p.1 ++ rest ∧ b = p.2 ++ rest

def SpeltAlike (a b : List Char) : Prop := a = b ∨ Twins a b ∨ Twins b a

variable {c c' x : Char} {a b rest rest' : List Char}

theorem SpeltAlike.symm (alike : SpeltAlike a b) : SpeltAlike b a := by
  rcases alike with same | twins
  · exact .inl same.symm
  · exact .inr twins.symm

theorem decapitalizeKept (upper : isUppercase c = true) (acronym : startsUppercase rest = true) :
    decapitalize (c :: rest) = c :: rest := by
  cases rest with
  | nil => contradiction
  | cons d rest =>
    have next : isUppercase d = true := acronym
    rw [decapitalize, upper, next]
    rfl

theorem decapitalizeLowered (plain : startsUppercase rest = false) : decapitalize (c :: rest) = lower c ++ rest := by
  cases rest with
  | nil => exact (List.append_nil _).symm
  | cons d rest =>
    have next : isUppercase d = false := plain
    rw [decapitalize, next, Bool.and_false]
    rfl

theorem keptApart (upper : isUppercase c = true) (acronym : startsUppercase rest = true)
    (plain : startsUppercase rest' = false) : c :: rest ≠ lower c' ++ rest' := by
  intro same
  have kept : lower c' = [c'] := by
    rcases lowerCases c' with ⟨_, dotted⟩ | ⟨s, _, _, shifted⟩ | kept
    · rw [dotted] at same
      cases same
      exact absurd upper (by decide +kernel)
    · rw [shifted] at same
      cases same
      exact lowerUppercase shifted upper
    · exact kept
  rw [kept] at same
  obtain ⟨_, rfl⟩ := List.cons.inj same
  exact Bool.false_ne_true (plain.symm.trans acronym)

theorem lowerSingle (c : Char) : c = '\u0130' ∧ lower c = ['i', '\u0307'] ∨ ∃ x, lower c = [x] := by
  rcases lowerCases c with dotted | ⟨_, _, _, shifted⟩ | kept
  · exact .inl dotted
  · exact .inr ⟨_, shifted⟩
  · exact .inr ⟨_, kept⟩

theorem letterTwins {p : Char × Char} (listed : p ∈ twinLetters) (plain : startsUppercase rest = false) :
    Twins (p.1 :: rest) (p.2 :: rest) :=
  ⟨([p.1], [p.2]), List.mem_cons_of_mem _ (List.mem_map.mpr ⟨p, listed, rfl⟩), rest, plain, rfl, rfl⟩

theorem alikeSpelt (alike : Alike c c') (plain : startsUppercase rest = false) :
    SpeltAlike (c :: rest) (c' :: rest) := by
  rcases alike with rfl | twins | twins
  · exact .inl rfl
  · exact .inr (.inl (letterTwins twins plain))
  · exact .inr (.inr (letterTwins twins plain))

theorem dottedSpelt (upper : isUppercase c = true) (plain : startsUppercase rest' = false) (single : lower c = [x])
    (same : x :: rest = 'i' :: '\u0307' :: rest') : SpeltAlike (c :: rest) ('\u0130' :: rest') := by
  obtain ⟨rfl, rfl⟩ := List.cons.inj same
  have plainI : lower 'I' = ['i'] := by decide +kernel
  have own : c = 'I' := by
    rcases lowerMeets upper (by decide +kernel) (single.trans plainI.symm) with same | twins | twins
    · exact same
    · simp [twinLetters] at twins
    · simp [twinLetters] at twins
  exact .inr (.inl ⟨_, List.mem_cons_self, rest', plain, by rw [own]; rfl, rfl⟩)

theorem loweredSpelt (upper : isUppercase c = true) (upper' : isUppercase c' = true)
    (plain : startsUppercase rest = false) (plain' : startsUppercase rest' = false)
    (same : lower c ++ rest = lower c' ++ rest') : SpeltAlike (c :: rest) (c' :: rest') := by
  rcases lowerSingle c with ⟨rfl, dotted⟩ | ⟨x, single⟩ <;>
    rcases lowerSingle c' with ⟨rfl, dotted'⟩ | ⟨x', single'⟩
  · exact .inl (by rw [List.append_cancel_left same])
  · rw [dotted, single'] at same
    exact (dottedSpelt upper' plain single' same.symm).symm
  · rw [single, dotted'] at same
    exact dottedSpelt upper plain' single same
  · rw [single, single'] at same
    obtain ⟨rfl, rfl⟩ := List.cons.inj same
    exact alikeSpelt (lowerMeets upper upper' (single.trans single'.symm)) plain

theorem twinsMeet (twins : Twins a b) : decapitalize a = decapitalize b := by
  have lowered : ∀ p ∈ twinLetters, lower p.1 = lower p.2 := by decide +kernel
  have dotted : lower 'I' ++ ['\u0307'] = lower '\u0130' ∧ isUppercase '\u0307' = false := by decide +kernel
  obtain ⟨p, listed, rest, plain, rfl, rfl⟩ := twins
  rcases List.mem_cons.mp listed with rfl | listed
  · have plain' : startsUppercase ('\u0307' :: rest) = false := by
      rw [startsUppercase, List.head?_cons, Option.any_some, dotted.2]
    calc
      decapitalize ('I' :: '\u0307' :: rest) = lower 'I' ++ '\u0307' :: rest := decapitalizeLowered plain'
      _ = lower 'I' ++ ['\u0307'] ++ rest := by rw [List.append_assoc, List.singleton_append]
      _ = lower '\u0130' ++ rest := by rw [dotted.1]
      _ = decapitalize ('\u0130' :: rest) := (decapitalizeLowered plain).symm
  · obtain ⟨q, member, rfl⟩ := List.mem_map.mp listed
    rw [List.singleton_append, List.singleton_append, decapitalizeLowered plain, decapitalizeLowered plain,
      lowered q member]

theorem decapitalizeMeets (remainder : Remainder a) (remainder' : Remainder b) :
    decapitalize a = decapitalize b ↔ SpeltAlike a b := by
  constructor
  · obtain ⟨c, rest, rfl, upper⟩ := remainder
    obtain ⟨c', rest', rfl, upper'⟩ := remainder'
    intro same
    cases acronym : startsUppercase rest <;> cases acronym' : startsUppercase rest'
    · rw [decapitalizeLowered acronym, decapitalizeLowered acronym'] at same
      exact loweredSpelt upper upper' acronym acronym' same
    · rw [decapitalizeLowered acronym, decapitalizeKept upper' acronym'] at same
      exact absurd same.symm (keptApart upper' acronym' acronym)
    · rw [decapitalizeKept upper acronym, decapitalizeLowered acronym'] at same
      exact absurd same (keptApart upper acronym acronym')
    · rw [decapitalizeKept upper acronym, decapitalizeKept upper' acronym'] at same
      exact .inl same
  · rintro (same | twins | twins)
    · rw [same]
    · exact twinsMeet twins
    · exact (twinsMeet twins).symm

end Text

open Text (Remainder SpeltAlike)

variable {lead lead' : List Char} {property member member' : String}

theorem propertyNameExact : propertyName? lead member = some property ↔
    ∃ a, Remainder a ∧ member = String.ofList (lead ++ a) ∧ property = String.ofList (Text.decapitalize a) := by
  rw [← namedIff]
  constructor
  · rintro ⟨c, rest, split, upper, named⟩
    exact ⟨c :: rest, ⟨c, rest, rfl, upper⟩, by rw [← split, String.ofList_toList], named⟩
  · rintro ⟨_, ⟨c, rest, rfl, upper⟩, rfl, named⟩
    exact ⟨c, rest, String.toList_ofList, upper, named⟩

theorem propertyShared :
    (∃ property, propertyName? lead member = some property ∧ propertyName? lead' member' = some property) ↔
      ∃ a b, Remainder a ∧ Remainder b ∧ member = String.ofList (lead ++ a) ∧ member' = String.ofList (lead' ++ b) ∧
        SpeltAlike a b := by
  simp only [propertyNameExact]
  constructor
  · rintro ⟨_, ⟨a, remainder, rfl, rfl⟩, b, remainder', rfl, same⟩
    exact ⟨a, b, remainder, remainder', rfl, rfl,
      (Text.decapitalizeMeets remainder remainder').mp (String.ofList_injective same)⟩
  · rintro ⟨a, b, remainder, remainder', rfl, rfl, alike⟩
    refine ⟨_, ⟨a, remainder, rfl, rfl⟩, b, remainder', rfl, ?_⟩
    rw [(Text.decapitalizeMeets remainder remainder').mpr alike]

theorem spellingShared :
    (∀ declarations (d : Declaration) c, ((Verdicts.after declarations).validate d).1 = .ok c →
      ∀ p ∈ c.properties, ∃ a b, Remainder a ∧ Remainder b ∧ p.accessor = String.ofList (accessorLead ++ a) ∧
        p.mutator = String.ofList (mutatorLead ++ b) ∧ SpeltAlike a b) ∧
    ∀ lead member member', (∃ property, propertyName? lead member = some property ∧
        propertyName? lead member' = some property) ↔
      ∃ a b, Remainder a ∧ Remainder b ∧ member = String.ofList (lead ++ a) ∧ member' = String.ofList (lead ++ b) ∧
        SpeltAlike a b := by
  refine ⟨fun declarations d c accepted p listed => ?_, fun lead member member' => propertyShared⟩
  have genuine := Verdicts.validateGenuine (Verdicts.genuineAfter declarations) d
  obtain ⟨source, _, examined⟩ := genuine _ _ ((Verdicts.after declarations).validateFound d)
  obtain ⟨reads, writes⟩ := (ofDeclarationSound (examined.trans accepted)).2.named p listed
  exact propertyShared.mp ⟨p.name, namedIff.mp reads, namedIff.mp writes⟩

def kelvinNote : Declaration := ((Declaration.interface "Note").accessor "getK" .text).mutator "set\u212A" .text

def kelvinContract : Contract := ⟨"Note", kelvinNote.fingerprint, [⟨"k", .text, "getK", "set\u212A"⟩]⟩

theorem kelvinAccepted : ((Verdicts.after []).validate kelvinNote).1 = .ok kelvinContract := by decide +kernel

theorem spellingSharedKelvin :
    ((Verdicts.after []).validate kelvinNote).1 = .ok kelvinContract ∧
      ∃ a b, "getK" = String.ofList (accessorLead ++ a) ∧ "set\u212A" = String.ofList (mutatorLead ++ b) ∧
        SpeltAlike a b := by
  obtain ⟨a, b, _, _, reads, writes, alike⟩ :=
    spellingShared.1 [] kelvinNote kelvinContract kelvinAccepted _ List.mem_cons_self
  exact ⟨kelvinAccepted, a, b, reads, writes, alike⟩

theorem spellingDiffers :
    ((Verdicts.after []).validate kelvinNote).1 = .ok kelvinContract ∧
      (∃ p ∈ kelvinContract.properties, ¬ ∃ s : String, p.accessor = "get" ++ s ∧ p.mutator = "set" ++ s) ∧
      propertyName? accessorLead "getK" = some "k" ∧ propertyName? accessorLead "get\u212A" = some "k" ∧
      "getK" ≠ "get\u212A" := by
  refine ⟨kelvinAccepted, ⟨_, List.mem_cons_self, ?_⟩, by decide +kernel, by decide +kernel, by decide⟩
  rintro ⟨s, reads, writes⟩
  have read : ['K'] = s.toList := by simpa using congrArg String.toList reads
  have written : ['\u212A'] = s.toList := by simpa using congrArg String.toList writes
  rw [← read] at written
  contradiction

end Realization
