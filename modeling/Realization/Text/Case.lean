import Realization.Text.CaseData

/-!
Letter case of a character: the property Uppercase and the full case mappings, which may answer
several characters. Both mappings look at one character alone.
-/
namespace Realization.Text

def isUppercase (c : Char) : Bool := uppercaseRuns.any (·.holds c.toNat)

def mapCase (expansions : List (Nat × List Nat)) (shifts : List Shift) (c : Char) : List Char :=
  match expansions.find? (·.1 == c.toNat) with
  | some (_, image) => image.map Char.ofNat
  | none =>
    match shifts.find? (·.run.holds c.toNat) with
    | some s => [Char.ofNat (s.apply c.toNat)]
    | none => [c]

def upper (c : Char) : List Char := mapCase upperExpansions upperShifts c

def lower (c : Char) : List Char := mapCase lowerExpansions lowerShifts c

def capitalize : List Char → List Char
  | [] => []
  | c :: rest => upper c ++ rest

/-- Two uppercase characters at the start are an acronym, and an acronym is kept. -/
def decapitalize : List Char → List Char
  | [] => []
  | c :: rest =>
    match rest with
    | d :: _ => if isUppercase c && isUppercase d then c :: rest else lower c ++ rest
    | [] => lower c

end Realization.Text
