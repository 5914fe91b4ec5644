import Realization.Text.Case

/-!
The naming rule between a property and its members: a member name is a lead, `get` or `set`,
followed by a remainder that starts with an uppercase character, and the property is the remainder
with its start lowered.
-/
namespace Realization

def accessorLead : List Char := ['g', 'e', 't']

def mutatorLead : List Char := ['s', 'e', 't']

def remainder? (lead member : List Char) : Option (List Char) :=
  match lead.isPrefixOf? member with
  | some (c :: rest) => if Text.isUppercase c then some (c :: rest) else none
  | _ => none

def propertyName? (lead : List Char) (member : String) : Option String :=
  (remainder? lead member.toList).map fun rest => String.ofList (Text.decapitalize rest)

def decapitalized (name : String) : String := String.ofList (Text.decapitalize name.toList)

def accessorName (property : String) : String :=
  String.ofList (accessorLead ++ Text.capitalize property.toList)

def mutatorName (property : String) : String :=
  String.ofList (mutatorLead ++ Text.capitalize property.toList)

end Realization
