import Realization.Declaration.Encoding

/-!
Contracts: what a declaration promises once it has passed validation, namely a list of properties
with the member that reads each and the member that writes it.
-/
namespace Realization

structure Property where
  name : String
  kind : Kind
  accessor : String
  mutator : String
  deriving DecidableEq, Repr

structure Contract where
  name : String
  fingerprint : Fingerprint
  properties : List Property
  deriving DecidableEq, Repr

namespace Contract

def propertyIndex? (c : Contract) (name : String) : Option Nat :=
  c.properties.findIdx? (·.name == name)

def accessorIndex? (c : Contract) (member : String) : Option Nat :=
  c.properties.findIdx? (·.accessor == member)

def mutatorIndex? (c : Contract) (member : String) : Option Nat :=
  c.properties.findIdx? (·.mutator == member)

end Contract

end Realization
