import Realization.Declaration.Basic
import Realization.Digest.Blake3
import Realization.Text.Quoted

/-!
The canonical byte encoding of a declaration and its fingerprint, the digest of the encoding. Every
text and every list is preceded by its length as eight bytes, little end first, and every
alternative by a tag byte, so the parts of a declaration can be told apart in its encoding.
-/
namespace Realization

namespace Encoding

def length (n : Nat) : List UInt8 := (List.range 8).map fun i => (n >>> (8 * i)).toUInt8

def utf8 (s : String) : List UInt8 := s.toByteArray.data.toList

def text (s : String) : List UInt8 := length (utf8 s).length ++ utf8 s

def list {α : Type} (item : α → List UInt8) (xs : List α) : List UInt8 :=
  length xs.length ++ xs.flatMap item

def kind : Kind → List UInt8
  | .text => [1]
  | .integer => [2]
  | .boolean => [3]
  | .float => [4]
  | .model name => 5 :: text name

def returns : Option Kind → List UInt8
  | none => [0]
  | some k => kind k

def member (m : Member) : List UInt8 :=
  text m.name ++ list kind m.params ++ returns m.returns ++ [if m.hasBody then 1 else 0]

def shape : Shape → UInt8
  | .interface => 1
  | .concrete => 2

def declaration (d : Declaration) : List UInt8 :=
  text d.name ++ [shape d.shape] ++ list text d.parents ++ list text d.fields ++
    list member d.members

end Encoding

structure Fingerprint where
  bytes : List UInt8
  deriving DecidableEq, Repr

namespace Fingerprint

def digits (f : Fingerprint) : String := Text.hex f.bytes

def short (f : Fingerprint) : String := Text.hex (f.bytes.take 8)

def order (a b : Fingerprint) : Ordering :=
  compareOfLessAndEq (a.bytes.map (·.toNat)) (b.bytes.map (·.toNat))

end Fingerprint

def Declaration.fingerprint (d : Declaration) : Fingerprint :=
  ⟨Digest.blake3 (Encoding.declaration d)⟩

end Realization
