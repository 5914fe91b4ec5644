import Realization.Text.Run
import Realization.Text.Visibility

/-!
Quoted text: a text between double quotes in which nothing is left invisible. Six characters have
short escapes; a character that extends its neighbour or has no visible form is written by its code
point; every other character stands for itself.
-/
namespace Realization.Text

def isExtending (c : Char) : Bool := 0x7F < c.toNat && inIntervals extendingIntervals c.toNat

def isVisible (c : Char) : Bool :=
  if c.toNat < 0x7F then 0x20 ≤ c.toNat else !inIntervals invisibleIntervals c.toNat

def codePointEscape (c : Char) : List Char :=
  ['\\', 'u', '\x7b'] ++ Nat.toDigits 16 c.toNat ++ ['\x7d']

def escapeChar (c : Char) : List Char :=
  if c = '\x00' then ['\\', '0']
  else if c = '\t' then ['\\', 't']
  else if c = '\r' then ['\\', 'r']
  else if c = '\n' then ['\\', 'n']
  else if c = '"' then ['\\', '"']
  else if c = '\\' then ['\\', '\\']
  else if isExtending c || !isVisible c then codePointEscape c
  else [c]

def quote (s : String) : String :=
  String.ofList ('"' :: s.toList.flatMap escapeChar ++ ['"'])

def hex (bytes : List UInt8) : String :=
  String.ofList (bytes.flatMap fun b =>
    [Nat.digitChar (b.toNat / 16), Nat.digitChar (b.toNat % 16)])

end Realization.Text
