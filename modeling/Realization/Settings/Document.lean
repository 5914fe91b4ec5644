import Realization.Settings.Basic
import Realization.Toml.Document

/-!
Settings read from a document in the TOML format. Keys that are no settings are passed over; a
setting that is left out keeps its default, and one of the wrong type spoils the document.
-/
namespace Realization.Settings

open Toml (Fields Value)

def setting {α : Type} (fields : Fields) (key : String) (default : α) (read : Value → Option α) :
    Except SettingsError α :=
  match Fields.lookup key fields with
  | none => .ok default
  | some v =>
    match read v with
    | some a => .ok a
    | none => .error .malformed

def natural? : Value → Option Nat
  | .integer n => if 0 ≤ n then some n.toNat else none
  | _ => none

def boolean? : Value → Option Bool
  | .boolean b => some b
  | _ => none

def ofFields (fields : Fields) : Except SettingsError Settings := do
  let maxDepth ← setting fields "max_realization_depth" ({} : Settings).maxDepth natural?
  let freezeOnFirstRealize ← setting fields "freeze_on_first_realize" false boolean?
  let finalizeBeforeRealize ← setting fields "finalize_before_realize" false boolean?
  checked ⟨maxDepth, freezeOnFirstRealize, finalizeBeforeRealize⟩

def ofText (text : String) : Except SettingsError Settings :=
  match Toml.document text with
  | some fields => ofFields fields
  | none => .error .malformed

def ofFile (path : String) (content : Except String ByteArray) : Except SettingsError Settings :=
  match content with
  | .error cause => .error (.unreadable path cause)
  | .ok bytes =>
    match String.fromUTF8? bytes with
    | some text => ofText text
    | none => .error (.unreadable path "stream did not contain valid UTF-8")

end Realization.Settings
