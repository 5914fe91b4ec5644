/-!
The settings of a graph: how deep realizations may nest, whether the first realization closes the
registry, and whether the rules are checked as a whole before a realization.
-/
namespace Realization

structure Settings where
  maxDepth : Nat := 256
  freezeOnFirstRealize : Bool := false
  finalizeBeforeRealize : Bool := false
  deriving DecidableEq, Repr

inductive SettingsError where
  | malformed
  | unreadable (path cause : String)
  | invalid (reason : String)
  deriving DecidableEq, Repr

namespace SettingsError

def message : SettingsError → String
  | .malformed => "malformed graph config"
  | .unreadable path cause => "failed to read config " ++ path ++ ": " ++ cause
  | .invalid reason => "invalid graph config: " ++ reason

end SettingsError

namespace Settings

def withMaxDepth (s : Settings) (depth : Nat) : Settings := { s with maxDepth := max depth 1 }

def withFreezeOnFirstRealize (s : Settings) (freeze : Bool) : Settings :=
  { s with freezeOnFirstRealize := freeze }

def withFinalizeBeforeRealize (s : Settings) (finalize : Bool) : Settings :=
  { s with finalizeBeforeRealize := finalize }

def checked (s : Settings) : Except SettingsError Settings :=
  if s.maxDepth = 0 then .error (.invalid "max_realization_depth must be at least 1") else .ok s

end Settings

end Realization
