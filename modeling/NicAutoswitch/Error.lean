import Mathlib.Tactic.Common

/-!
# Errors of the application (error.rs)
-/

namespace NicAutoswitch

/-- Errors; a wrapped error of another library is kept as its text. -/
inductive NicAutoSwitchError where
  | config (msg : String)
  | network (msg : String)
  | dns (msg : String)
  | route (msg : String)
  | io (msg : String)
  | dbus (msg : String)
  | invalidInput (msg : String)
  | timeout
  | toml (msg : String)
  | json (msg : String)
  deriving Repr, DecidableEq

def NicAutoSwitchError.display : NicAutoSwitchError → String
  | .config msg => s!"Configuration error: {msg}"
  | .network msg => s!"Network operation failed: {msg}"
  | .dns msg => s!"DNS resolution failed: {msg}"
  | .route msg => s!"Route operation failed: {msg}"
  | .io msg => s!"I/O error: {msg}"
  | .dbus msg => s!"D-Bus error: {msg}"
  | .invalidInput msg => s!"Invalid input: {msg}"
  | .timeout => "Operation timed out"
  | .toml msg => s!"TOML parsing error: {msg}"
  | .json msg => s!"JSON error: {msg}"

instance : ToString NicAutoSwitchError := ⟨NicAutoSwitchError.display⟩

end NicAutoswitch
