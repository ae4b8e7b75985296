import NicAutoswitch.Error
import NicAutoswitch.Lib.Broadcast

/-!
# Signal handling (daemon/signals.rs)

All signals go through one broadcast channel.
-/

namespace NicAutoswitch.Daemon
open Broadcast

inductive Signal where
  | shutdown
  | reload
  deriving Repr, DecidableEq

/- `broadcast::channel(16)` -/
def signalCapacity : ℕ := 16

def channelClosed : NicAutoSwitchError := .invalidInput "Signal channel closed"

/- The loop of `wait_shutdown`; the state is what it has returned. -/
def waitShutdown : Handler (Option (Except NicAutoSwitchError Signal)) Signal
  | _, .ok .shutdown => (some (.ok .shutdown), false)
  | s, .ok .reload => (s, true)
  | _, .error .closed => (some (.error channelClosed), false)
  | s, .error (.lagged _) => (s, true)

theorem waitShutdown_stops : StopsAt waitShutdown (· = Signal.shutdown) where
  lagged _ _ := rfl
  message s x := by
    cases x with
    | shutdown => exact iff_of_false Bool.false_ne_true fun h => h rfl
    | reload => exact iff_of_true rfl fun h => by cases h

end NicAutoswitch.Daemon
