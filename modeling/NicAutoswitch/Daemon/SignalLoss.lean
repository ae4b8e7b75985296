import NicAutoswitch.Daemon.Service

/-!
# Lost shutdown signals

The handler keeps a sender, so that the channel is never closed. A shutdown that a loop
has not read yet is overwritten when enough signals are sent behind it.
-/

namespace NicAutoswitch.Daemon.SignalLoss
open Broadcast Schema Transition

variable {κ : Type}

/- The main loop, or whoever waits for the shutdown, with its own receiver. -/
abbrev SignalLoop (σ : Type) := Loop σ Signal signalCapacity

def IsShutdown (signal : Signal) : Prop := signal = .shutdown

instance : DecidablePred IsShutdown := fun signal => inferInstanceAs (Decidable (signal = .shutdown))

/- In either loop no shutdown is lost exactly in the runs where a signal that overwrites a
shutdown finds another one behind it, or is one. -/
theorem shutdown_never_lost_iff (reload : DaemonService κ → DaemonService κ)
    (s : DaemonService κ) (acts : List (Act Signal)) :
    (Throughout (step (DaemonService.mainLoopSignal reload))
        (NeverLost IsShutdown (DaemonService.mainLoopSignal reload))
        ({ state := s } : SignalLoop (DaemonService κ)) acts ↔
      Along (step (DaemonService.mainLoopSignal reload)) (KeepsStop IsShutdown)
        ({ state := s } : SignalLoop (DaemonService κ)) acts) ∧
    (Throughout (step waitShutdown) (NeverLost IsShutdown waitShutdown)
        ({ state := none } : SignalLoop _) acts ↔
      Along (step waitShutdown) (KeepsStop IsShutdown)
        ({ state := none } : SignalLoop _) acts) := by
  have hcap : 0 < signalCapacity := by decide
  constructor
  · exact throughout_neverLost_iff hcap (DaemonService.mainLoopSignal_stops reload) s acts
  · exact throughout_neverLost_iff hcap waitShutdown_stops none acts

/- A shutdown, a full ring of reloads behind it, and a loop that then drains the ring. -/
def overrun : List (Act Signal) :=
  .send .shutdown :: List.replicate 16 (.send .reload) ++ List.replicate 17 .recv

def idle : DaemonService Unit where
  serviceConfig := {}
  config := {}
  system := ⟨.new {} .default, (), []⟩

/- A reload that finds no file. -/
def failedReload (s : DaemonService Unit) : DaemonService Unit :=
  s.reloadConfiguration (fun _ => .error "expected a table") ⟨.missing, .missing⟩

theorem overrun_loses_shutdown :
    Lost IsShutdown (run (step (DaemonService.mainLoopSignal failedReload))
      ({ state := idle } : SignalLoop _) overrun) ∧
    Lost IsShutdown (run (step waitShutdown) ({ state := none } : SignalLoop _) overrun) := by
  constructor
  · exact ⟨⟨.shutdown, by decide +kernel, rfl⟩, Receiver.recv_none.mpr (by decide +kernel),
      by decide +kernel⟩
  · exact ⟨⟨.shutdown, by decide +kernel, rfl⟩, Receiver.recv_none.mpr (by decide +kernel),
      by decide +kernel⟩

end NicAutoswitch.Daemon.SignalLoss
