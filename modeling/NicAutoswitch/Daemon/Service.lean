import NicAutoswitch.Config.Loader
import NicAutoswitch.Daemon.Signals
import NicAutoswitch.Engine.LinkAgreement

/-!
# Daemon service (daemon/service.rs)

What the environment answers is an argument of each step: what a read of the
configuration file finds, the connections, and the links of a dump.
-/

namespace NicAutoswitch.Daemon
open Broadcast Schema Monitor Router Engine StateProg Transition

inductive ServiceState where
  | initializing
  | running
  | reloading
  | stopping
  | stopped
  deriving Repr, DecidableEq

structure ServiceConfig where
  configPath : String := "/etc/nic-autoswitch/config.toml"
  dryRun : Bool := false
  deriving Repr, DecidableEq

structure DaemonService (κ : Type) where
  serviceConfig : ServiceConfig
  config : Config
  system : System κ
  state : ServiceState := .initializing
  shutdown : Bool := false
  netlinkMonitor : Option NetlinkMonitor := none

abbrev Service (κ α : Type) := EStateM NicAutoSwitchError (DaemonService κ) α

variable {κ : Type}

def onSystem {α : Type} (x : Daemon κ α) : Service κ α :=
  zoom DaemonService.system (fun system s => { s with system := system }) x

def modifyService (f : DaemonService κ → DaemonService κ) : Service κ Unit := fun s =>
  .ok () (f s)

/- The files that the two reads of a reload find. -/
structure Reads where
  atNew : ConfigFile
  atLoad : ConfigFile
  deriving Repr, DecidableEq

/- `ConfigLoader::new(path)?.load()?`, which reads the file twice. -/
def readConfig (toml : Toml) (path : String) (reads : Reads) :
    Except NicAutoSwitchError Config := do
  let loader ← ConfigLoader.new toml path reads.atNew
  loader.load toml reads.atLoad

theorem readConfig_text {toml : Toml} {path content : String} {config : Config}
    (ht : toml content = .ok config) (hv : config.validate = .ok ()) :
    readConfig toml path ⟨.text content, .text content⟩ = .ok config := by
  unfold readConfig ConfigLoader.load
  rw [ConfigLoader.new_ok toml (ConfigLoader.loadFromPath_text toml ht hv)]
  exact ConfigLoader.loadFromPath_text toml ht hv

namespace DaemonService

/- The route manager is a stub until `init`; `registered` is the outcome of registering the
signals. -/
def new (toml : Toml) (serviceConfig : ServiceConfig) (reads : Reads)
    (registered : Except String Unit) (kernel : κ) :
    Except NicAutoSwitchError (DaemonService κ) := do
  let config ← readConfig toml serviceConfig.configPath reads
  registered.mapError .invalidInput
  return { serviceConfig, config, system := ⟨.new config .default, kernel, []⟩ }

def setRouteManager (rm : RouteManager) (s : DaemonService κ) : DaemonService κ :=
  { s with system := { s.system with dispatcher := s.system.dispatcher.setRouteManager rm } }

def init (connection monitorConnection : Except String Handle)
    (links : List (Except RtError LinkMessage)) : Service κ Unit := fun s =>
  let dryRun := s.serviceConfig.dryRun || s.config.global.dryRun
  match RouteManager.withConnection connection s.config.global.tableIdStart dryRun with
  | .error e => .error e s
  | .ok rm =>
    .ok () { s.setRouteManager rm with
      netlinkMonitor := some (NetlinkMonitor.new monitorConnection links) }

/- The configuration becomes the one in force, in the service and in the dispatcher. -/
def adopt (config : Config) (s : DaemonService κ) : DaemonService κ :=
  { s with
    config := config
    system := { s.system with dispatcher := s.system.dispatcher.updateConfig config } }

/- A reload on a signal; a failed one is only logged. -/
def reloadConfiguration (toml : Toml) (reads : Reads) (s : DaemonService κ) : DaemonService κ :=
  match readConfig toml s.serviceConfig.configPath reads with
  | .ok config => { s.adopt config with state := .running }
  | .error _ => { s with state := .running }

/- A reload on a control command. -/
def reloadConfig (toml : Toml) (reads : Reads) : Service κ Unit := fun s =>
  match readConfig toml s.serviceConfig.configPath reads with
  | .ok config => .ok () (s.adopt config)
  | .error e => .error e s

def isShutdownRequested (s : DaemonService κ) : Bool := s.shutdown

def requestShutdown (s : DaemonService κ) : DaemonService κ := { s with shutdown := true }

theorem reloadConfiguration_ok {toml : Toml} {reads : Reads} {s : DaemonService κ} {config : Config}
    (h : readConfig toml s.serviceConfig.configPath reads = .ok config) :
    s.reloadConfiguration toml reads = { s.adopt config with state := .running } := by
  unfold reloadConfiguration
  rw [h]

theorem reloadConfiguration_error {toml : Toml} {reads : Reads} {s : DaemonService κ}
    {e : NicAutoSwitchError} (h : readConfig toml s.serviceConfig.configPath reads = .error e) :
    s.reloadConfiguration toml reads = { s with state := .running } := by
  unfold reloadConfiguration
  rw [h]

theorem reloadConfig_ok {toml : Toml} {reads : Reads} {s : DaemonService κ} {config : Config}
    (h : readConfig toml s.serviceConfig.configPath reads = .ok config) :
    reloadConfig toml reads s = .ok () (s.adopt config) := by
  unfold reloadConfig
  simp only [h]

theorem reloadConfig_error {toml : Toml} {reads : Reads} {s : DaemonService κ}
    {e : NicAutoSwitchError} (h : readConfig toml s.serviceConfig.configPath reads = .error e) :
    reloadConfig toml reads s = .error e s := by
  unfold reloadConfig
  simp only [h]

variable (rt : Rtnetlink κ)

/- Without a monitor there is no initial state. -/
def applyInitialRoutes (links : List (Except RtError LinkMessage)) : Service κ Unit := fun s =>
  match s.netlinkMonitor with
  | none => .ok () s
  | some monitor =>
    match monitor.getInterfaces links with
    | .error e => .error e s
    | .ok interfaces => onSystem (Dispatch.applyInitialState rt interfaces) s

def handleNetworkEvent (order : RouteOrder) (event : NetworkEvent) : Service κ Unit :=
  onSystem (Dispatch.handleEvent rt order event)

/- The events of a poll are handled one after another; failures are only logged. -/
def pollNetworkChanges (p : LinkAgreement.Poll) (s : DaemonService κ) : DaemonService κ :=
  match s.netlinkMonitor with
  | none => s
  | some monitor =>
    let w := LinkAgreement.poll rt ⟨monitor, s.system⟩ p
    { s with system := w.system, netlinkMonitor := some w.monitor }

/- The dispatcher is started. -/
def started (s : DaemonService κ) : DaemonService κ :=
  { s with
    system := { s.system with dispatcher := s.system.dispatcher.start }
    state := .running }

/- The part of `run` before the main loop. -/
def startUp (links : List (Except RtError LinkMessage)) : Service κ Unit := do
  modifyService started
  applyInitialRoutes rt links

/- The part of `run` after the main loop. -/
def windDown (s : DaemonService κ) : DaemonService κ :=
  { s with
    system := { s.system with dispatcher := s.system.dispatcher.stop }
    state := .stopped }

/- What the main loop does with what it receives from the signal channel. -/
def mainLoopSignal (reload : DaemonService κ → DaemonService κ) :
    Handler (DaemonService κ) Signal
  | s, .ok .shutdown => ({ s with shutdown := true }, false)
  | s, .ok .reload => (reload s, true)
  | s, .error .closed => (s, false)
  | s, .error (.lagged _) => (s, true)

theorem after_onSystem {α : Type} (x : Daemon κ α) (s : DaemonService κ) :
    after (onSystem x) s = { s with system := after x s.system } := after_zoom _ _ x s

theorem applyInitialRoutes_none {s : DaemonService κ} (h : s.netlinkMonitor = none)
    (links : List (Except RtError LinkMessage)) : applyInitialRoutes rt links s = .ok () s := by
  unfold applyInitialRoutes
  rw [h]

theorem applyInitialRoutes_error {s : DaemonService κ} {monitor : NetlinkMonitor}
    (h : s.netlinkMonitor = some monitor) {links : List (Except RtError LinkMessage)}
    {e : NicAutoSwitchError} (hi : monitor.getInterfaces links = .error e) :
    applyInitialRoutes rt links s = .error e s := by
  unfold applyInitialRoutes
  simp only [h, hi]

theorem applyInitialRoutes_ok {s : DaemonService κ} {monitor : NetlinkMonitor}
    (h : s.netlinkMonitor = some monitor) {links : List (Except RtError LinkMessage)}
    {interfaces : List InterfaceInfo} (hi : monitor.getInterfaces links = .ok interfaces) :
    applyInitialRoutes rt links s = onSystem (Dispatch.applyInitialState rt interfaces) s := by
  unfold applyInitialRoutes
  simp only [h, hi]

/- The dispatcher is started, and is given its initial state if a list of interfaces is
had. -/
theorem startUp_after (links : List (Except RtError LinkMessage)) (s : DaemonService κ) :
    ∃ ops, after (startUp rt links) s =
      { s with system := run (Dispatch.perform rt) s.system ops, state := .running } := by
  have hstart : after (startUp rt links) s = after (applyInitialRoutes rt links) s.started :=
    after_bind_ok rfl
  rw [hstart]
  rcases Option.eq_none_or_eq_some s.netlinkMonitor with hm | ⟨monitor, hm⟩
  · rw [after_ok (applyInitialRoutes_none rt (s := s.started) hm links)]
    exact ⟨[.start], rfl⟩
  · cases hi : monitor.getInterfaces links with
    | error e =>
      rw [after_error (applyInitialRoutes_error rt (s := s.started) hm hi)]
      exact ⟨[.start], rfl⟩
    | ok interfaces =>
      refine ⟨[.start, .applyInitialState interfaces], ?_⟩
      unfold after
      rw [applyInitialRoutes_ok rt (s := s.started) hm hi]
      exact after_onSystem (Dispatch.applyInitialState rt interfaces) s.started

theorem pollNetworkChanges_after (p : LinkAgreement.Poll) (s : DaemonService κ) :
    ∃ ops monitor, s.pollNetworkChanges rt p =
      { s with system := run (Dispatch.perform rt) s.system ops, netlinkMonitor := monitor } := by
  unfold pollNetworkChanges
  rcases Option.eq_none_or_eq_some s.netlinkMonitor with hm | ⟨monitor, hm⟩
  · have hnone : s.pollNetworkChanges rt p = s := by
      unfold pollNetworkChanges
      rw [hm]
    exact ⟨[], s.netlinkMonitor, hnone⟩
  · rw [hm]
    unfold LinkAgreement.poll
    dsimp only
    cases monitor.pollChanges p.currentOrder p.previousOrder p.links with
    | error e => exact ⟨[], some monitor, rfl⟩
    | ok answer =>
      refine ⟨answer.1.map fun e => .handleEvent (p.routeOrder e) e, some answer.2, ?_⟩
      simp only [run, List.foldl_map]
      rfl

theorem mainLoopSignal_stops (reload : DaemonService κ → DaemonService κ) :
    StopsAt (mainLoopSignal reload) (· = Signal.shutdown) where
  lagged _ _ := rfl
  message s x := by
    cases x with
    | shutdown => exact iff_of_false Bool.false_ne_true fun h => h rfl
    | reload => exact iff_of_true rfl fun h => by cases h

end DaemonService

end NicAutoswitch.Daemon
