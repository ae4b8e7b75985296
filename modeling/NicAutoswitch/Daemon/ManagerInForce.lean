import NicAutoswitch.Daemon.Service
import NicAutoswitch.Engine.DryRun
import NicAutoswitch.Kernel.Calls
import NicAutoswitch.Kernel.Linux

/-!
# The route manager and the configuration in force

The route manager is built once, from the configuration that `init` finds. A reload
changes the configuration in the service and in the dispatcher, and leaves the manager.
-/

namespace NicAutoswitch.Daemon.ManagerInForce
open Schema Monitor Router Engine StateProg Transition

variable {κ : Type}

/- What happens to the service once it is initialised. -/
inductive ServiceOp where
  | startUp (links : List (Except RtError LinkMessage))
  | poll (p : LinkAgreement.Poll)
  | event (order : RouteOrder) (event : NetworkEvent)
  | signalReload (reads : Reads)
  | controlReload (reads : Reads)
  | requestShutdown
  | windDown

variable (toml : Toml) (rt : Rtnetlink κ)

def perform (s : DaemonService κ) : ServiceOp → DaemonService κ
  | .startUp links => after (DaemonService.startUp rt links) s
  | .poll p => s.pollNetworkChanges rt p
  | .event order event => after (DaemonService.handleNetworkEvent rt order event) s
  | .signalReload reads => s.reloadConfiguration toml reads
  | .controlReload reads => after (DaemonService.reloadConfig toml reads) s
  | .requestShutdown => s.requestShutdown
  | .windDown => s.windDown

/- The configuration that a reload brings into force. -/
def reloaded? (s : DaemonService κ) : ServiceOp → Option Config
  | .signalReload reads => (readConfig toml s.serviceConfig.configPath reads).toOption
  | .controlReload reads => (readConfig toml s.serviceConfig.configPath reads).toOption
  | _ => none

def manager (s : DaemonService κ) : RouteManager := s.system.dispatcher.executor.routeManager

/- With a dry run in force nothing that comes later changes the kernel, and the tables are
counted from the base in force. -/
structure Obeys (s : DaemonService κ) : Prop where
  harmless : s.config.global.dryRun = true ∨ s.serviceConfig.dryRun = true →
    ∀ later, (run (perform toml rt) s later).system.kernel = s.system.kernel
  base : (manager s).baseTableId = s.config.global.tableIdStart

/- The condition: a reload keeps the base, and asks for a dry run only if the manager has
been in dry-run mode from the beginning. -/
def Accepted (s : DaemonService κ) (op : ServiceOp) : Prop :=
  ∀ config, reloaded? toml s op = some config →
    config.global.tableIdStart = s.config.global.tableIdStart ∧
      (config.global.dryRun = true → (manager s).dryRun = true)

/-! ### One step -/

/- Either kind of reload adopts the configuration that loads, if one does; a reload by signal
also sets the service's state. -/
theorem perform_reload (s : DaemonService κ) {reads : Reads} {op : ServiceOp}
    (h : op = .signalReload reads ∨ op = .controlReload reads) :
    ∃ state, perform toml rt s op =
      { (reloaded? toml s op).elim s (s.adopt ·) with state := state } := by
  cases hr : readConfig toml s.serviceConfig.configPath reads with
  | error e =>
    rcases h with rfl | rfl
    · simp only [perform, reloaded?, hr, DaemonService.reloadConfiguration_error hr]
      exact ⟨_, rfl⟩
    · simp only [perform, reloaded?, hr, after_error (DaemonService.reloadConfig_error hr)]
      exact ⟨s.state, rfl⟩
  | ok config =>
    rcases h with rfl | rfl
    · simp only [perform, reloaded?, hr, DaemonService.reloadConfiguration_ok hr]
      exact ⟨_, rfl⟩
    · simp only [perform, reloaded?, hr, after_ok (DaemonService.reloadConfig_ok hr)]
      exact ⟨(s.adopt config).state, rfl⟩

/- What a step does to the system is done by operations of the dispatcher. -/
theorem perform_system (s : DaemonService κ) (op : ServiceOp) :
    ∃ ops, (perform toml rt s op).system = run (Dispatch.perform rt) s.system ops := by
  have hreload : ∀ reads, op = .signalReload reads ∨ op = .controlReload reads →
      ∃ ops, (perform toml rt s op).system = run (Dispatch.perform rt) s.system ops := by
    intro reads h
    obtain ⟨state, hs⟩ := perform_reload toml rt s h
    rw [hs]
    cases reloaded? toml s op with
    | none => exact ⟨[], rfl⟩
    | some config => exact ⟨[.updateConfig config], rfl⟩
  cases op with
  | startUp links =>
    obtain ⟨ops, h⟩ := DaemonService.startUp_after rt links s
    exact ⟨ops, by rw [perform, h]⟩
  | poll p =>
    obtain ⟨ops, monitor, h⟩ := DaemonService.pollNetworkChanges_after rt p s
    exact ⟨ops, by rw [perform, h]⟩
  | event order event =>
    refine ⟨[.handleEvent order event], ?_⟩
    rw [perform, DaemonService.handleNetworkEvent, DaemonService.after_onSystem]
    rfl
  | signalReload reads => exact hreload reads (Or.inl rfl)
  | controlReload reads => exact hreload reads (Or.inr rfl)
  | requestShutdown => exact ⟨[], rfl⟩
  | windDown => exact ⟨[.stop], rfl⟩

/- Only a reload that succeeds changes the configuration in force. -/
theorem perform_settings (s : DaemonService κ) (op : ServiceOp) :
    (perform toml rt s op).serviceConfig = s.serviceConfig ∧
      (perform toml rt s op).config = (reloaded? toml s op).getD s.config := by
  have hreload : ∀ reads, op = .signalReload reads ∨ op = .controlReload reads →
      (perform toml rt s op).serviceConfig = s.serviceConfig ∧
        (perform toml rt s op).config = (reloaded? toml s op).getD s.config := by
    intro reads h
    obtain ⟨state, hs⟩ := perform_reload toml rt s h
    rw [hs]
    cases reloaded? toml s op with
    | none => exact ⟨rfl, rfl⟩
    | some config => exact ⟨rfl, rfl⟩
  cases op with
  | startUp links =>
    obtain ⟨ops, h⟩ := DaemonService.startUp_after rt links s
    rw [perform, h]
    exact ⟨rfl, rfl⟩
  | poll p =>
    obtain ⟨ops, monitor, h⟩ := DaemonService.pollNetworkChanges_after rt p s
    rw [perform, h]
    exact ⟨rfl, rfl⟩
  | event order event =>
    rw [perform, DaemonService.handleNetworkEvent, DaemonService.after_onSystem]
    exact ⟨rfl, rfl⟩
  | signalReload reads => exact hreload reads (Or.inl rfl)
  | controlReload reads => exact hreload reads (Or.inr rfl)
  | requestShutdown => exact ⟨rfl, rfl⟩
  | windDown => exact ⟨rfl, rfl⟩

theorem callsKeep_manager (rm : RouteManager) :
    CallsKeep rt (fun s : ExecutorState κ => s.executor.routeManager = rm) where
  apply rule t s hs := by
    obtain ⟨e, k, ok, heq, he⟩ := applyRule_cases rt rule t s
    rw [heq]
    rcases he with rfl | rfl <;> exact hs
  remove rule t s hs := by
    obtain ⟨e, k, ok, heq, he⟩ := removeRule_cases rt rule t s
    rw [heq]
    rcases he with rfl | rfl <;> exact hs
  cleanup s hs := by
    obtain ⟨k, hk⟩ := sweep_ok rt s
    rw [after_ok hk]
    exact hs

/- No step replaces the manager. -/
theorem perform_manager (s : DaemonService κ) (op : ServiceOp) :
    manager (perform toml rt s op) = manager s := by
  obtain ⟨ops, h⟩ := perform_system toml rt s op
  unfold manager
  rw [h]
  exact run_keeps_all (callsKeep_manager rt (manager s)) (fun _ hs => hs) ops rfl

theorem perform_dry {s : DaemonService κ} (hd : (manager s).dryRun = true) (op : ServiceOp) :
    (perform toml rt s op).system.kernel = s.system.kernel := by
  obtain ⟨ops, h⟩ := perform_system toml rt s op
  rw [h]
  exact (DryRun.run_untouched rt ops hd).2

/-! ### Runs -/

theorem run_dry {s : DaemonService κ} (hd : (manager s).dryRun = true) (later : List ServiceOp) :
    (run (perform toml rt) s later).system.kernel = s.system.kernel := by
  induction later generalizing s with
  | nil => rfl
  | cons op rest ih =>
    rw [run_cons, ih (by rw [perform_manager]; exact hd), perform_dry toml rt hd]

/- The manager counts from the base in force, and is in dry-run mode where it has to be. -/
structure InStep (s : DaemonService κ) : Prop where
  base : (manager s).baseTableId = s.config.global.tableIdStart
  dry : s.config.global.dryRun = true ∨ s.serviceConfig.dryRun = true → (manager s).dryRun = true

theorem InStep.obeys {s : DaemonService κ} (h : InStep s) : Obeys toml rt s :=
  ⟨fun hd => run_dry toml rt (h.dry hd), h.base⟩

theorem inStep_perform {s : DaemonService κ} (h : InStep s) {op : ServiceOp}
    (hc : Accepted toml s op) : InStep (perform toml rt s op) := by
  obtain ⟨hservice, hconfig⟩ := perform_settings toml rt s op
  cases hr : reloaded? toml s op with
  | none =>
    rw [hr] at hconfig
    constructor
    · rw [perform_manager, hconfig]
      exact h.base
    · rw [perform_manager, hconfig, hservice]
      exact h.dry
  | some config =>
    obtain ⟨hbase, hdry⟩ := hc config hr
    rw [hr] at hconfig
    constructor
    · rw [perform_manager, hconfig, h.base]
      exact hbase.symm
    · rw [perform_manager, hconfig, hservice]
      rintro (hd | hd)
      · exact hdry hd
      · exact h.dry (Or.inr hd)

/- `init` succeeds with a manager of the configured base and mode. -/
theorem init_spec {connection monitorConnection : Except String Handle}
    {links : List (Except RtError LinkMessage)} {s s' : DaemonService κ} {u : Unit}
    (h : DaemonService.init connection monitorConnection links s = .ok u s') :
    ∃ rm monitor, rm.baseTableId = s.config.global.tableIdStart ∧
      rm.dryRun = (s.serviceConfig.dryRun || s.config.global.dryRun) ∧
        s' = { s.setRouteManager rm with netlinkMonitor := some monitor } := by
  unfold DaemonService.init at h
  dsimp only at h
  cases hrm : RouteManager.withConnection connection s.config.global.tableIdStart
      (s.serviceConfig.dryRun || s.config.global.dryRun) with
  | error e =>
    rw [hrm] at h
    cases h
  | ok rm =>
    rw [hrm] at h
    cases h
    obtain ⟨hbase, hdry⟩ := RouteManager.withConnection_ok hrm
    exact ⟨rm, _, hbase, hdry, rfl⟩

theorem inStep_init {s s' : DaemonService κ} {connection monitorConnection : Except String Handle}
    {links : List (Except RtError LinkMessage)}
    (h : DaemonService.init connection monitorConnection links s = .ok () s') : InStep s' := by
  obtain ⟨rm, monitor, hbase, hdry, rfl⟩ := init_spec h
  refine ⟨hbase, fun hd => ?_⟩
  show rm.dryRun = true
  rw [hdry]
  rcases hd with hd | hd
  · rw [show s.config.global.dryRun = true from hd, Bool.or_true]
  · rw [show s.serviceConfig.dryRun = true from hd, Bool.true_or]

/- Once `init` has succeeded, the manager obeys the configuration in force throughout every
run whose reloads are accepted. -/
theorem manager_obeys {s s' : DaemonService κ}
    {connection monitorConnection : Except String Handle}
    {links : List (Except RtError LinkMessage)}
    (hinit : DaemonService.init connection monitorConnection links s = .ok () s')
    (ops : List ServiceOp) (hc : Along (perform toml rt) (Accepted toml) s' ops) :
    Throughout (perform toml rt) (Obeys toml rt) s' ops := by
  have hstep := throughout_of_along (perform toml rt) InStep (Accepted toml)
    (fun _ _ hp hc => inStep_perform toml rt hp hc) s' ops (inStep_init hinit) hc
  exact fun pre hpre => (hstep pre hpre).obeys toml rt

/- The file of a host with one rule, as it is and with a dry run asked for. -/
def lanFile (dryRun : String) : String :=
  "[global]\ndry_run = " ++ dryRun ++ "\n\n" ++
    "[interfaces.eth0]\ninterface_type = \"lan\"\nmatch_by = \x7b name = \"eth0\" \x7d\n\n" ++
    "[[routing.default_rules]]\nname = \"lan\"\nmatch_on = \x7b cidr = \"10.0.0.0/8\" \x7d\n" ++
    "route_via = \x7b interface = \"eth0\" \x7d\npriority = 100\n"

def lanDry : Config := { Kernel.lanOnly with global := { dryRun := true } }

def lanToml : Toml := fun content =>
  if content = lanFile "false" then .ok Kernel.lanOnly
  else if content = lanFile "true" then .ok lanDry
  else .error "expected a table"

def wet : Reads := ⟨.text (lanFile "false"), .text (lanFile "false")⟩
def dry : Reads := ⟨.text (lanFile "true"), .text (lanFile "true")⟩

def lanCreated : DaemonService Kernel.KernelState where
  serviceConfig := {}
  config := Kernel.lanOnly
  system := ⟨.new Kernel.lanOnly .default, .empty, []⟩

def lanService : DaemonService Kernel.KernelState :=
  after (DaemonService.init (.ok {}) (.ok {}) []) lanCreated

theorem readConfig_wet : readConfig lanToml "/etc/nic-autoswitch/config.toml" wet =
    .ok Kernel.lanOnly := by
  have ht : lanToml (lanFile "false") = .ok Kernel.lanOnly := if_pos rfl
  exact readConfig_text ht (by decide +kernel)

theorem manager_obeys_lan :
    Throughout (perform lanToml Kernel.noFault.linux) (Obeys lanToml Kernel.noFault.linux)
      lanService [.signalReload wet, .event .asListed (.interfaceChanged "eth0" .up)] := by
  have hinit : DaemonService.init (.ok {}) (.ok {}) [] lanCreated = .ok () lanService := rfl
  apply manager_obeys lanToml Kernel.noFault.linux hinit
  refine ⟨fun config hr => ?_, (fun config hr => by cases hr), trivial⟩
  change (readConfig lanToml "/etc/nic-autoswitch/config.toml" wet).toOption = some config at hr
  rw [readConfig_wet] at hr
  cases hr
  exact ⟨rfl, fun hd => by cases hd⟩

def eth0Down : List (Except RtError LinkMessage) :=
  [.ok { index := 2, attributes := [.ifName "eth0"] }]

/- A reload asks for a dry run, and the manager goes on changing the kernel. -/
theorem dry_reload_disobeyed :
    DaemonService.new lanToml {} wet (.ok ()) .empty = .ok lanCreated ∧
    DaemonService.init (.ok {}) (.ok {}) [] lanCreated = .ok () lanService ∧
    ¬ Throughout (perform lanToml Kernel.noFault.linux) (Obeys lanToml Kernel.noFault.linux)
      lanService [.startUp eth0Down, .controlReload dry] := by
  refine ⟨?_, rfl, fun h => ?_⟩
  · unfold DaemonService.new
    rw [readConfig_wet]
    rfl
  · have hlast := h _ List.prefix_rfl
    have hkernel := hlast.harmless (Or.inl (by decide +kernel))
      [.event .asListed (.interfaceChanged "eth0" .up)]
    have hrules := congrArg Kernel.KernelState.rules hkernel
    revert hrules
    decide +kernel

end NicAutoswitch.Daemon.ManagerInForce
