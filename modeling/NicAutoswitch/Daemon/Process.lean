import NicAutoswitch.Daemon.Systemd
import NicAutoswitch.Engine.RouteLifetime
import NicAutoswitch.Kernel.ForeignTables
import NicAutoswitch.Kernel.Provenance

/-!
# The process of the daemon (main.rs)

`run_daemon` creates the service, initialises it and runs it; a failure of any part is the
failure of the process. What the daemon does from then on is done by operations of its
dispatcher, whatever signals, polls, commands and reloads it meets.
-/

namespace NicAutoswitch.Daemon.Process
open Broadcast Engine Exits MainLoop ManagerInForce Monitor Notifications Router Schema StateProg Transition

structure Args where
  config : String := "/etc/nic-autoswitch/config.toml"
  dryRun : Bool := false
  deriving Repr, DecidableEq

inductive ExitCode where
  | success
  | failure
  deriving Repr, DecidableEq

/-- What the parts of the start answer: the reads of the configuration, the registration of the
signals, the connections, and the dump of the links. -/
structure Environment where
  reads : Reads
  registered : Except String Unit
  connection : Except String Handle
  monitorConnection : Except String Handle
  links : List (Except RtError LinkMessage)

/- `run_daemon` has failed before `run`, or has come to `run`. -/
inductive State (κ : Type) where
  | failed (e : NicAutoSwitchError) (kernel : κ)
  | running (s : Supervised κ)

variable {κ : Type} (toml : Toml) (n : SystemdNotify) (rt : Rtnetlink κ)

/- `run_daemon`, up to the call of `run`. -/
def runDaemon (args : Args) (env : Environment) (kernel : κ) : State κ :=
  let serviceConfig : ServiceConfig := { configPath := args.config, dryRun := args.dryRun }
  match DaemonService.new toml serviceConfig env.reads env.registered kernel with
  | .error e => .failed e kernel
  | .ok service =>
    match DaemonService.init env.connection env.monitorConnection env.links service with
    | .error e service => .failed e service.system.kernel
    | .ok _ service => .running (supervised service)

def step (p : State κ) (a : Exits.Act) : State κ :=
  match p with
  | .failed e kernel => .failed e kernel
  | .running s => .running (Notifications.step n rt toml s a)

/- `main` turns the result of `run_daemon` into the exit code. -/
def exitCode : State κ → Option ExitCode
  | .failed _ _ => some .failure
  | .running s =>
    match s.run.phase with
    | .returned (.ok ()) => some .success
    | .returned (.error _) => some .failure
    | _ => none

def kernel : State κ → κ
  | .failed _ kernel => kernel
  | .running s => s.run.loop.service.system.kernel

def sent : State κ → List String
  | .failed _ _ => []
  | .running s => s.sent

/-! ### Steps -/

/- An operation of the dispatcher that no reload makes. -/
def Plain : Dispatch.Op → Prop
  | .updateConfig _ => False
  | .start | .stop | .applyInitialState _ | .handleEvent _ _ => True

/-- What a step does to the service: operations of the dispatcher that leave the configuration,
or the adoption of one that has been validated. -/
inductive Moves (rt : Rtnetlink κ) (s s' : DaemonService κ) : Prop
  | plain (ops : List Dispatch.Op) (hops : ∀ op ∈ ops, Plain op)
      (hs : s'.system = run (Dispatch.perform rt) s.system ops) (hc : s'.config = s.config)
  | reload (config : Config) (hv : config.validate = .ok ())
      (hs : s'.system = Dispatch.perform rt s.system (.updateConfig config))
      (hc : s'.config = config)

variable {toml} {rt}

theorem Moves.still {s s' : DaemonService κ} (hs : s'.system = s.system)
    (hc : s'.config = s.config) : Moves rt s s' := .plain [] (fun op h => by cases h) hs hc

theorem readConfig_valid {path : String} {reads : Reads} {config : Config}
    (h : readConfig toml path reads = .ok config) : config.validate = .ok () := by
  unfold readConfig at h
  cases hn : ConfigLoader.new toml path reads.atNew with
  | error e =>
    rw [hn] at h
    cases h
  | ok loader =>
    rw [hn] at h
    obtain ⟨_, _, _, hv⟩ := ConfigLoader.loadFromPath_ok toml h
    exact hv

theorem moves_reloadConfiguration (s : DaemonService κ) (reads : Reads) :
    Moves rt s (s.reloadConfiguration toml reads) := by
  cases hr : readConfig toml s.serviceConfig.configPath reads with
  | error e =>
    rw [DaemonService.reloadConfiguration_error hr]
    exact .still rfl rfl
  | ok config =>
    rw [DaemonService.reloadConfiguration_ok hr]
    exact .reload config (readConfig_valid hr) rfl rfl

theorem moves_answer (l : LoopState κ) (command : ControlCommand) (uptimeSecs : ℕ)
    (reads : Reads) : Moves rt l.service (answer toml l command uptimeSecs reads).service := by
  unfold answer ControlServer.handleCommand controlState
  cases command with
  | status => exact .still rfl rfl
  | listRoutes => exact .still rfl rfl
  | shutdown => exact .still rfl rfl
  | reload =>
    dsimp only
    cases hr : readConfig toml l.service.serviceConfig.configPath reads with
    | error e =>
      simp only [DaemonService.reloadConfig_error hr]
      exact .still rfl rfl
    | ok config =>
      simp only [DaemonService.reloadConfig_ok hr]
      exact .reload config (readConfig_valid hr) rfl rfl

theorem moves_poll (s : DaemonService κ) (p : LinkAgreement.Poll) :
    Moves rt s (s.pollNetworkChanges rt p) := by
  unfold DaemonService.pollNetworkChanges
  cases hm : s.netlinkMonitor with
  | none => exact .still rfl rfl
  | some monitor =>
    dsimp only
    unfold LinkAgreement.poll
    cases monitor.pollChanges p.currentOrder p.previousOrder p.links with
    | error e => exact .still rfl rfl
    | ok answer =>
      refine .plain (answer.1.map fun e => .handleEvent (p.routeOrder e) e) ?_ ?_ rfl
      · intro op hop
        obtain ⟨e, _, rfl⟩ := List.mem_map.mp hop
        trivial
      · simp only [run, List.foldl_map]
        rfl

theorem moves_complete (l : LoopState κ) (reads : Reads) (i : Iteration) :
    Moves rt l.service (complete toml rt reads l i).service := by
  cases i with
  | poll p => exact moves_poll l.service p
  | watchdog => exact .still rfl rfl
  | signal result =>
    rcases result with (_ | missed) | (_ | _)
    · exact .still rfl rfl
    · exact .still rfl rfl
    · exact .still rfl rfl
    · exact moves_reloadConfiguration l.service reads

theorem moves_loop (l : LoopState κ) (act : MainLoop.Act) :
    Moves rt l.service (MainLoop.step toml rt l act).service := by
  cases act with
  | send signal => exact .still rfl rfl
  | command command uptimeSecs reads => exact moves_answer l command uptimeSecs reads
  | select branch =>
    have hsame : (select l branch).service = l.service := by
      unfold select
      split_ifs
      · cases branch with
        | poll p => rfl
        | watchdog => rfl
        | signal =>
          unfold selectBranch
          dsimp only
          split <;> rfl
      · rfl
    exact .still (congrArg DaemonService.system hsame) (congrArg DaemonService.config hsame)
  | finish reads =>
    show Moves rt l.service (finish toml rt l reads).service
    unfold finish
    cases l.current with
    | none => exact .still rfl rfl
    | some i => exact moves_complete l reads i

theorem moves_initial (r : RunState κ) (links : List (Except RtError LinkMessage)) :
    Moves rt r.loop.service (initial rt links r).loop.service := by
  have hdrop : ∀ (guard : Option NetlinkMonitor) (s : DaemonService κ),
      (dropGuard guard s).system = s.system ∧ (dropGuard guard s).config = s.config := by
    intro guard s
    cases guard <;> exact ⟨rfl, rfl⟩
  unfold initial
  cases r.guard with
  | none => exact .still rfl rfl
  | some monitor =>
    dsimp only
    split
    · exact .still (hdrop _ _).1 (hdrop _ _).2
    · next interfaces _ =>
      obtain ⟨s', hs⟩ := applyInitialState_ok rt interfaces r.loop.service.system
      have happlied : onSystem (Dispatch.applyInitialState rt interfaces) r.loop.service =
          .ok () { r.loop.service with system := s' } := by
        unfold onSystem
        rw [zoom_ok hs]
      rw [happlied]
      refine .plain [.applyInitialState interfaces] ?_ ?_ (hdrop _ _).2
      · intro op hop
        rw [List.mem_singleton.mp hop]
        trivial
      · exact (hdrop _ _).1.trans (after_ok hs).symm

/- Every step of `run` moves the service. -/
theorem moves_step (r : RunState κ) (a : Exits.Act) :
    Moves rt r.loop.service (Exits.step rt toml r a).loop.service := by
  have hstep := step_stepped rt toml r a
  generalize Exits.step rt toml r a = r' at hstep ⊢
  cases hstep with
  | stays _ => exact .still rfl rfl
  | call _ =>
    refine .plain [.start] ?_ rfl rfl
    intro op hop
    rw [List.mem_singleton.mp hop]
    trivial
  | @initial links _ => exact moves_initial r links
  | @command command uptimeSecs reads => exact moves_answer r.loop command uptimeSecs reads
  | @loop act _ => exact moves_loop r.loop act
  | shutDown _ =>
    refine .plain [.stop] ?_ rfl rfl
    intro op hop
    rw [List.mem_singleton.mp hop]
    trivial

/- What the dispatcher does in a move is done by its operations. -/
theorem Moves.ops {s s' : DaemonService κ} (h : Moves rt s s') :
    ∃ ops, s'.system = run (Dispatch.perform rt) s.system ops := by
  cases h with
  | plain ops _ hs _ => exact ⟨ops, hs⟩
  | reload config _ hs _ => exact ⟨[.updateConfig config], hs⟩

/-! ### Runs -/

theorem run_failed (e : NicAutoSwitchError) (k : κ) (acts : List Exits.Act) :
    run (step toml n rt) (.failed e k) acts = .failed e k := by
  induction acts with
  | nil => rfl
  | cons a acts ih => exact ih

theorem run_running (s : Supervised κ) (acts : List Exits.Act) :
    run (step toml n rt) (.running s) acts =
      .running (run (Notifications.step n rt toml) s acts) := by
  induction acts generalizing s with
  | nil => rfl
  | cons a acts ih => exact ih (Notifications.step n rt toml s a)

/- What every move of the service keeps holds of the process as long as it runs. -/
theorem throughout_moves {P : DaemonService κ → Prop}
    (hm : ∀ s s', Moves rt s s' → P s → P s') (p : State κ)
    (h0 : ∀ s, p = .running s → P s.run.loop.service) (acts : List Exits.Act) :
    Throughout (step toml n rt) (fun p => ∀ s, p = .running s → P s.run.loop.service) p acts := by
  refine throughout_of_invariant (step toml n rt) (fun p => ∀ s, p = .running s →
    P s.run.loop.service) (fun _ => True) (fun p a _ h => ?_) p acts (fun _ _ => trivial) h0
  cases p with
  | failed e k => exact fun s hs => by cases hs
  | running s =>
    rintro s' hs'
    cases hs'
    unfold Notifications.step
    split_ifs
    · exact hm _ _ (moves_step s.run a) (h s rfl)
    · exact h s rfl

theorem new_spec {serviceConfig : ServiceConfig} {reads : Reads} {registered : Except String Unit}
    {k : κ} {service : DaemonService κ}
    (h : DaemonService.new toml serviceConfig reads registered k = .ok service) :
    ∃ config, readConfig toml serviceConfig.configPath reads = .ok config ∧
      service = { serviceConfig, config, system := ⟨.new config .default, k, []⟩ } := by
  unfold DaemonService.new at h
  cases hr : readConfig toml serviceConfig.configPath reads with
  | error e =>
    rw [hr] at h
    cases h
  | ok config =>
    rw [hr] at h
    cases registered with
    | error e => cases h
    | ok u =>
      cases h
      exact ⟨config, rfl, rfl⟩

/- The service that `run_daemon` hands to `run`. -/
theorem runDaemon_running {args : Args} {env : Environment} {k : κ} {s : Supervised κ}
    (h : runDaemon toml args env k = .running s) :
    ∃ config rm monitor, readConfig toml args.config env.reads = .ok config ∧
      rm.dryRun = (args.dryRun || config.global.dryRun) ∧
      s = supervised
        { serviceConfig := ⟨args.config, args.dryRun⟩
          config := config
          system := ⟨(EventDispatcher.new config .default).setRouteManager rm, k, []⟩
          netlinkMonitor := some monitor } := by
  unfold runDaemon at h
  dsimp only at h
  split at h
  · cases h
  · next service hnew =>
    obtain ⟨config, hr, rfl⟩ := new_spec hnew
    split at h
    · cases h
    · next hinit =>
      obtain ⟨rm, monitor, _, hdry, rfl⟩ := init_spec hinit
      cases h
      exact ⟨config, rm, monitor, hr, hdry, rfl⟩

/- The manager counts from the base that the file has at the start. -/
theorem runDaemon_base {args : Args} {env : Environment} {k : κ} {s : Supervised κ}
    (h : runDaemon toml args env k = .running s) {config : Config}
    (hr : readConfig toml args.config env.reads = .ok config) :
    (manager s.run.loop.service).baseTableId = config.global.tableIdStart := by
  unfold runDaemon at h
  dsimp only at h
  split at h
  · cases h
  · next service hnew =>
    obtain ⟨config', hr', rfl⟩ := new_spec hnew
    rw [show readConfig toml args.config env.reads = .ok config' from hr'] at hr
    cases hr
    split at h
    · cases h
    · next hinit =>
      cases h
      obtain ⟨rm, monitor, hbase, _, rfl⟩ := init_spec hinit
      exact hbase

/- A start that fails leaves the kernel alone. -/
theorem runDaemon_failed {args : Args} {env : Environment} {k k' : κ} {e : NicAutoSwitchError}
    (h : runDaemon toml args env k = .failed e k') : k' = k := by
  unfold runDaemon at h
  dsimp only at h
  split at h
  · cases h
    rfl
  · next service hnew =>
    obtain ⟨config, _, rfl⟩ := new_spec hnew
    split at h
    · next hinit =>
      cases h
      unfold DaemonService.init at hinit
      dsimp only at hinit
      split at hinit
      · cases hinit
        rfl
      · cases hinit
    · cases h

/-! ### The configuration in force -/

/- The service and its dispatcher have the same configuration, which has been validated, and
each active route is what a valid rule of a validated configuration says. -/
structure InForce (s : DaemonService κ) : Prop where
  valid : s.config.validate = .ok ()
  same : s.system.dispatcher.config = s.config
  routes : RouteLifetime.From (fun config => config.validate = .ok ()) (manager s)
    s.system.dispatcher

theorem config_run_plain (ops : List Dispatch.Op) (hops : ∀ op ∈ ops, Plain op) (s : System κ) :
    (run (Dispatch.perform rt) s ops).dispatcher.config = s.dispatcher.config := by
  refine run_invariant (Dispatch.perform rt) (fun s' => s'.dispatcher.config = s.dispatcher.config)
    Plain (fun s' op hop h => ?_) s ops hops rfl
  rcases RouteLifetime.config_perform rt s' op with hsame | hnew
  · exact hsame.trans h
  · rw [hnew] at hop
    cases hop

theorem from_run_plain {C : Config → Prop} {rm : RouteManager} (ops : List Dispatch.Op)
    (hops : ∀ op ∈ ops, Plain op) {s : System κ} (h : RouteLifetime.From C rm s.dispatcher) :
    RouteLifetime.From C rm (run (Dispatch.perform rt) s ops).dispatcher := by
  refine run_invariant (Dispatch.perform rt) (fun s' => RouteLifetime.From C rm s'.dispatcher) Plain
    (fun s' op hop h => RouteLifetime.from_step (fun config hc => ?_) h) s ops hops h
  rw [hc] at hop
  cases hop

theorem InForce.moves {s s' : DaemonService κ} (hm : Moves rt s s') (h : InForce s) :
    InForce s' := by
  have hroutes : s'.config.validate = .ok () ∧ s'.system.dispatcher.config = s'.config ∧
      RouteLifetime.From (fun config => config.validate = .ok ()) (manager s)
        s'.system.dispatcher := by
    cases hm with
    | plain ops hops hs hc =>
      rw [hs, hc, config_run_plain ops hops]
      exact ⟨h.valid, h.same, from_run_plain ops hops h.routes⟩
    | reload config hv hs hc =>
      rw [hs, hc]
      refine ⟨hv, rfl, RouteLifetime.from_step (fun c hc => ?_) h.routes⟩
      cases hc
      exact hv
  obtain ⟨hvalid, hsame, hfrom⟩ := hroutes
  have hmanager : manager s' = manager s := hfrom.manager
  exact ⟨hvalid, hsame, hmanager ▸ hfrom⟩

/- A daemon that is started as a dry run, by its argument or by its configuration, never changes
the kernel, whatever it reloads later. -/
theorem process_dry (toml : Toml) (n : SystemdNotify) (rt : Rtnetlink κ) (args : Args)
    (env : Environment) (k : κ) (acts : List Exits.Act)
    (h : args.dryRun = true ∨ ∃ config, readConfig toml args.config env.reads = .ok config ∧
      config.global.dryRun = true) :
    Throughout (step toml n rt) (fun p => kernel p = k) (runDaemon toml args env k) acts := by
  have hdry : Throughout (step toml n rt) (fun p => ∀ s, p = .running s →
      DryRun.Untouched k s.run.loop.service.system.execState) (runDaemon toml args env k) acts := by
    refine throughout_moves (P := fun s => DryRun.Untouched k s.system.execState) n
      (fun s s' hm h => ?_) (runDaemon toml args env k) (fun s hs => ?_) acts
    · obtain ⟨ops, hs⟩ := hm.ops
      rw [hs]
      exact run_keeps_all (DryRun.callsKeep_untouched rt k) (fun _ h => h) ops h
    · obtain ⟨config, rm, monitor, hr, hrm, rfl⟩ := runDaemon_running hs
      refine ⟨hrm.trans ?_, rfl⟩
      rcases h with ha | ⟨config', hr', hc⟩
      · rw [ha, Bool.true_or]
      · rw [hr] at hr'
        cases hr'
        rw [hc, Bool.or_true]
  intro pre hpre
  have hrunning := hdry pre hpre
  cases hstart : runDaemon toml args env k with
  | failed e k' =>
    rw [run_failed]
    exact runDaemon_failed hstart
  | running s =>
    rw [hstart] at hrunning
    rw [run_running] at hrunning ⊢
    exact (hrunning _ rfl).2

/- The host with one rule starts as a dry run by its argument, is reloaded, and loses eth0. -/
def dryHost : State Kernel.KernelState :=
  runDaemon lanToml { dryRun := true } ⟨wet, .ok (), .ok {}, .ok {}, []⟩ .empty

theorem process_dry_lan :
    Throughout (step lanToml (.new none none) Kernel.noFault.linux)
      (fun p => kernel p = Kernel.KernelState.empty) dryHost
      [.call, .initial eth0Down, .loop (.send .reload), .loop (.select .signal),
        .loop (.finish wet)] :=
  process_dry lanToml (.new none none) Kernel.noFault.linux { dryRun := true }
    ⟨wet, .ok (), .ok {}, .ok {}, []⟩ .empty _ (.inl rfl)

/-! ### Entries of the kernel -/

section Provenance

open Kernel Provenance

/- What is known of the service and of what it has put into the kernel. -/
structure Accountable (env : Env) (base : ℕ) (k : KernelState) (s : DaemonService KernelState) :
    Prop where
  asking : Asking (fun config => config.validate = .ok ()) base s.system
  stems : Stems env k s.system.execState

theorem Accountable.moves {env : Env} {base : ℕ} {k : KernelState}
    {s s' : DaemonService KernelState} (hm : Moves env.linux s s') (h : Accountable env base k s) :
    Accountable env base k s' := by
  have hstems : Stems env k s'.system.execState := by
    obtain ⟨ops, hs⟩ := hm.ops
    rw [hs]
    exact h.stems.run ops
  refine ⟨?_, hstems⟩
  cases hm with
  | plain ops hops hs _ =>
    rw [hs]
    refine run_invariant (Dispatch.perform env.linux) (Asking _ base) Plain
      (fun _ op hop h => asking_perform env.linux h fun config hc => ?_) s.system ops hops h.asking
    rw [hc] at hop
    cases hop
  | reload config hv hs _ =>
    rw [hs]
    refine asking_perform env.linux h.asking fun c hc => ?_
    cases hc
    exact hv

theorem accountable_throughout (n : SystemdNotify) (env : Env) {args : Args}
    {environment : Environment} {k : KernelState} {s : Supervised KernelState}
    (hstart : runDaemon toml args environment k = .running s) (acts : List Exits.Act) :
    Throughout (step toml n env.linux) (fun p => ∀ s', p = .running s' →
      Accountable env (manager s.run.loop.service).baseTableId k s'.run.loop.service)
      (.running s) acts := by
  refine throughout_moves n (fun _ _ hm h => h.moves hm) (.running s) (fun s' hs' => ?_) acts
  cases hs'
  obtain ⟨config, rm, monitor, hread, _, rfl⟩ := runDaemon_running hstart
  refine ⟨⟨readConfig_valid hread, rfl, ?_, List.forall_mem_nil _⟩, ?_⟩
  · intro name a ha
    cases ha
  · exact ⟨fun _ hp => .inl hp, fun _ hq => .inl hq⟩

end Provenance

/-! ### Foreign tables -/

section ForeignTables

open Kernel ForeignTables Provenance

/- The process neither visits the table at the start nor has been given it since. -/
def ForeignTo (p : State KernelState) (t : ℕ) : Prop :=
  ∀ s, p = .running s → Foreign (manager s.run.loop.service) s.run.loop.service.system.history t

/- Whatever the process meets and whatever requests fail, each foreign table has the policy rules
that it had before the start, and where the dumps list what they are asked for also the routes. -/
theorem process_spares_foreign (toml : Toml) (n : SystemdNotify) (env : Env) (args : Args)
    (environment : Environment) (k : KernelState) (acts : List Exits.Act) :
    Throughout (step toml n env.linux)
      (fun p => ∀ t, ForeignTo p t → SameTable env t k (kernel p))
      (runDaemon toml args environment k) acts := by
  have hspared : Throughout (step toml n env.linux) (fun p => ∀ s, p = .running s →
      Spared env (manager s.run.loop.service) k s.run.loop.service.system.execState)
      (runDaemon toml args environment k) acts := by
    refine throughout_moves (P := fun s => Spared env (manager s) k s.system.execState) n
      (fun s s' hm h => ?_) (runDaemon toml args environment k) (fun s hs => ?_) acts
    · obtain ⟨ops, hs⟩ := hm.ops
      have hrun := h.run ops
      rw [← hs] at hrun
      have hmanager : manager s' = manager s := hrun.manager
      rw [hmanager]
      exact hrun
    · obtain ⟨config, rm, monitor, _, _, rfl⟩ := runDaemon_running hs
      exact ⟨rfl, fun _ t _ => sameTable_refl env t k⟩
  intro pre hpre t ht
  have hrunning := hspared pre hpre
  cases hstart : runDaemon toml args environment k with
  | failed e k' =>
    rw [run_failed]
    show SameTable env t k k'
    rw [runDaemon_failed hstart]
    exact sameTable_refl env t k
  | running s =>
    have haccountable := accountable_throughout n env hstart acts pre hpre
    rw [hstart] at hrunning ht
    rw [run_running] at hrunning haccountable ht ⊢
    exact (hrunning _ rfl).same (haccountable _ rfl).asking.named t (ht _ rfl)

end ForeignTables

/-! ### How the process exits -/

/- The notifications of a main loop that has ended in order. -/
def allSaid (l : LoopState κ) : List NotifyState :=
  [.reloading, .ready] ++ (completed l).flatMap ofIteration ++ [.stopping]

/-- What an exit code promises: after a failure systemd has at most been told of the start, and
after a success everything is stopped, and systemd has been told so. -/
structure Reported (n : SystemdNotify) (p : State κ) : Prop where
  failure : exitCode p = some .failure → sent p = [] ∨ sent p = n.notify [.reloading]
  success : exitCode p = some .success → ∃ s, p = .running s ∧ Ended true s.run.loop.service ∧
    s.sent = n.notify (allSaid s.run.loop)

/- The condition of a run that returns in order. -/
def EndsWell (r : RunState κ) : Prop :=
  r.phase = .returned (.ok ()) → Ended true r.loop.service

theorem endsWell_step {r : RunState κ} (h : InPlace true r) (he : EndsWell r) (a : Exits.Act) :
    EndsWell (Exits.step rt toml r a) := by
  have hstep := step_stepped rt toml r a
  generalize Exits.step rt toml r a = r' at hstep ⊢
  cases hstep with
  | stays _ => exact he
  | call _ => exact fun hr => by cases hr
  | @initial links _ =>
    intro hr
    rcases (initial_phase rt links r).1 with hloop | ⟨e, herr⟩
    · cases hloop.symm.trans hr
    · cases herr.symm.trans hr
  | @command command uptimeSecs reads =>
    intro hr
    obtain ⟨hstate, hm, hdisp, hexec⟩ := answer_keeps toml r.loop command uptimeSecs reads
    obtain ⟨h1, h2, h3, h4⟩ := he hr
    exact ⟨hstate.trans h1, hdisp.trans h2, (congrArg RuleExecutor.activeRoutes hexec).trans h3,
      fun hh => (congrArg Option.isSome hm).trans (h4 hh)⟩
  | loop hp => exact fun hr => by cases hp.symm.trans hr
  | shutDown hp => exact fun _ => ended_shutDown h hp

/-- What is known of the process at any time. -/
structure Accounted (n : SystemdNotify) (s : Supervised κ) : Prop where
  said : Said n s
  inPlace : InPlace true s.run
  endsWell : EndsWell s.run

/- The run itself is one that is made without systemd. -/
theorem accounted_run (n : SystemdNotify) (rt : Rtnetlink κ) (toml : Toml)
    (service : DaemonService κ) (hm : service.netlinkMonitor.isSome) (acts : List Exits.Act) :
    Accounted n (run (Notifications.step n rt toml) (supervised service) acts) := by
  have hsaid := run_preserves (Notifications.step n rt toml) (Said n)
    (fun _ a h => said_step n rt toml h a) _ acts (said_supervised n service)
  have hrun : InPlace true (run (Notifications.step n rt toml) (supervised service) acts).run ∧
      EndsWell (run (Notifications.step n rt toml) (supervised service) acts).run := by
    rw [run_supervised]
    refine run_preserves (Exits.step rt toml) (fun r => InPlace true r ∧ EndsWell r)
      (fun _ a h => ⟨inPlace_step h.1 a, endsWell_step h.1 h.2 a⟩) _ _ ⟨?_, fun hr => by cases hr⟩
    exact ⟨nofun, nofun, fun _ => rfl, fun _ _ => hm⟩
  exact ⟨hsaid, hrun.1, hrun.2⟩

theorem Accounted.reported {n : SystemdNotify} {s : Supervised κ} (h : Accounted n s) :
    Reported n (.running s) := by
  have hsent := h.said.sent
  have hends := h.endsWell
  unfold EndsWell at hends
  constructor
  · intro hexit
    unfold exitCode at hexit
    dsimp only at hexit
    split at hexit
    · cases hexit
    · next e hp =>
      rw [hp] at hsent
      exact .inr hsent
    · cases hexit
  · intro hexit
    unfold exitCode at hexit
    dsimp only at hexit
    split at hexit
    · next hp =>
      rw [hp] at hsent
      exact ⟨s, rfl, hends hp, hsent⟩
    · cases hexit
    · cases hexit

/- Whenever the process exits with a failure, systemd has not been told that the daemon was
ready; whenever it exits with a success, the service and its dispatcher are stopped, no route is
active, the monitor is in its slot, and systemd has been told of the start, the readiness, every
reload and watchdog tick that has been handled, and the end. -/
theorem exit_reported (toml : Toml) (n : SystemdNotify) (rt : Rtnetlink κ) (args : Args)
    (env : Environment) (k : κ) (acts : List Exits.Act) :
    Throughout (step toml n rt) (Reported n) (runDaemon toml args env k) acts := by
  intro pre _
  cases hstart : runDaemon toml args env k with
  | failed e k' =>
    rw [run_failed]
    exact ⟨fun _ => .inl rfl, fun hexit => by cases hexit⟩
  | running s =>
    rw [run_running]
    obtain ⟨config, rm, monitor, _, _, rfl⟩ := runDaemon_running hstart
    exact (accounted_run n rt toml _ rfl pre).reported

end NicAutoswitch.Daemon.Process
