import NicAutoswitch.Daemon.MainLoop

/-!
# How `run` ends (daemon/service.rs)

`run` starts the dispatcher, applies the initial routes, runs the main loop and winds
down. While it lists the interfaces the monitor is out of its slot, in a `MonitorGuard`.
Control commands are answered at any time.
-/

namespace NicAutoswitch.Daemon.Exits
open Broadcast Schema Monitor Router Engine StateProg Transition MainLoop

variable {κ : Type}

/-! ### The monitor guard -/

/- `MonitorGuard::take`; without a monitor there is no guard. -/
def takeMonitor (s : DaemonService κ) : Option NetlinkMonitor × DaemonService κ :=
  (s.netlinkMonitor, { s with netlinkMonitor := none })

/- `Drop for MonitorGuard` -/
def dropGuard (guard : Option NetlinkMonitor) (s : DaemonService κ) : DaemonService κ :=
  match guard with
  | some monitor => { s with netlinkMonitor := some monitor }
  | none => s

variable (rt : Rtnetlink κ)

/-! ### The runs of the daemon -/

/- How far `run` has come: the initial routes are awaited, the main loop runs, or it has
returned. -/
inductive Phase where
  | before
  | starting
  | looping
  | returned (result : Except NicAutoSwitchError Unit)

structure RunState (κ : Type) where
  loop : LoopState κ
  phase : Phase := .before
  guard : Option NetlinkMonitor := none

/- `run` is called, the dump for the initial routes is answered, the main loop or the control
server makes a step, the end of the loop is followed by the shutdown. -/
inductive Act where
  | call
  | initial (links : List (Except RtError LinkMessage))
  | loop (act : MainLoop.Act)
  | shutDown

def withService (r : RunState κ) (service : DaemonService κ) : RunState κ :=
  { r with loop := { r.loop with service := service } }

/- The first part of `run`, up to the first await. -/
def call (r : RunState κ) : RunState κ :=
  let (guard, service) := takeMonitor r.loop.service.started
  { withService r service with phase := .starting, guard := guard }

/- The main loop subscribes to the signals when it begins. -/
def enterLoop (r : RunState κ) : RunState κ :=
  { r with loop := { r.loop with signalRx := {}, looping := true, current := none }
           phase := .looping }

/- `run` leaves by the `?` behind `apply_initial_routes`. -/
def leave (e : NicAutoSwitchError) (r : RunState κ) : RunState κ :=
  { r with phase := .returned (.error e) }

/- The guard is dropped. -/
def unguard (r : RunState κ) (service : DaemonService κ) : RunState κ :=
  { withService r (dropGuard r.guard service) with guard := none }

/- The rest of `apply_initial_routes`, and the `?` behind it. The guard is dropped on every
way out. -/
def initial (links : List (Except RtError LinkMessage)) (r : RunState κ) : RunState κ :=
  match r.guard with
  | none => enterLoop r
  | some monitor =>
    match monitor.getInterfaces links with
    | .error e => leave e (unguard r r.loop.service)
    | .ok interfaces =>
      match onSystem (Dispatch.applyInitialState rt interfaces) r.loop.service with
      | .ok _ s => enterLoop (unguard r s)
      | .error e s => leave e (unguard r s)

/- The part of `run` behind the main loop, which always returns Ok. -/
def shutDown (r : RunState κ) : RunState κ :=
  { withService r r.loop.service.windDown with phase := .returned (.ok ()) }

variable (toml : Toml)

def loopStep (r : RunState κ) (act : MainLoop.Act) : RunState κ :=
  { r with loop := MainLoop.step toml rt r.loop act }

def step (r : RunState κ) : Act → RunState κ
  | .call =>
    match r.phase with
    | .before => call r
    | _ => r
  | .initial links =>
    match r.phase with
    | .starting => initial rt links r
    | _ => r
  | .loop (.command command uptimeSecs reads) =>
    loopStep rt toml r (.command command uptimeSecs reads)
  | .loop act =>
    match r.phase with
    | .looping => loopStep rt toml r act
    | _ => r
  | .shutDown =>
    match r.phase with
    | .looping => if r.loop.looping || r.loop.current.isSome then r else shutDown r
    | _ => r

def launched (service : DaemonService κ) : RunState κ := { loop := { service := service } }

/- Everything is stopped and back in its place; `had` says whether there was a monitor. -/
structure Ended (had : Bool) (s : DaemonService κ) : Prop where
  state : s.state = .stopped
  dispatcher : s.system.dispatcher.state = .stopped
  activeRoutes : s.system.dispatcher.executor.activeRoutes = ∅
  monitor : had = true → s.netlinkMonitor.isSome

/- Whenever `run` has returned. -/
def EndsStopped (had : Bool) (r : RunState κ) : Prop :=
  ∀ result, r.phase = .returned result → Ended had r.loop.service

/- The condition: the dump for the initial routes, asked for by a monitor that has a
connection, has no error. -/
def DumpSucceeds (r : RunState κ) : Act → Prop
  | .initial links => ∀ monitor, r.guard = some monitor → monitor.handle.isSome →
      ∀ e, .error e ∉ links
  | _ => True

variable {rt} {toml} {r : RunState κ} {had : Bool}

/-! ### The start -/

theorem collect_ok_iff {α : Type} (visit : α → LinkMessage → α)
    (links : List (Except RtError LinkMessage)) (acc : α) :
    (∃ a, NetlinkMonitor.collect visit links acc = .ok a) ↔ ∀ e, .error e ∉ links := by
  induction links generalizing acc with
  | nil => exact iff_of_true ⟨acc, rfl⟩ fun e he => by cases he
  | cons item rest ih =>
    cases item with
    | error e =>
      refine iff_of_false ?_ fun h => h e List.mem_cons_self
      rintro ⟨a, ha⟩
      cases ha
    | ok link =>
      refine (ih (visit acc link)).trans (forall_congr' fun e => not_congr ?_)
      rw [List.mem_cons]
      exact (or_iff_right fun h => by cases h).symm

theorem getInterfaces_ok_iff (monitor : NetlinkMonitor)
    (links : List (Except RtError LinkMessage)) :
    (∃ interfaces, monitor.getInterfaces links = .ok interfaces) ↔
      (monitor.handle.isSome → ∀ e, .error e ∉ links) := by
  unfold NetlinkMonitor.getInterfaces
  cases monitor.handle with
  | none => exact iff_of_true ⟨[], rfl⟩ fun h => by cases h
  | some handle => exact (collect_ok_iff _ links []).trans ⟨fun h _ => h, fun h => h rfl⟩

theorem applyInitialLoop_returns (rt : Rtnetlink κ) (names : List String) (s : System κ) :
    Returns (Dispatch.applyInitialLoop rt names) s fun _ _ => True := by
  induction names generalizing s with
  | nil => exact returns_pure trivial
  | cons name rest ih =>
    exact Returns.bind (returns_attempt (P := fun _ => True) trivial) fun _ s' _ => ih s'

/- The initial state is always applied with success. -/
theorem applyInitialState_ok (rt : Rtnetlink κ) (interfaces : List InterfaceInfo) (s : System κ) :
    ∃ s', Dispatch.applyInitialState rt interfaces s = .ok () s' := by
  obtain ⟨k, hk⟩ := sweep_ok rt (System.execState
    { s with dispatcher := s.dispatcher.withInterfaces interfaces })
  have hreturns : Returns (Dispatch.applyInitialState rt interfaces) s fun _ _ => True := by
    refine returns_bind_ok (modifyDispatcher_ok _ s) ?_
    refine returns_bind_ok (zoom_ok hk) ?_
    exact returns_bind_ok (readDispatcher_ok _) (applyInitialLoop_returns rt _ _)
  obtain ⟨u, s', h, _⟩ := hreturns
  exact ⟨s', h⟩

/-! ### What the steps keep -/

/- What a step does in its phase; in the others, and at the end of a main loop that goes on,
it does nothing. -/
inductive Stepped (rt : Rtnetlink κ) (toml : Toml) (r : RunState κ) : Act → RunState κ → Prop
  | stays {a : Act} (hp : ∀ links, a = .initial links → r.phase ≠ .starting) : Stepped rt toml r a r
  | call (hp : r.phase = .before) : Stepped rt toml r .call (call r)
  | initial {links : List (Except RtError LinkMessage)} (hp : r.phase = .starting) :
    Stepped rt toml r (.initial links) (initial rt links r)
  | command {command : ControlCommand} {uptimeSecs : ℕ} {reads : Reads} :
    Stepped rt toml r (.loop (.command command uptimeSecs reads))
      (loopStep rt toml r (.command command uptimeSecs reads))
  | loop {act : MainLoop.Act} (hp : r.phase = .looping) :
    Stepped rt toml r (.loop act) (loopStep rt toml r act)
  | shutDown (hp : r.phase = .looping) : Stepped rt toml r .shutDown (shutDown r)

theorem step_stepped (rt : Rtnetlink κ) (toml : Toml) (r : RunState κ) (a : Act) :
    Stepped rt toml r a (step rt toml r a) := by
  have hloop : ∀ act, Stepped rt toml r (.loop act)
      (match r.phase with
        | .looping => loopStep rt toml r act
        | _ => r) := by
    intro act
    split
    · next hp => exact .loop hp
    · exact .stays nofun
  cases a with
  | call =>
    simp only [step]
    split
    · next hp => exact .call hp
    · exact .stays nofun
  | initial links =>
    simp only [step]
    split
    · next hp => exact .initial hp
    · next hp => exact .stays fun _ _ => hp
  | loop act =>
    cases act with
    | command command uptimeSecs reads => exact .command
    | send signal => exact hloop (.send signal)
    | select branch => exact hloop (.select branch)
    | finish reads => exact hloop (.finish reads)
  | shutDown =>
    simp only [step]
    split
    · next hp =>
      split_ifs
      · exact .stays nofun
      · exact .shutDown hp
    · exact .stays nofun

/- Where the monitor is: in the guard while the initial routes are awaited, else in its slot. -/
structure InPlace (had : Bool) (r : RunState κ) : Prop where
  running : r.phase = .starting → r.loop.service.state = .running
  guarded : r.phase = .starting → had = true → r.guard.isSome
  unguarded : r.phase ≠ .starting → r.guard = none
  slot : r.phase ≠ .starting → had = true → r.loop.service.netlinkMonitor.isSome

/- A command changes neither the states nor the active routes nor the slot. -/
theorem answer_keeps (toml : Toml) (l : LoopState κ) (command : ControlCommand) (uptimeSecs : ℕ)
    (reads : Reads) :
    (answer toml l command uptimeSecs reads).service.state = l.service.state ∧
      (answer toml l command uptimeSecs reads).service.netlinkMonitor =
        l.service.netlinkMonitor ∧
      (answer toml l command uptimeSecs reads).service.system.dispatcher.state =
        l.service.system.dispatcher.state ∧
      (answer toml l command uptimeSecs reads).service.system.dispatcher.executor =
        l.service.system.dispatcher.executor := by
  unfold answer ControlServer.handleCommand controlState
  cases command with
  | status => exact ⟨rfl, rfl, rfl, rfl⟩
  | listRoutes => exact ⟨rfl, rfl, rfl, rfl⟩
  | shutdown => exact ⟨rfl, rfl, rfl, rfl⟩
  | reload =>
    dsimp only
    cases hc : readConfig toml l.service.serviceConfig.configPath reads with
    | ok config =>
      simp only [DaemonService.reloadConfig_ok hc]
      exact ⟨rfl, rfl, rfl, rfl⟩
    | error e =>
      simp only [DaemonService.reloadConfig_error hc, and_self]

theorem poll_keeps_monitor (p : LinkAgreement.Poll) (s : DaemonService κ)
    (h : s.netlinkMonitor.isSome) : (s.pollNetworkChanges rt p).netlinkMonitor.isSome := by
  obtain ⟨monitor, hm⟩ := Option.isSome_iff_exists.mp h
  unfold DaemonService.pollNetworkChanges
  rw [hm]
  rfl

/- No step of the main loop loses the monitor. -/
theorem loopStep_keeps_monitor (rt : Rtnetlink κ) (toml : Toml) (r : RunState κ) (act : MainLoop.Act)
    (h : r.loop.service.netlinkMonitor.isSome) :
    (loopStep rt toml r act).loop.service.netlinkMonitor.isSome := by
  show (MainLoop.step toml rt r.loop act).service.netlinkMonitor.isSome
  cases act with
  | send signal => exact h
  | command command uptimeSecs reads =>
    obtain ⟨_, hm, _⟩ := answer_keeps toml r.loop command uptimeSecs reads
    exact (congrArg Option.isSome hm).trans h
  | select branch =>
    show (select r.loop branch).service.netlinkMonitor.isSome
    unfold select
    split_ifs
    · cases branch with
      | signal =>
        unfold selectBranch
        dsimp only
        split
        · exact h
        · exact h
      | poll p => exact h
      | watchdog => exact h
    · exact h
  | finish reads =>
    show (finish toml rt r.loop reads).service.netlinkMonitor.isSome
    unfold finish
    cases r.loop.current with
    | none => exact h
    | some i =>
      cases i with
      | poll p => exact poll_keeps_monitor p r.loop.service h
      | watchdog => exact h
      | signal result =>
        show (DaemonService.mainLoopSignal _ r.loop.service result).1.netlinkMonitor.isSome
        rcases result with (_ | n) | (_ | _)
        · exact h
        · exact h
        · exact h
        · show (DaemonService.reloadConfiguration toml reads r.loop.service).netlinkMonitor.isSome
          unfold DaemonService.reloadConfiguration
          split
          · exact h
          · exact h

theorem inPlace_loopStep (hp : r.phase = .looping) (h : InPlace had r) (act : MainLoop.Act) :
    InPlace had (loopStep rt toml r act) := by
  have hne : r.phase ≠ .starting := by rw [hp]; nofun
  exact ⟨fun hx => absurd hx hne, fun hx => absurd hx hne, fun _ => h.unguarded hne,
    fun _ hh => loopStep_keeps_monitor rt toml r act (h.slot hne hh)⟩

theorem inPlace_initial (hp : r.phase = .starting) (h : InPlace had r)
    (links : List (Except RtError LinkMessage)) : InPlace had (initial rt links r) := by
  unfold initial
  cases hg : r.guard with
  | none =>
    refine ⟨nofun, nofun, fun _ => hg, fun _ hh => ?_⟩
    have hsome := h.guarded hp hh
    rw [hg] at hsome
    cases hsome
  | some monitor =>
    have hback : ∀ service, (unguard r service).loop.service.netlinkMonitor.isSome := by
      intro service
      simp only [unguard, withService, dropGuard, hg, Option.isSome_some]
    dsimp only
    split
    · exact ⟨nofun, nofun, fun _ => rfl, fun _ _ => hback _⟩
    · split
      · exact ⟨nofun, nofun, fun _ => rfl, fun _ _ => hback _⟩
      · exact ⟨nofun, nofun, fun _ => rfl, fun _ _ => hback _⟩

theorem inPlace_step (h : InPlace had r) (a : Act) : InPlace had (step rt toml r a) := by
  have hstep := step_stepped rt toml r a
  generalize step rt toml r a = r' at hstep ⊢
  cases hstep with
  | stays _ => exact h
  | call hp =>
    have hne : r.phase ≠ .starting := by rw [hp]; nofun
    exact ⟨fun _ => rfl, fun _ hh => h.slot hne hh, fun hx => absurd rfl hx,
      fun hx => absurd rfl hx⟩
  | @initial links hp => exact inPlace_initial hp h links
  | @command command uptimeSecs reads =>
    obtain ⟨hstate, _⟩ := answer_keeps toml r.loop command uptimeSecs reads
    exact ⟨fun hp => hstate.trans (h.running hp), h.guarded, h.unguarded,
      fun hp hh => loopStep_keeps_monitor rt toml r _ (h.slot hp hh)⟩
  | @loop act hp => exact inPlace_loopStep hp h act
  | shutDown hp =>
    have hne : r.phase ≠ .starting := by rw [hp]; nofun
    exact ⟨nofun, nofun, fun _ => h.unguarded hne, fun _ hh => h.slot hne hh⟩

theorem inPlace_launched (service : DaemonService κ) :
    InPlace service.netlinkMonitor.isSome (launched service) :=
  ⟨nofun, nofun, fun _ => rfl, fun _ hh => hh⟩

/-! ### How a run ends -/

theorem endsStopped_of_phase (h : ∀ result, r.phase ≠ .returned result) : EndsStopped had r :=
  fun result hr => absurd hr (h result)

/- The end of the main loop stops everything. -/
theorem ended_shutDown (h : InPlace had r) (hp : r.phase = .looping) :
    Ended had (shutDown r).loop.service where
  state := rfl
  dispatcher := rfl
  activeRoutes := rfl
  monitor := by
    have hne : r.phase ≠ .starting := by rw [hp]; nofun
    exact h.slot hne

/- The start of the main loop is reached exactly if the interfaces can be listed; else `run`
returns with everything running. -/
theorem endsStopped_initial (h : InPlace had r) (hp : r.phase = .starting)
    (links : List (Except RtError LinkMessage)) :
    EndsStopped had (initial rt links r) ↔ DumpSucceeds r (.initial links) := by
  have hcond : DumpSucceeds r (.initial links) ↔ ∀ monitor, r.guard = some monitor →
      ∃ interfaces, monitor.getInterfaces links = .ok interfaces :=
    forall₂_congr fun monitor _ => (getInterfaces_ok_iff monitor links).symm
  rw [hcond]
  unfold initial
  cases hg : r.guard with
  | none =>
    refine iff_of_true (endsStopped_of_phase fun _ hx => ?_) fun _ hm => ?_
    · cases hx
    · cases hm
  | some monitor =>
    dsimp only
    cases hi : monitor.getInterfaces links with
    | error e =>
      refine iff_of_false (fun hx => ?_) fun hx => ?_
      · have hstopped : r.loop.service.state = .stopped := by
          have hstate := (hx (.error e) rfl).state
          simpa only [leave, unguard, withService, dropGuard, hg] using hstate
        rw [h.running hp] at hstopped
        cases hstopped
      · obtain ⟨interfaces, hok⟩ := hx monitor rfl
        rw [hi] at hok
        cases hok
    | ok interfaces =>
      obtain ⟨s', hs⟩ := applyInitialState_ok rt interfaces r.loop.service.system
      refine iff_of_true ?_ fun m hm => ?_
      · simp only [onSystem, zoom, hs]
        refine endsStopped_of_phase fun _ hx => ?_
        cases hx
      · cases hm
        exact ⟨interfaces, hi⟩

/- A step keeps the promise exactly if it meets the condition. -/
theorem endsStopped_step (h : InPlace had r) (he : EndsStopped had r) (a : Act) :
    EndsStopped had (step rt toml r a) ↔ DumpSucceeds r a := by
  have hstep := step_stepped rt toml r a
  generalize step rt toml r a = r' at hstep ⊢
  cases hstep with
  | stays hp =>
    refine iff_of_true he ?_
    cases a with
    | initial links =>
      intro monitor hg
      rw [h.unguarded (hp links rfl)] at hg
      cases hg
    | call | loop _ | shutDown => trivial
  | call _ => exact iff_of_true (endsStopped_of_phase nofun) trivial
  | @initial links hp => exact endsStopped_initial h hp links
  | @command command uptimeSecs reads =>
    refine iff_of_true (fun result hr => ?_) trivial
    obtain ⟨hstate, hm, hdisp, hexec⟩ := answer_keeps toml r.loop command uptimeSecs reads
    obtain ⟨h1, h2, h3, h4⟩ := he result hr
    exact ⟨hstate.trans h1, hdisp.trans h2, (congrArg RuleExecutor.activeRoutes hexec).trans h3,
      fun hh => (congrArg Option.isSome hm).trans (h4 hh)⟩
  | loop hp =>
    exact iff_of_true (endsStopped_of_phase fun _ hx => by cases hp.symm.trans hx) trivial
  | shutDown hp => exact iff_of_true (fun _ _ => ended_shutDown h hp) trivial

/- In every run, `run` returns with everything stopped and the monitor in its slot exactly if
the dump for the initial routes succeeds. -/
theorem ends_stopped_iff (rt : Rtnetlink κ) (toml : Toml) (service : DaemonService κ)
    (acts : List Act) :
    Throughout (step rt toml) (EndsStopped service.netlinkMonitor.isSome) (launched service) acts ↔
      Along (step rt toml) DumpSucceeds (launched service) acts :=
  throughout_iff_along (step rt toml) (InPlace service.netlinkMonitor.isSome)
    (EndsStopped service.netlinkMonitor.isSome) DumpSucceeds (fun _ a h => inPlace_step h a)
    (fun _ a h he => endsStopped_step h he a) (launched service) acts (inPlace_launched service)
    (endsStopped_of_phase nofun)

open ManagerInForce

/- The dump of the initialised daemon fails: `run` returns the error, and service and
dispatcher go on running. -/
theorem failed_dump_leaves_running :
    let r := run (step Kernel.noFault.linux lanToml) (launched lanService)
      [.call, .initial [.error (.other "Resource temporarily unavailable")]]
    (∃ e, r.phase = .returned (.error e)) ∧ r.loop.service.state = .running ∧
    r.loop.service.system.dispatcher.state = .running ∧
    ¬ Throughout (step Kernel.noFault.linux lanToml)
      (EndsStopped lanService.netlinkMonitor.isSome) (launched lanService)
      [.call, .initial [.error (.other "Resource temporarily unavailable")]] := by
  refine ⟨⟨_, rfl⟩, rfl, rfl, fun h => ?_⟩
  have hended := h _ List.prefix_rfl _ rfl
  have hstate : ServiceState.running = .stopped := hended.state
  cases hstate

end NicAutoswitch.Daemon.Exits
