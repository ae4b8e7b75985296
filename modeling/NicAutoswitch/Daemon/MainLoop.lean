import NicAutoswitch.Daemon.Control
import NicAutoswitch.Daemon.ManagerInForce

/-!
# The main loop and the control server (daemon/service.rs, daemon/control.rs)

The loop waits in `select!` for a signal, a poll tick or a watchdog tick, and handles what
it gets before it waits again. The control server answers its commands meanwhile, at any
point of an iteration too.
-/

namespace NicAutoswitch.Daemon
open Broadcast Engine HashMaps Json Monitor Router Schema StateProg Transition

def packageVersion : String := "0.1.0"

/- `format!("{:?}", state)` -/
def ServiceState.debug : ServiceState → String
  | .initializing => "Initializing"
  | .running => "Running"
  | .reloading => "Reloading"
  | .stopping => "Stopping"
  | .stopped => "Stopped"

/- The members are sorted, as in every map of `serde_json`. -/
def activeRouteValue (r : ActiveRoute) : Value :=
  .object [("interface", .string r.interface), ("rule_name", .string r.ruleName),
    ("table_id", .number (toString r.tableId))]

variable {κ : Type}

/- `impl ControlState for DaemonService`; the uptime and the file are what a command finds. -/
def controlState (toml : Toml) (uptimeSecs : ℕ) (reads : Reads) :
    ControlState (DaemonService κ) where
  getStatus s :=
    { version := packageVersion
      state := s.state.debug
      uptimeSecs := uptimeSecs
      activeRoutes := s.system.dispatcher.executor.activeRoutes.entries.length }
  getActiveRoutes s := mapValues activeRouteValue s.system.dispatcher.executor.activeRoutes
  reloadConfig s :=
    match DaemonService.reloadConfig toml reads s with
    | .ok u s' => (.ok u, s')
    | .error e s' => (.error e, s')
  isShutdownRequested := DaemonService.isShutdownRequested
  requestShutdown := DaemonService.requestShutdown

namespace MainLoop

/- What an iteration handles. -/
inductive Iteration where
  | signal (result : Except RecvError Signal)
  | poll (p : LinkAgreement.Poll)
  | watchdog

/-- `acknowledged` and `begun` are auxiliary variables: whether a shutdown request has been
answered, and the iterations begun, newest first. -/
structure LoopState (κ : Type) where
  service : DaemonService κ
  signalRx : Receiver Signal signalCapacity := {}
  looping : Bool := true
  current : Option Iteration := none
  acknowledged : Bool := false
  begun : List Iteration := []

/- The branch of `select!` that is taken. -/
inductive Branch where
  | signal
  | poll (p : LinkAgreement.Poll)
  | watchdog

/- A signal is sent, a command is answered, the loop begins an iteration or ends it. -/
inductive Act where
  | send (signal : Signal)
  | command (command : ControlCommand) (uptimeSecs : ℕ) (reads : Reads)
  | select (branch : Branch)
  | finish (reads : Reads)

def shutdownRequested : String := "Shutdown requested"

def begin (l : LoopState κ) (i : Iteration) : LoopState κ :=
  { l with current := some i, begun := i :: l.begun }

def selectBranch (l : LoopState κ) : Branch → LoopState κ
  | .signal =>
    match l.signalRx.recv with
    | none => l
    | some (result, signalRx) => begin { l with signalRx := signalRx } (.signal result)
  | .poll p => begin l (.poll p)
  | .watchdog => begin l .watchdog

variable (toml : Toml) (rt : Rtnetlink κ)

/- An iteration takes effect when it ends; a watchdog tick only notifies systemd. -/
def complete (reads : Reads) (l : LoopState κ) : Iteration → LoopState κ
  | .signal result =>
    let (service, goesOn) :=
      DaemonService.mainLoopSignal (DaemonService.reloadConfiguration toml reads) l.service result
    { l with service := service, looping := l.looping && goesOn, current := none }
  | .poll p => { l with service := l.service.pollNetworkChanges rt p, current := none }
  | .watchdog => { l with current := none }

def answer (l : LoopState κ) (command : ControlCommand) (uptimeSecs : ℕ) (reads : Reads) :
    LoopState κ :=
  let (response, service) :=
    ControlServer.handleCommand (controlState toml uptimeSecs reads) command l.service
  { l with
    service := service
    acknowledged := l.acknowledged || response.message == some shutdownRequested }

/- The loop waits in `select!` only between two iterations. -/
def select (l : LoopState κ) (branch : Branch) : LoopState κ :=
  if l.looping && l.current.isNone then selectBranch l branch else l

def finish (l : LoopState κ) (reads : Reads) : LoopState κ :=
  match l.current with
  | some i => complete toml rt reads l i
  | none => l

def step (l : LoopState κ) : Act → LoopState κ
  | .send signal => { l with signalRx := l.signalRx.send signal }
  | .command command uptimeSecs reads => answer toml l command uptimeSecs reads
  | .select branch => select l branch
  | .finish reads => finish toml rt l reads

/- A network poll or a reload. -/
def isWork : Iteration → Bool
  | .poll _ => true
  | .signal (.ok .reload) => true
  | _ => false

def works (l : LoopState κ) : List Iteration := l.begun.filter isWork

/- Once a request has been answered, no poll and no reload begins, whatever comes. -/
def Obeys (l : LoopState κ) : Prop :=
  l.acknowledged = true → ∀ later, works (run (step toml rt) l later) = works l

/- The loop is left when this has been handled. -/
def stops : Iteration → Bool
  | .signal (.ok .shutdown) => true
  | .signal (.error .closed) => true
  | _ => false

/- The loop has ended, or ends with the iteration in progress. -/
def Ending (l : LoopState κ) : Prop := l.looping = false ∨ ∃ i, l.current = some i ∧ stops i = true

/- The condition: a shutdown request is answered when the loop is ending anyway. -/
def AnsweredLate (l : LoopState κ) : Act → Prop
  | .command .shutdown _ _ => Ending l
  | _ => True

variable {l : LoopState κ}

/-! ### What a request does -/

theorem failed_ne_requested (e : NicAutoSwitchError) :
    s!"Failed to reload: {e}" ≠ shutdownRequested := by
  intro h
  have hhead := congrArg (fun text => text.toList.head?) h
  have hfirst : "Failed to reload: ".toList.head? = some 'F' := rfl
  simp only [toString, String.toList_append, List.head?_append, hfirst, Option.some_or] at hhead
  revert hhead
  decide

/- Only a shutdown request is answered so. -/
theorem answered_iff (control : ControlState (DaemonService κ)) (command : ControlCommand)
    (s : DaemonService κ) :
    (ControlServer.handleCommand control command s).1.message = some shutdownRequested ↔
      command = .shutdown := by
  unfold ControlServer.handleCommand
  cases command with
  | status => exact iff_of_false (fun h => by cases h) fun h => by cases h
  | listRoutes => exact iff_of_false (fun h => by cases h) fun h => by cases h
  | reload =>
    apply iff_of_false
    · dsimp only
      rcases control.reloadConfig s with ⟨result, s'⟩
      cases result with
      | ok u =>
        intro h
        have ht : "Configuration reloaded" = shutdownRequested := Option.some.inj h
        revert ht
        decide
      | error e =>
        intro h
        exact failed_ne_requested e (Option.some.inj h)
    · intro h
      cases h
  | shutdown => exact iff_of_true rfl rfl

theorem acknowledged_answer (l : LoopState κ) (command : ControlCommand) (uptimeSecs : ℕ) (reads : Reads) :
    (answer toml l command uptimeSecs reads).acknowledged = true ↔
      l.acknowledged = true ∨ command = .shutdown := by
  rw [← answered_iff (controlState toml uptimeSecs reads) command l.service]
  unfold answer
  simp only [Bool.or_eq_true, beq_iff_eq]

/-! ### What the steps keep -/

/- The loop goes on after an iteration exactly if it went on before and was not stopped. -/
theorem complete_looping (reads : Reads) (l : LoopState κ) (i : Iteration) :
    (complete toml rt reads l i).looping = (l.looping && !stops i) := by
  cases i with
  | poll p => exact (Bool.and_true l.looping).symm
  | watchdog => exact (Bool.and_true l.looping).symm
  | signal result => rcases result with (_ | n) | (_ | _) <;> rfl

theorem complete_frame (reads : Reads) (l : LoopState κ) (i : Iteration) :
    (complete toml rt reads l i).current = none ∧
      (complete toml rt reads l i).begun = l.begun ∧
        (complete toml rt reads l i).acknowledged = l.acknowledged := by
  cases i <;> exact ⟨rfl, rfl, rfl⟩

theorem finish_frame (reads : Reads) (l : LoopState κ) :
    (finish toml rt l reads).current = none ∧ (finish toml rt l reads).begun = l.begun ∧
      (finish toml rt l reads).acknowledged = l.acknowledged := by
  unfold finish
  cases hc : l.current with
  | none => exact ⟨hc, rfl, rfl⟩
  | some i => exact complete_frame toml rt reads l i

/- At the end of the iteration in progress the loop goes on, unless it was ending. -/
theorem finish_looping (reads : Reads) (l : LoopState κ) :
    (finish toml rt l reads).looping = true ↔ ¬ Ending l := by
  unfold finish Ending
  cases hc : l.current with
  | none =>
    simp only [reduceCtorEq, false_and, exists_false, or_false, Bool.not_eq_false]
  | some i =>
    simp only [complete_looping, Option.some.injEq, exists_eq_left', not_or, Bool.and_eq_true,
      Bool.not_eq_true', Bool.not_eq_true, Bool.not_eq_false]

theorem select_ending (h : Ending l) (branch : Branch) : select l branch = l := by
  have hbusy : ¬ (l.looping && l.current.isNone) = true := by
    rw [Bool.and_eq_true, Option.isNone_iff_eq_none]
    rintro ⟨hl, hc⟩
    rcases h with h | ⟨i, hi, _⟩
    · rw [hl] at h
      cases h
    · rw [hc] at hi
      cases hi
  unfold select
  rw [if_neg hbusy]

/- A loop that is ending begins nothing, whatever comes. -/
theorem ending_step (h : Ending l) (a : Act) :
    Ending (step toml rt l a) ∧ works (step toml rt l a) = works l := by
  cases a with
  | send signal => exact ⟨h, rfl⟩
  | command command uptimeSecs reads => exact ⟨h, rfl⟩
  | select branch =>
    have hsame : step toml rt l (.select branch) = l := select_ending h branch
    rw [hsame]
    exact ⟨h, rfl⟩
  | finish reads =>
    obtain ⟨_, hbegun, _⟩ := finish_frame toml rt reads l
    have hstopped : ¬ (finish toml rt l reads).looping = true :=
      fun hl => (finish_looping toml rt reads l).mp hl h
    exact ⟨Or.inl (Bool.eq_false_iff.mpr hstopped), congrArg (List.filter isWork) hbegun⟩

theorem ending_run (h : Ending l) (later : List Act) :
    works (run (step toml rt) l later) = works l := by
  induction later generalizing l with
  | nil => rfl
  | cons a rest ih =>
    obtain ⟨hending, hworks⟩ := ending_step toml rt h a
    rw [run_cons, ih hending, hworks]

/- Nothing more begins, whatever comes, exactly if the loop is ending: otherwise the next tick
that it takes may be of the poll. -/
theorem quiet_iff : (∀ later, works (run (step toml rt) l later) = works l) ↔ Ending l := by
  apply Iff.intro _ fun h later => ending_run toml rt h later
  intro h
  by_contra hrunning
  let reads : Reads := ⟨.missing, .missing⟩
  let p : LinkAgreement.Poll := ⟨[], .asListed, .asListed, fun _ => .asListed⟩
  obtain ⟨hcurrent, hbegun, _⟩ := finish_frame toml rt reads l
  have hlooping := (finish_looping toml rt reads l).mpr hrunning
  have hpoll : run (step toml rt) l [.finish reads, .select (.poll p)] =
      begin (finish toml rt l reads) (.poll p) := by
    show select (finish toml rt l reads) (.poll p) = _
    unfold select
    rw [hlooping, hcurrent]
    rfl
  have hquiet := h [.finish reads, .select (.poll p)]
  rw [hpoll] at hquiet
  have hmore : works (begin (finish toml rt l reads) (.poll p)) = .poll p :: works l := by
    show List.filter isWork (.poll p :: (finish toml rt l reads).begun) = _
    rw [hbegun]
    rfl
  rw [hmore] at hquiet
  exact List.cons_ne_self _ _ hquiet

theorem obeys_iff : Obeys toml rt l ↔ (l.acknowledged = true → Ending l) :=
  imp_congr_right fun _ => quiet_iff toml rt

/-! ### Runs -/

theorem select_acknowledged (l : LoopState κ) (branch : Branch) :
    (select l branch).acknowledged = l.acknowledged := by
  unfold select
  split
  · cases branch with
    | signal =>
      unfold selectBranch
      dsimp only
      split <;> rfl
    | poll p => rfl
    | watchdog => rfl
  · rfl

/- Only a shutdown request is acknowledged, and no acknowledgement is taken back. -/
theorem acknowledged_step (l : LoopState κ) (a : Act) :
    (step toml rt l a).acknowledged = true ↔
      l.acknowledged = true ∨ ∃ uptimeSecs reads, a = .command .shutdown uptimeSecs reads := by
  cases a with
  | send signal => exact (or_iff_left fun ⟨_, _, h⟩ => by cases h).symm
  | command command uptimeSecs reads =>
    refine (acknowledged_answer toml l command uptimeSecs reads).trans (or_congr_right ?_)
    apply Iff.intro
    · rintro rfl
      exact ⟨uptimeSecs, reads, rfl⟩
    · rintro ⟨_, _, h⟩
      cases h
      rfl
  | select branch =>
    have hsame : (step toml rt l (.select branch)).acknowledged = l.acknowledged :=
      select_acknowledged l branch
    rw [hsame]
    exact (or_iff_left fun ⟨_, _, h⟩ => by cases h).symm
  | finish reads =>
    have hsame : (step toml rt l (.finish reads)).acknowledged = l.acknowledged :=
      (finish_frame toml rt reads l).2.2
    rw [hsame]
    exact (or_iff_left fun ⟨_, _, h⟩ => by cases h).symm

/- A step keeps the promise exactly if it answers no shutdown request of a running loop. -/
theorem obeys_step (h : Obeys toml rt l) (a : Act) :
    Obeys toml rt (step toml rt l a) ↔ AnsweredLate l a := by
  rw [obeys_iff] at h ⊢
  rw [acknowledged_step]
  have hending : Ending l → Ending (step toml rt l a) := fun hl => (ending_step toml rt hl a).1
  by_cases hrequest : ∃ uptimeSecs reads, a = .command .shutdown uptimeSecs reads
  · obtain ⟨uptimeSecs, reads, rfl⟩ := hrequest
    -- the request itself leaves the loop as it is
    exact ⟨fun hs => hs (Or.inr ⟨uptimeSecs, reads, rfl⟩), fun hl _ => hl⟩
  · apply iff_of_true
    · rintro (hack | hr)
      · exact hending (h hack)
      · exact absurd hr hrequest
    · unfold AnsweredLate
      split
      · exact absurd ⟨_, _, rfl⟩ hrequest
      · trivial

/- No poll and no reload begins after an acknowledged shutdown, in any continuation of any
point of a run, exactly if the run answers such requests only while the loop is ending. -/
theorem shutdown_obeyed_iff (service : DaemonService κ) (acts : List Act) :
    Throughout (step toml rt) (Obeys toml rt) ({ service := service } : LoopState κ) acts ↔
      Along (step toml rt) AnsweredLate ({ service := service } : LoopState κ) acts :=
  throughout_iff_along (step toml rt) (fun _ => True) (Obeys toml rt) AnsweredLate
    (fun _ _ _ => trivial) (fun _ a _ h => obeys_step toml rt h a) _ acts trivial
    fun h => by cases h

open ManagerInForce

/- The daemon of a host whose one link is down, and a poll that finds it up. -/
def running : DaemonService Kernel.KernelState :=
  after (DaemonService.startUp Kernel.noFault.linux eth0Down) lanService

def eth0Poll : LinkAgreement.Poll where
  links := [.ok { index := 2, flags := [.up, .running], attributes := [.ifName "eth0"] }]
  currentOrder := .asListed
  previousOrder := .asListed
  routeOrder _ := .asListed

def request : Act := .command .shutdown 0 wet

/- After the answer the loop polls and installs a rule. -/
theorem polls_after_shutdown :
    let handled := ControlServer.handleCommand (controlState lanToml 0 wet) .shutdown running
    let later := run (step lanToml Kernel.noFault.linux) ({ service := running } : LoopState _)
      [request, .select (.poll eth0Poll), .finish wet]
    handled.1.message = some "Shutdown requested" ∧ handled.2.isShutdownRequested = true ∧
    handled.2.system.kernel.rules = [] ∧
    works later = [.poll eth0Poll] ∧ later.looping = true ∧
    later.service.system.kernel.rules.length = 1 ∧
    ¬ Throughout (step lanToml Kernel.noFault.linux) (Obeys lanToml Kernel.noFault.linux)
      ({ service := running } : LoopState _) [request] := by
  refine ⟨rfl, rfl, by decide +kernel, rfl, rfl, by decide +kernel, fun h => ?_⟩
  have hobeys := h [request] List.prefix_rfl rfl [.select (.poll eth0Poll)]
  have hone : [Iteration.poll eth0Poll] = [] := hobeys
  cases hone

end MainLoop

end NicAutoswitch.Daemon
