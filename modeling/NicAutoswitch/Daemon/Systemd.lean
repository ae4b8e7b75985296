import NicAutoswitch.Daemon.Exits

/-!
# systemd notifications (daemon/systemd.rs)

A notification is sent only where there is a socket for it; one that cannot be sent is only
logged. Without a watchdog the main loop has no ticker for it.
-/

namespace NicAutoswitch.Daemon
open Broadcast Exits MainLoop Monitor Router Schema StateProg Transition

inductive NotifyState where
  | ready
  | reloading
  | stopping
  | status (message : String)
  | custom (message : String)
  deriving Repr, DecidableEq

def NotifyState.asStr : NotifyState → String
  | .ready => "READY=1"
  | .reloading => "RELOADING=1"
  | .stopping => "STOPPING=1"
  | .status message => message
  | .custom message => message

structure SystemdNotify where
  enabled : Bool
  watchdogIntervalMs : ℕ
  deriving Repr, DecidableEq

/- `str::parse::<u64>` -/
def parseU64 (text : String) : Option ℕ :=
  let digits : List Char := match text.toList with
    | '+' :: rest => rest
    | chars => chars
  let n : ℕ := digits.foldl (fun n c => 10 * n + (c.toNat - '0'.toNat)) 0
  if !digits.isEmpty && digits.all Char.isDigit && decide (n < 2 ^ 64) then some n else none

namespace SystemdNotify

/- 75% of the interval that is asked for, in milliseconds; 0 without one. -/
def getWatchdogInterval (watchdogUsec : Option String) : ℕ :=
  ((watchdogUsec.bind parseU64).map fun usec => usec / 1000 * 3 / 4).getD 0

/- The arguments are what `NOTIFY_SOCKET` and `WATCHDOG_USEC` hold. -/
def new (notifySocket watchdogUsec : Option String) : SystemdNotify :=
  ⟨notifySocket.isSome, getWatchdogInterval watchdogUsec⟩

def isWatchdogEnabled (n : SystemdNotify) : Bool := decide (0 < n.watchdogIntervalMs)

/- What is sent of the notifications. -/
def notify (n : SystemdNotify) (states : List NotifyState) : List String :=
  if n.enabled then states.map NotifyState.asStr else []

end SystemdNotify

namespace Notifications

variable {κ : Type}

/- What an iteration of the main loop tells systemd. -/
def ofIteration : Iteration → List NotifyState
  | .signal (.ok .reload) => [.reloading, .ready]
  | .watchdog => [.custom "WATCHDOG=1"]
  | _ => []

/- The notifications of a step of `run`, from the states before and after it. -/
def ofStep (r r' : RunState κ) : Exits.Act → List NotifyState
  | .call =>
    match r.phase with
    | .before => [.reloading]
    | _ => []
  | .initial _ =>
    match r.phase, r'.phase with
    | .starting, .looping => [.ready]
    | _, _ => []
  | .loop (.finish _) =>
    match r.phase, r.loop.current with
    | .looping, some i => ofIteration i
    | _, _ => []
  | .shutDown =>
    match r.phase, r'.phase with
    | .looping, .returned _ => [.stopping]
    | _, _ => []
  | .loop _ => []

/- A watchdog tick needs a watchdog. -/
def ticks (n : SystemdNotify) : Exits.Act → Bool
  | .loop (.select .watchdog) => n.isWatchdogEnabled
  | _ => true

/-- `run` under systemd, with what has been sent, oldest first. -/
structure Supervised (κ : Type) where
  run : RunState κ
  sent : List String := []

variable (n : SystemdNotify) (rt : Rtnetlink κ) (toml : Toml)

def step (s : Supervised κ) (a : Exits.Act) : Supervised κ :=
  if ticks n a then
    { run := Exits.step rt toml s.run a
      sent := s.sent ++ n.notify (ofStep s.run (Exits.step rt toml s.run a) a) }
  else s

def supervised (service : DaemonService κ) : Supervised κ := { run := launched service }

/- Under systemd `run` makes the steps that it makes without it, but for the ticks of a
watchdog that is not there. -/
theorem run_supervised (s : Supervised κ) (acts : List Exits.Act) :
    (run (step n rt toml) s acts).run =
      run (Exits.step rt toml) s.run (acts.filter (ticks n)) := by
  induction acts generalizing s with
  | nil => rfl
  | cons a acts ih =>
    rw [run_cons, ih, step]
    cases ht : ticks n a with
    | true =>
      rw [List.filter_cons_of_pos ht]
      rfl
    | false =>
      rw [List.filter_cons_of_neg (Bool.eq_false_iff.mp ht)]
      rfl

/- The iterations that have ended, oldest first. -/
def completed (l : LoopState κ) : List Iteration :=
  match l.current with
  | none => l.begun.reverse
  | some _ => l.begun.tail.reverse

/- What has been said when `run` has come to the phase and the iterations have ended. -/
def spoken (done : List Iteration) : Phase → List NotifyState
  | .before => []
  | .starting => [.reloading]
  | .looping => [.reloading, .ready] ++ done.flatMap ofIteration
  | .returned (.ok ()) => [.reloading, .ready] ++ done.flatMap ofIteration ++ [.stopping]
  | .returned (.error _) => [.reloading]

/- The iterations of a main loop: none before it begins, and none in progress after it. -/
structure Orderly (r : RunState κ) : Prop where
  unbegun : r.phase = .before ∨ r.phase = .starting → r.loop.begun = []
  current : ∀ i, r.loop.current = some i → r.phase = .looping ∧ r.loop.begun.head? = some i

variable {rt} {toml} {r : RunState κ}

/-! ### Steps -/

/- The main loop is entered, or `run` returns with an error. -/
theorem initial_phase (rt : Rtnetlink κ) (links : List (Except RtError LinkMessage))
    (r : RunState κ) :
    ((initial rt links r).phase = .looping ∨
      ∃ e, (initial rt links r).phase = .returned (.error e)) ∧
      (initial rt links r).loop.begun = r.loop.begun ∧
      (r.loop.current = none → (initial rt links r).loop.current = none) := by
  unfold initial
  split
  · exact ⟨.inl rfl, rfl, fun _ => rfl⟩
  · split
    · exact ⟨.inr ⟨_, rfl⟩, rfl, fun h => h⟩
    · split
      · exact ⟨.inl rfl, rfl, fun _ => rfl⟩
      · exact ⟨.inr ⟨_, rfl⟩, rfl, fun h => h⟩

/- The iteration that an act ends. -/
def ends (l : LoopState κ) : MainLoop.Act → List Iteration
  | .finish _ => l.current.toList
  | _ => []

theorem select_cases (l : LoopState κ) (branch : Branch) :
    select l branch = l ∨ l.current = none ∧ ∃ i, (select l branch).current = some i ∧
      (select l branch).begun = i :: l.begun := by
  unfold select
  split_ifs with hidle
  · have hnone : l.current = none := by
      rw [Bool.and_eq_true, Option.isNone_iff_eq_none] at hidle
      exact hidle.2
    cases branch with
    | poll p => exact .inr ⟨hnone, _, rfl, rfl⟩
    | watchdog => exact .inr ⟨hnone, _, rfl, rfl⟩
    | signal =>
      unfold selectBranch
      dsimp only
      split
      · exact .inl rfl
      · exact .inr ⟨hnone, _, rfl, rfl⟩
  · exact .inl rfl

/- Iterations are completed one by one, each when it ends. -/
theorem completed_step (rt : Rtnetlink κ) (toml : Toml) {l : LoopState κ}
    (h : ∀ i, l.current = some i → l.begun.head? = some i) (act : MainLoop.Act) :
    completed (MainLoop.step toml rt l act) = completed l ++ ends l act ∧
      ∀ i, (MainLoop.step toml rt l act).current = some i →
        (MainLoop.step toml rt l act).begun.head? = some i := by
  cases act with
  | send signal => exact ⟨(List.append_nil _).symm, h⟩
  | command command uptimeSecs reads => exact ⟨(List.append_nil _).symm, h⟩
  | select branch =>
    show completed (select l branch) = completed l ++ [] ∧
      ∀ i, (select l branch).current = some i → (select l branch).begun.head? = some i
    rw [List.append_nil]
    rcases select_cases l branch with hsame | ⟨hnone, i, hcurrent, hbegun⟩
    · rw [hsame]
      exact ⟨rfl, h⟩
    · refine ⟨?_, ?_⟩
      · unfold completed
        rw [hcurrent, hnone, hbegun]
        rfl
      · rw [hcurrent, hbegun]
        exact fun _ hi => hi
  | finish reads =>
    obtain ⟨hcurrent, hbegun, _⟩ := finish_frame toml rt reads l
    show completed (finish toml rt l reads) = completed l ++ l.current.toList ∧
      ∀ i, (finish toml rt l reads).current = some i → (finish toml rt l reads).begun.head? = some i
    refine ⟨?_, fun i hi => by rw [hcurrent] at hi; cases hi⟩
    unfold completed
    rw [hcurrent, hbegun]
    cases hc : l.current with
    | none => exact (List.append_nil _).symm
    | some i =>
      have hhead := h i hc
      cases hb : l.begun with
      | nil =>
        rw [hb] at hhead
        cases hhead
      | cons j rest =>
        rw [hb] at hhead
        cases hhead
        exact List.reverse_cons

theorem ofStep_loop (r r' : RunState κ) (hp : r.phase = .looping) (act : MainLoop.Act) :
    ofStep r r' (.loop act) = (ends r.loop act).flatMap ofIteration := by
  cases act with
  | send signal => rfl
  | command command uptimeSecs reads => rfl
  | select branch => rfl
  | finish reads =>
    unfold ofStep ends
    rw [hp]
    cases r.loop.current with
    | none => rfl
    | some i => exact (List.append_nil _).symm

theorem ofStep_elsewhere (r r' : RunState κ) (hp : r.phase ≠ .looping) (act : MainLoop.Act) :
    ofStep r r' (.loop act) = [] := by
  cases act with
  | send signal => rfl
  | command command uptimeSecs reads => rfl
  | select branch => rfl
  | finish reads =>
    show (match r.phase, r.loop.current with
      | .looping, some i => ofIteration i
      | _, _ => []) = []
    split
    · next hx _ => exact absurd hx hp
    · rfl

theorem spoken_append (done more : List Iteration) :
    spoken (done ++ more) .looping = spoken done .looping ++ more.flatMap ofIteration := by
  show _ ++ (done ++ more).flatMap ofIteration = _ ++ done.flatMap ofIteration ++ _
  rw [List.flatMap_append, List.append_assoc]

theorem Orderly.idle (h : Orderly r) (hp : r.phase ≠ .looping) : r.loop.current = none := by
  cases hc : r.loop.current with
  | none => rfl
  | some i => exact absurd (h.current i hc).1 hp

/- A step of the main loop, or a command at any time. -/
theorem orderly_loopStep (h : Orderly r) (act : MainLoop.Act) (hp : r.phase = .looping) :
    Orderly (loopStep rt toml r act) ∧
      spoken (completed (loopStep rt toml r act).loop) (loopStep rt toml r act).phase =
        spoken (completed r.loop) r.phase ++
          ofStep r (loopStep rt toml r act) (.loop act) := by
  obtain ⟨hdone, hcurrent⟩ := completed_step rt toml (fun i hi => (h.current i hi).2) act
  refine ⟨⟨?_, fun i hi => ⟨hp, hcurrent i hi⟩⟩, ?_⟩
  · rintro (hx | hx)
    · cases hp.symm.trans hx
    · cases hp.symm.trans hx
  · rw [ofStep_loop r _ hp]
    show spoken (completed (MainLoop.step toml rt r.loop act)) r.phase = _
    rw [hdone, hp, spoken_append]

theorem orderly_command (h : Orderly r) (command : ControlCommand) (uptimeSecs : ℕ)
    (reads : Reads) : Orderly (loopStep rt toml r (.command command uptimeSecs reads)) :=
  ⟨h.unbegun, h.current⟩

/- What a step does in its phase is said; in the others it does and says nothing. -/
theorem orderly_stays (h : Orderly r) {a : Exits.Act} (hs : Exits.step rt toml r a = r)
    (ho : ofStep r r a = []) : Orderly (Exits.step rt toml r a) ∧
      spoken (completed (Exits.step rt toml r a).loop) (Exits.step rt toml r a).phase =
        spoken (completed r.loop) r.phase ++ ofStep r (Exits.step rt toml r a) a := by
  rw [hs, ho]
  exact ⟨h, (List.append_nil _).symm⟩

theorem orderly_call (h : Orderly r) (hp : r.phase = .before) :
    Orderly (call r) ∧ spoken (completed (call r).loop) (call r).phase =
      spoken (completed r.loop) r.phase ++ ofStep r (call r) .call := by
  have hidle := h.idle (by rw [hp]; nofun)
  have hbegun := h.unbegun (.inl hp)
  refine ⟨⟨fun _ => hbegun, fun i hi => ?_⟩, ?_⟩
  · cases hidle.symm.trans hi
  · unfold ofStep
    rw [hp]
    rfl

theorem orderly_initial (h : Orderly r) (hp : r.phase = .starting)
    (links : List (Except RtError LinkMessage)) :
    Orderly (initial rt links r) ∧
      spoken (completed (initial rt links r).loop) (initial rt links r).phase =
        spoken (completed r.loop) r.phase ++ ofStep r (initial rt links r) (.initial links) := by
  have hbegun := h.unbegun (.inr hp)
  obtain ⟨hphase, hsame, hcurrent⟩ := initial_phase rt links r
  have hidle := hcurrent (h.idle (by rw [hp]; nofun))
  have hnone : completed (initial rt links r).loop = [] := by
    unfold completed
    rw [hidle, hsame, hbegun]
    rfl
  refine ⟨⟨fun _ => hsame.trans hbegun, fun i hi => ?_⟩, ?_⟩
  · cases hidle.symm.trans hi
  · rw [hnone]
    unfold ofStep
    rw [hp]
    rcases hphase with hloop | ⟨e, herr⟩
    · rw [hloop]
      rfl
    · rw [herr]
      rfl

theorem orderly_shutDown (hp : r.phase = .looping) (hc : r.loop.current = none) :
    Orderly (shutDown r) ∧ spoken (completed (shutDown r).loop) (shutDown r).phase =
      spoken (completed r.loop) r.phase ++ ofStep r (shutDown r) .shutDown := by
  refine ⟨⟨nofun, fun i hi => ?_⟩, ?_⟩
  · cases hc.symm.trans hi
  · unfold ofStep
    rw [hp]
    rfl

/- Outside the main loop only commands are answered. -/
theorem step_elsewhere (rt : Rtnetlink κ) (toml : Toml) (hp : r.phase ≠ .looping)
    (act : MainLoop.Act) : Exits.step rt toml r (.loop act) = r ∨
      ∃ command uptimeSecs reads, act = .command command uptimeSecs reads := by
  have hstep := step_stepped rt toml r (.loop act)
  generalize Exits.step rt toml r (.loop act) = r' at hstep ⊢
  cases hstep with
  | stays _ => exact .inl rfl
  | @command command uptimeSecs reads => exact .inr ⟨command, uptimeSecs, reads, rfl⟩
  | loop hx => exact absurd hx hp

/- A step keeps the order of the iterations, and says what the text lacks. -/
theorem orderly_step (rt : Rtnetlink κ) (toml : Toml) (h : Orderly r) (a : Exits.Act) :
    Orderly (Exits.step rt toml r a) ∧
      spoken (completed (Exits.step rt toml r a).loop) (Exits.step rt toml r a).phase =
        spoken (completed r.loop) r.phase ++ ofStep r (Exits.step rt toml r a) a := by
  cases a with
  | call =>
    cases hp : r.phase with
    | before =>
      have hs : Exits.step rt toml r .call = call r := by simp only [Exits.step, hp]
      rw [hs, ← hp]
      exact orderly_call h hp
    | starting | looping | returned result =>
      rw [← hp]
      exact orderly_stays h (by simp only [Exits.step, hp]) (by simp only [ofStep, hp])
  | initial links =>
    cases hp : r.phase with
    | starting =>
      have hs : Exits.step rt toml r (.initial links) = initial rt links r := by
        simp only [Exits.step, hp]
      rw [hs, ← hp]
      exact orderly_initial h hp links
    | before | looping | returned result =>
      rw [← hp]
      exact orderly_stays h (by simp only [Exits.step, hp]) (by simp only [ofStep, hp])
  | shutDown =>
    cases hp : r.phase with
    | looping =>
      rw [← hp]
      by_cases hbusy : (r.loop.looping || r.loop.current.isSome) = true
      · exact orderly_stays h (by simp only [Exits.step, hp, hbusy, if_true])
          (by simp only [ofStep, hp])
      · have hs : Exits.step rt toml r .shutDown = shutDown r := by
          simp only [Exits.step, hp, if_neg hbusy]
        have hc : r.loop.current = none := by
          rw [Bool.or_eq_true, not_or] at hbusy
          exact Option.not_isSome_iff_eq_none.mp hbusy.2
        rw [hs]
        exact orderly_shutDown hp hc
    | before | starting | returned result =>
      rw [← hp]
      exact orderly_stays h (by simp only [Exits.step, hp]) (by simp only [ofStep, hp])
  | loop act =>
    by_cases hp : r.phase = .looping
    · have hs : Exits.step rt toml r (.loop act) = loopStep rt toml r act := by
        cases act <;> simp only [Exits.step, hp]
      rw [hs]
      exact orderly_loopStep h act hp
    · rw [ofStep_elsewhere r _ hp, List.append_nil]
      rcases step_elsewhere rt toml hp act with hs | ⟨command, uptimeSecs, reads, rfl⟩
      · rw [hs]
        exact ⟨h, rfl⟩
      · exact ⟨orderly_command h command uptimeSecs reads, rfl⟩

/-! ### Runs -/

theorem notify_append (n : SystemdNotify) (states more : List NotifyState) :
    n.notify (states ++ more) = n.notify states ++ n.notify more := by
  unfold SystemdNotify.notify
  split_ifs
  · exact List.map_append
  · rfl

/- All that was to be said has been sent. -/
structure Said (n : SystemdNotify) (s : Supervised κ) : Prop where
  orderly : Orderly s.run
  sent : s.sent = n.notify (spoken (completed s.run.loop) s.run.phase)

theorem said_step (n : SystemdNotify) (rt : Rtnetlink κ) (toml : Toml) {s : Supervised κ}
    (h : Said n s) (a : Exits.Act) : Said n (step n rt toml s a) := by
  obtain ⟨horderly, hspoken⟩ := orderly_step rt toml h.orderly a
  unfold step
  split_ifs
  · refine ⟨horderly, ?_⟩
    show s.sent ++ _ = _
    rw [hspoken, notify_append, ← h.sent]
  · exact h

theorem said_supervised (n : SystemdNotify) (service : DaemonService κ) :
    Said n (supervised service) := by
  refine ⟨⟨fun _ => rfl, fun i hi => by cases hi⟩, ?_⟩
  show [] = n.notify []
  unfold SystemdNotify.notify
  split_ifs <;> rfl

end Notifications

end NicAutoswitch.Daemon
