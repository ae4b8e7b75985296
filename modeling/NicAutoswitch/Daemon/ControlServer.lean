import NicAutoswitch.Daemon.MainLoop
import NicAutoswitch.Lib.Sessions

/-!
# The accept loop of the control server (daemon/control.rs)

`start` accepts connections and spawns a task for each, which answers the lines of its peer
until the peer ends, an I/O error occurs or five seconds have passed. `select!` takes
whichever of its branches is ready. What a command finds in its environment is a parameter of
the control state. One call of `start` runs at a time: while one does, another start is no
step.
-/

namespace NicAutoswitch.Daemon
open Json Schema Sessions Transition

/- What `SO_PEERCRED` says of a peer. -/
structure Ucred where
  pid : ℤ
  uid : ℕ
  gid : ℕ
  deriving Repr, DecidableEq

namespace ControlServer

/- The same user or root; a peer whose credentials cannot be had is rejected. -/
def checkPeerCred (euid : ℕ) : Option Ucred → Bool
  | some ucred => ucred.uid == euid || ucred.uid == 0
  | none => false

/-- `shared` holds what the connection tasks do, `peers` the peers that they were spawned for.
The permit is that of the notify. -/
structure Listening (σ ε : Type) where
  shared : Shared σ String ε UInt8
  peers : List (Option Ucred) := []
  shutdown : Bool := false
  permit : Bool := false
  accepting : Bool := false

/- `start` is called, the loop takes a branch of its `select!`, `stop` is called, or a
connection goes on. -/
inductive Act (ε : Type) where
  | start (bound : Except NicAutoSwitchError Unit)
  | accept (result : Except String (Option Ucred))
  | notified
  | stop
  | connection (i : ℕ) (act : Sessions.Act String ε)

variable {σ ε : Type}

/- The check at the end of an iteration. -/
def checkShutdown (l : Listening σ ε) : Listening σ ε := { l with accepting := !l.shutdown }

def spawn (l : Listening σ ε) (peer : Option Ucred) : Listening σ ε :=
  { l with shared := l.shared.connect, peers := l.peers ++ [peer] }

def stop (l : Listening σ ε) : Listening σ ε := { l with shutdown := true, permit := true }

/- A rejected peer leads to the next iteration at once. -/
def accept (euid : ℕ) (l : Listening σ ε) : Except String (Option Ucred) → Listening σ ε
  | .ok peer => if checkPeerCred euid peer then checkShutdown (spawn l peer) else l
  | .error _ => checkShutdown l

variable (control : ε → ControlState σ) (format : LineFormat) (euid : ℕ)

/- The answer of `handle_connection` to a line, with its newline. -/
def answerLine (found : ε) (line : String) (s : σ) : List UInt8 × σ :=
  let (answer, s') := handleLine (control found) format line s
  ((answer ++ "\n").toUTF8.toList, s')

def step (l : Listening σ ε) : Act ε → Listening σ ε
  | .start bound =>
    match l.accepting, bound with
    | false, .ok () => { l with accepting := true }
    | _, _ => l
  | .accept result => if l.accepting then accept euid l result else l
  | .notified =>
    if l.accepting && l.permit then { l with accepting := false, permit := false } else l
  | .stop => stop l
  | .connection i act =>
    { l with shared := l.shared.act (answerLine control format) i act }

/- A server that has been created. -/
def created (s : σ) : Listening σ ε := { shared := { state := s } }

variable {control} {format} {euid} {l : Listening σ ε}

/-! ### What the connections do -/

/- What becomes of a connection that is accepted, by its peer. -/
theorem accept_cases (euid : ℕ) (l : Listening σ ε) (result : Except String (Option Ucred)) :
    (∃ peer, result = .ok peer ∧ checkPeerCred euid peer = true ∧
        accept euid l result = checkShutdown (spawn l peer)) ∨
      (∃ peer, result = .ok peer ∧ checkPeerCred euid peer = false ∧ accept euid l result = l) ∨
      ∃ e, result = .error e ∧ accept euid l result = checkShutdown l := by
  cases result with
  | error e => exact .inr (.inr ⟨e, rfl, rfl⟩)
  | ok peer =>
    unfold accept
    cases hp : checkPeerCred euid peer with
    | true => exact .inl ⟨peer, rfl, hp, if_pos hp⟩
    | false => exact .inr (.inl ⟨peer, rfl, hp, if_neg (Bool.eq_false_iff.mp hp)⟩)

/- What a step does to what is shared: nothing, a new connection of a verified peer, or a step
of a connection. -/
theorem step_shared (control : ε → ControlState σ) (format : LineFormat) (euid : ℕ) (l : Listening σ ε)
    (a : Act ε) :
    ((step control format euid l a).shared = l.shared ∧
        (step control format euid l a).peers = l.peers) ∨
      (∃ peer, checkPeerCred euid peer = true ∧
        (step control format euid l a).shared = l.shared.connect ∧
        (step control format euid l a).peers = l.peers ++ [peer]) ∨
      ∃ i act, (step control format euid l a).shared =
          l.shared.act (answerLine control format) i act ∧
        (step control format euid l a).peers = l.peers := by
  cases a with
  | start bound =>
    simp only [step]
    split
    · exact .inl ⟨rfl, rfl⟩
    · exact .inl ⟨rfl, rfl⟩
  | stop => exact .inl ⟨rfl, rfl⟩
  | connection i act => exact .inr (.inr ⟨i, act, rfl, rfl⟩)
  | notified =>
    simp only [step]
    split_ifs
    · exact .inl ⟨rfl, rfl⟩
    · exact .inl ⟨rfl, rfl⟩
  | accept result =>
    simp only [step]
    split_ifs
    · rcases accept_cases euid l result with ⟨peer, _, hp, h⟩ | ⟨_, _, _, h⟩ | ⟨_, _, h⟩
      · rw [h]
        exact .inr (.inl ⟨peer, hp, rfl, rfl⟩)
      · rw [h]
        exact .inl ⟨rfl, rfl⟩
      · rw [h]
        exact .inl ⟨rfl, rfl⟩
    · exact .inl ⟨rfl, rfl⟩

theorem sequential_step {s : σ} (h : Sequential (answerLine control format) s l.shared) (a : Act ε) :
    Sequential (answerLine control format) s (step control format euid l a).shared := by
  rcases step_shared control format euid l a with
    ⟨hs, _⟩ | ⟨_, _, hs, _⟩ | ⟨i, act, hs, _⟩
  · rw [hs]
    exact h
  · rw [hs]
    exact h.connect
  · rw [hs]
    exact h.act i act

theorem turns_step (l : Listening σ ε) (a : Act ε) :
    l.shared.turns <+: (step control format euid l a).shared.turns := by
  rcases step_shared control format euid l a with
    ⟨hs, _⟩ | ⟨_, _, hs, _⟩ | ⟨i, act, hs, _⟩
  · rw [hs]
  · rw [hs]
    exact List.prefix_rfl
  · rw [hs]
    exact turns_act l.shared i act

theorem turns_run (l : Listening σ ε) (acts : List (Act ε)) :
    l.shared.turns <+: (run (step control format euid) l acts).shared.turns :=
  run_preserves (step control format euid) (fun l' => l.shared.turns <+: l'.shared.turns)
    (fun l' a h => h.trans (turns_step l' a)) l acts List.prefix_rfl

theorem checkPeerCred_eq_true {peer : Option Ucred} (h : checkPeerCred euid peer = true) :
    ∃ ucred, peer = some ucred ∧ (ucred.uid = euid ∨ ucred.uid = 0) := by
  cases peer with
  | none => cases h
  | some ucred =>
    refine ⟨ucred, rfl, ?_⟩
    simpa [checkPeerCred] using h

/- Each connection has a peer that has been verified. -/
structure Verified (euid : ℕ) (l : Listening σ ε) : Prop where
  length : l.peers.length = l.shared.connections.length
  checked : ∀ peer ∈ l.peers, checkPeerCred euid peer = true

theorem verified_step (h : Verified euid l) (a : Act ε) :
    Verified euid (step control format euid l a) := by
  rcases step_shared control format euid l a with
    ⟨hs, hp⟩ | ⟨peer, hc, hs, hp⟩ | ⟨i, act, hs, hp⟩
  · refine ⟨?_, ?_⟩
    · rw [hs, hp]
      exact h.length
    · rw [hp]
      exact h.checked
  · refine ⟨?_, ?_⟩
    · rw [hs, hp, Shared.connect, List.length_append, List.length_append, h.length]
      rfl
    · rw [hp]
      intro p hmem
      rcases List.mem_append.mp hmem with hold | hnew
      · exact h.checked p hold
      · rw [List.mem_singleton.mp hnew]
        exact hc
  · refine ⟨?_, ?_⟩
    · rw [hs, hp, length_act]
      exact h.length
    · rw [hp]
      exact h.checked

/- Every line that is ever handled came from a peer that is the daemon's own user or root. -/
theorem handled_verified (control : ε → ControlState σ) (format : LineFormat) (euid : ℕ) (s : σ)
    (acts : List (Act ε)) (turn : Turn String ε)
    (h : turn ∈ (run (step control format euid) (created s) acts).shared.turns) :
    ∃ ucred : Ucred,
      (run (step control format euid) (created s) acts).peers[turn.connection]? = some (some ucred) ∧
        (ucred.uid = euid ∨ ucred.uid = 0) := by
  have hv := run_preserves (step control format euid) (Verified euid)
    (fun _ a h => verified_step h a) (created s) acts ⟨rfl, fun peer hp => by cases hp⟩
  have hs := run_preserves (step control format euid)
    (fun l => Sequential (answerLine control format) s l.shared)
    (fun _ a h => sequential_step h a) (created s) acts (.initial s)
  have hlt := hs.known turn h
  rw [← hv.length] at hlt
  have hmem := List.getElem_mem hlt
  obtain ⟨ucred, hu, hid⟩ := checkPeerCred_eq_true (hv.checked _ hmem)
  refine ⟨ucred, ?_, hid⟩
  rw [List.getElem?_eq_getElem hlt, hu]

/-! ### How the loop stops -/

/- A connection whose peer is rejected. -/
def Rejected (euid : ℕ) (result : Except String (Option Ucred)) : Prop :=
  ∃ peer, result = .ok peer ∧ checkPeerCred euid peer = false

/- A step after which a loop that has been told to stop goes on. -/
def GoesOn (euid : ℕ) : Act ε → Prop
  | .accept result => Rejected euid result
  | .notified => False
  | .start _ => True
  | .stop => True
  | .connection _ _ => True

def isStart : Act ε → Bool
  | .start _ => true
  | _ => false

/- The connections that a loop that has been told to stop may still take. -/
def due (l : Listening σ ε) : ℕ := if l.accepting then 1 else 0

theorem due_le (l : Listening σ ε) : due l ≤ 1 := by
  unfold due
  split_ifs
  · exact le_rfl
  · exact Nat.zero_le 1

theorem due_ended (h : l.accepting = false) : due l = 0 := by
  unfold due
  rw [h]
  rfl

theorem checkShutdown_ends (h : l.shutdown = true) : (checkShutdown l).accepting = false := by
  unfold checkShutdown
  rw [h]
  rfl

/- An accept ends a loop that has been told to stop, unless it rejects the peer. -/
theorem accept_stopping (euid : ℕ) (h : l.shutdown = true) (result : Except String (Option Ucred)) :
    (accept euid l result).shutdown = true ∧
      (Rejected euid result ∧ accept euid l result = l ∨
        ¬ Rejected euid result ∧ (accept euid l result).accepting = false ∧
          (accept euid l result).peers.length ≤ l.peers.length + 1) := by
  rcases accept_cases euid l result with ⟨peer, rfl, hp, ha⟩ | ⟨peer, rfl, hp, ha⟩ | ⟨e, rfl, ha⟩
  · have hspawn : (spawn l peer).shutdown = true := h
    rw [ha]
    refine ⟨h, .inr ⟨?_, checkShutdown_ends hspawn, ?_⟩⟩
    · rintro ⟨_, hpeer, hno⟩
      cases hpeer
      exact Bool.false_ne_true (hno.symm.trans hp)
    · exact (List.length_append.trans rfl).le
  · rw [ha]
    exact ⟨h, .inl ⟨⟨peer, rfl, hp⟩, rfl⟩⟩
  · rw [ha]
    refine ⟨h, .inr ⟨?_, checkShutdown_ends h, Nat.le_succ l.peers.length⟩⟩
    rintro ⟨_, hpeer, _⟩
    cases hpeer

/-- Told to stop, the loop has its permit until it takes it. -/
structure Stopping (l : Listening σ ε) : Prop where
  shutdown : l.shutdown = true
  permit : l.accepting = true → l.permit = true

theorem stopping_step (control : ε → ControlState σ) (format : LineFormat) (euid : ℕ) (h : Stopping l)
    (a : Act ε) (hno : isStart a = false) :
    Stopping (step control format euid l a) ∧
      ((step control format euid l a).accepting = true ↔
        l.accepting = true ∧ GoesOn euid a) := by
  cases a with
  | start bound => cases hno
  | stop => exact ⟨⟨rfl, fun _ => rfl⟩, (and_iff_left trivial).symm⟩
  | connection i act => exact ⟨⟨h.shutdown, h.permit⟩, (and_iff_left trivial).symm⟩
  | notified =>
    simp only [step]
    cases ha : l.accepting with
    | false => exact ⟨h, iff_of_false (fun ht => Bool.false_ne_true (ha.symm.trans ht)) fun ht => ht.2⟩
    | true =>
      rw [h.permit ha]
      exact ⟨⟨h.shutdown, fun ht => by cases ht⟩,
        iff_of_false (fun ht => by cases ht) fun ht => ht.2⟩
  | accept result =>
    simp only [step]
    cases ha : l.accepting with
    | false =>
      exact ⟨h, iff_of_false (fun ht => Bool.false_ne_true (ha.symm.trans ht))
        fun ht => Bool.false_ne_true ht.1⟩
    | true =>
      rw [if_pos rfl]
      obtain ⟨hs, ⟨hgo, hsame⟩ | ⟨hgo, hended, _⟩⟩ := accept_stopping euid h.shutdown result
      · rw [hsame]
        exact ⟨h, iff_of_true ha ⟨rfl, hgo⟩⟩
      · refine ⟨⟨hs, fun ht => ?_⟩, iff_of_false (fun ht => ?_) fun ht => hgo ht.2⟩
        · exact absurd (hended.symm.trans ht) Bool.false_ne_true
        · exact absurd (hended.symm.trans ht) Bool.false_ne_true

/- From whatever state, once it is told to stop a loop still runs exactly if it ran and if all
it has met since are peers that it rejects: the notification or any other connection that it
takes ends it. -/
theorem stopped_accepting_iff (control : ε → ControlState σ) (format : LineFormat) (euid : ℕ)
    (l : Listening σ ε) (later : List (Act ε)) (hno : ∀ a ∈ later, isStart a = false) :
    (run (step control format euid) (stop l) later).accepting = true ↔
      l.accepting = true ∧ ∀ a ∈ later, GoesOn euid a := by
  have hall : ∀ l : Listening σ ε, Stopping l →
      ((run (step control format euid) l later).accepting = true ↔
        l.accepting = true ∧ ∀ a ∈ later, GoesOn euid a) := by
    induction later with
    | nil => exact fun l _ => (and_iff_left fun a ha => by cases ha).symm
    | cons a later ih =>
      intro l h
      obtain ⟨hstep, hiff⟩ := stopping_step control format euid h a (hno a List.mem_cons_self)
      rw [run_cons, ih (fun b hb => hno b (List.mem_cons_of_mem a hb)) _ hstep, hiff,
        List.forall_mem_cons, and_assoc]
  exact hall (stop l) ⟨rfl, fun _ => rfl⟩

theorem served_step (control : ε → ControlState σ) (format : LineFormat) (euid : ℕ)
    (h : l.shutdown = true) (a : Act ε) :
    (step control format euid l a).shutdown = true ∧
      (step control format euid l a).peers.length + due (step control format euid l a) ≤
        l.peers.length + due l + (if isStart a then 1 else 0) := by
  cases a with
  | start bound =>
    simp only [step]
    split
    · exact ⟨h, Nat.add_le_add (Nat.le_add_right _ _) (due_le _)⟩
    · exact ⟨h, Nat.le_add_right _ _⟩
  | stop => exact ⟨rfl, le_rfl⟩
  | connection i act => exact ⟨h, le_rfl⟩
  | notified =>
    simp only [step]
    split
    · exact ⟨h, Nat.add_le_add_left (Nat.zero_le (due l)) l.peers.length⟩
    · exact ⟨h, le_rfl⟩
  | accept result =>
    simp only [step]
    split
    · next ha =>
      obtain ⟨hs, ⟨_, hsame⟩ | ⟨_, hended, hle⟩⟩ := accept_stopping euid h result
      · rw [hsame]
        exact ⟨h, le_rfl⟩
      · refine ⟨hs, ?_⟩
        rw [due_ended hended]
        have hdue : due l = 1 := if_pos ha
        rw [hdue]
        exact hle
    · exact ⟨h, le_rfl⟩

/- A server that has been told to stop takes at most the connection that its loop is waiting
for, and one more each time it is started again. -/
theorem stopped_served_le (control : ε → ControlState σ) (format : LineFormat) (euid : ℕ)
    (l : Listening σ ε) (later : List (Act ε)) :
    (run (step control format euid) (stop l) later).peers.length ≤
      l.peers.length + due l + (later.filter isStart).length := by
  have hall : ∀ l : Listening σ ε, l.shutdown = true →
      (run (step control format euid) l later).peers.length ≤
        l.peers.length + due l + (later.filter isStart).length := by
    induction later with
    | nil => exact fun l _ => Nat.le_add_right l.peers.length _
    | cons a later ih =>
      intro l h
      obtain ⟨hs, hle⟩ := served_step control format euid h a
      refine (ih _ hs).trans ((Nat.add_le_add_right hle _).trans ?_)
      rw [Nat.add_assoc, List.filter_cons]
      split_ifs
      · rw [List.length_cons, Nat.add_comm 1]
      · rw [Nat.zero_add]
  exact hall (stop l) rfl

/-! ### The daemon behind the server -/

/- What a command finds: the uptime, and the file that a reload reads. -/
structure Found where
  uptimeSecs : ℕ
  reads : Reads

def daemonControl {κ : Type} (toml : Toml) (found : Found) : ControlState (DaemonService κ) :=
  controlState toml found.uptimeSecs found.reads

/- A line as the main loop sees it: a command, or nothing. -/
def commandOf (format : LineFormat) (turn : Turn String Found) : Option MainLoop.Act :=
  match format.read ControlCommand.decode turn.request with
  | .ok command => some (.command command turn.found.uptimeSecs turn.found.reads)
  | .error _ => none

section Daemon

variable {κ : Type} (toml : Toml) (rt : Router.Rtnetlink κ)

theorem serve_daemon (format : LineFormat) (loop : MainLoop.LoopState κ)
    (turn : Turn String Found) :
    serve (answerLine (daemonControl toml) format) loop.service turn =
      (run (MainLoop.step toml rt) loop (commandOf format turn).toList).service := by
  unfold serve answerLine handleLine commandOf
  cases format.read ControlCommand.decode turn.request with
  | ok command => rfl
  | error e => rfl

theorem run_serve_daemon (format : LineFormat) (loop : MainLoop.LoopState κ)
    (turns : List (Turn String Found)) :
    run (serve (answerLine (daemonControl toml) format)) loop.service turns =
      (run (MainLoop.step toml rt) loop (turns.filterMap (commandOf format))).service := by
  induction turns generalizing loop with
  | nil => rfl
  | cons turn turns ih =>
    have happend : (turn :: turns).filterMap (commandOf format) =
        (commandOf format turn).toList ++ turns.filterMap (commandOf format) := by
      cases h : commandOf format turn with
      | none => exact List.filterMap_cons_none h
      | some act => exact List.filterMap_cons_some h
    rw [run_cons, serve_daemon toml rt, ih, happend, run_append]

end Daemon

/-! ### A server in a test -/

structure MockControlState where
  status : DaemonStatus := ⟨packageVersion, "Running", 0, 0⟩
  shutdown : Bool := false

def MockControlState.controlState : Unit → ControlState MockControlState := fun _ =>
  { getStatus := MockControlState.status
    getActiveRoutes := fun _ => ∅
    reloadConfig := fun s => (.ok (), s)
    isShutdownRequested := MockControlState.shutdown
    requestShutdown := fun s => { s with shutdown := true } }

/- A format that reads no line. -/
def unreadable : LineFormat :=
  ⟨fun _ => "", fun _ => .error "expected value at line 1 column 1", fun _ e => e⟩

/- Root sends a line. -/
theorem handled_verified_root : ∃ ucred : Ucred,
    (run (step MockControlState.controlState unreadable 1000) (created {})
      [.start (.ok ()), .accept (.ok (some ⟨7, 0, 0⟩)), .connection 0 (.send "status"),
        .connection 0 (.turn ())]).peers[0]? = some (some ucred) ∧
      (ucred.uid = 1000 ∨ ucred.uid = 0) :=
  handled_verified MockControlState.controlState unreadable 1000 {}
    [.start (.ok ()), .accept (.ok (some ⟨7, 0, 0⟩)), .connection 0 (.send "status"),
      .connection 0 (.turn ())] ⟨0, "status", ()⟩ (List.Mem.head [])

/- A loop that is told to stop and then rejects a peer. -/
theorem stopped_accepting_iff_rejected :
    (run (step MockControlState.controlState unreadable 1000)
        (stop { created ({} : MockControlState) with accepting := true })
        [.accept (.ok none)]).accepting = true ↔
      true = true ∧ ∀ a ∈ ([.accept (.ok none)] : List (Act Unit)), GoesOn 1000 a :=
  stopped_accepting_iff MockControlState.controlState unreadable 1000
    { created ({} : MockControlState) with accepting := true } [.accept (.ok none)]
    fun a ha => by rw [List.mem_singleton.mp ha]; rfl

/- A server that is started again after it has been stopped serves one connection. -/
example : (run (step MockControlState.controlState unreadable 1000) (created {})
    [.start (.ok ()), .stop, .notified, .start (.ok ()), .accept (.ok (some ⟨7, 1000, 1000⟩)),
      .accept (.ok (some ⟨8, 1000, 1000⟩))]).peers.length = 1 := by decide

end ControlServer

end NicAutoswitch.Daemon
