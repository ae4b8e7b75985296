import NicAutoswitch.Daemon.Signals

/-!
# The shutdown future (daemon/signals.rs)

A `ShutdownFuture` and a call of `wait_shutdown`, on receivers that were subscribed at the
same moment. `wait_shutdown` is polled whenever the future is, and possibly more often.
-/

namespace NicAutoswitch.Daemon
open Broadcast Transition

/-- `output` is what the future has resolved with; it is not polled again after that. -/
structure ShutdownFuture where
  receiver : Receiver Signal signalCapacity := {}
  output : Option (Except NicAutoSwitchError Signal) := none

def ShutdownFuture.poll (f : ShutdownFuture) (closed : Bool) : ShutdownFuture :=
  match f.output with
  | some _ => f
  | none =>
    match f.receiver.tryRecv closed with
    | some (.ok signal, receiver) => { receiver, output := some (.ok signal) }
    | none => f
    | some (.error .closed, receiver) => { receiver, output := some (.error channelClosed) }
    | some (.error (.lagged _), receiver) => { receiver, output := none }

namespace ShutdownFuture

structure Pair where
  closed : Bool := false
  future : ShutdownFuture := {}
  waiter : Loop (Option (Except NicAutoSwitchError Signal)) Signal signalCapacity :=
    { state := none }

/- A signal is sent, the last sender is dropped, `wait_shutdown` is polled, both are polled. -/
inductive Act where
  | send (signal : Signal)
  | close
  | pollWaiter
  | poll
  deriving Repr, DecidableEq

def Pair.pollWaiter (p : Pair) : Pair :=
  { p with waiter := Broadcast.poll waitShutdown p.closed p.waiter }

def step (p : Pair) : Act → Pair
  | .send signal =>
    if p.closed then p
    else
      { p with
        future := { p.future with receiver := p.future.receiver.send signal }
        waiter := { p.waiter with receiver := p.waiter.receiver.send signal } }
  | .close => { p with closed := true }
  | .pollWaiter => p.pollWaiter
  | .poll => { p.pollWaiter with future := p.future.poll p.closed }

/- With further polls, the future resolves with no other signal than the shutdown, and with
that one exactly if `wait_shutdown` returns it. -/
structure Agrees (p : Pair) : Prop where
  only : ∀ n signal, (run step p (List.replicate n .poll)).future.output = some (.ok signal) →
    signal = .shutdown
  both : (∃ n signal,
      (run step p (List.replicate n .poll)).future.output = some (.ok signal)) ↔
    ∃ n signal, (run step p (List.replicate n .poll)).waiter.state = some (.ok signal)

/- The condition: a poll that finds a signal, and has not missed one, finds the shutdown. -/
def FindsShutdown (p : Pair) (act : Act) : Prop :=
  act = .poll → p.future.output = none → p.future.receiver.missed = 0 →
    ∀ signal, p.future.receiver.kept.head? = some signal → signal = .shutdown

theorem waitShutdown_waits : WaitsFor waitShutdown (· = Signal.shutdown) where
  toStopsAt := waitShutdown_stops
  closed _ := rfl
  stays s result h := by
    match result, h with
    | .ok .reload, _ => rfl
    | .error (.lagged _), _ => rfl

/-! ### One step -/

/- Until the future resolves, `wait_shutdown` has read the same signals and maybe more. -/
structure Inv (p : Pair) : Prop where
  waiting : p.waiter.looping = true → p.waiter.state = none
  returned : p.waiter.looping = false →
    p.waiter.state = some (.ok .shutdown) ∨ p.waiter.state = some (.error channelClosed)
  behind : p.future.output = none → p.waiter.looping = true →
    ∃ read, p.future.receiver.kept = read ++ p.waiter.receiver.kept ∧ .shutdown ∉ read
  ahead : p.future.output = none → p.waiter.state = some (.ok .shutdown) →
    p.future.receiver.kept ≠ []
  ended : p.future.output = none → p.waiter.state = some (.error channelClosed) →
    p.closed = true ∧ .shutdown ∉ p.future.receiver.kept
  resolved : ∀ signal, p.future.output = some (.ok signal) →
    signal = .shutdown ∧ p.waiter.state = some (.ok .shutdown)
  failed : ∀ e, p.future.output = some (.error e) →
    p.waiter.state = some (.error channelClosed)

theorem Inv.initial : Inv {} where
  waiting _ := rfl
  returned := nofun
  behind _ _ := ⟨[], rfl, nofun⟩
  ahead _ := nofun
  ended _ := nofun
  resolved _ := nofun
  failed _ := nofun

variable {p : Pair}

theorem Inv.of_unresolved (ho : p.future.output = none)
    (waiting : p.waiter.looping = true → p.waiter.state = none)
    (returned : p.waiter.looping = false →
      p.waiter.state = some (.ok .shutdown) ∨ p.waiter.state = some (.error channelClosed))
    (behind : p.waiter.looping = true →
      ∃ read, p.future.receiver.kept = read ++ p.waiter.receiver.kept ∧ .shutdown ∉ read)
    (ahead : p.waiter.state = some (.ok .shutdown) → p.future.receiver.kept ≠ [])
    (ended : p.waiter.state = some (.error channelClosed) →
      p.closed = true ∧ .shutdown ∉ p.future.receiver.kept) : Inv p where
  waiting := waiting
  returned := returned
  behind _ := behind
  ahead _ := ahead
  ended _ := ended
  resolved _ hr := absurd (ho.symm.trans hr) nofun
  failed _ hr := absurd (ho.symm.trans hr) nofun

theorem Inv.of_resolved {result : Except NicAutoSwitchError Signal}
    (ho : p.future.output = some result)
    (waiting : p.waiter.looping = true → p.waiter.state = none)
    (returned : p.waiter.looping = false →
      p.waiter.state = some (.ok .shutdown) ∨ p.waiter.state = some (.error channelClosed))
    (resolved : ∀ signal, result = .ok signal →
      signal = .shutdown ∧ p.waiter.state = some (.ok .shutdown))
    (failed : ∀ e, result = .error e → p.waiter.state = some (.error channelClosed)) : Inv p where
  waiting := waiting
  returned := returned
  behind hr := absurd (ho.symm.trans hr) nofun
  ahead hr := absurd (ho.symm.trans hr) nofun
  ended hr := absurd (ho.symm.trans hr) nofun
  resolved signal hr := resolved signal (Option.some.inj (ho.symm.trans hr))
  failed e hr := failed e (Option.some.inj (ho.symm.trans hr))

theorem Inv.send (h : Inv p) (signal : Signal) : Inv (step p (.send signal)) := by
  unfold step
  cases hc : p.closed with
  | true => exact h
  | false =>
    refine ⟨h.waiting, h.returned, ?_, ?_, ?_, h.resolved, h.failed⟩
    · intro ho hl
      obtain ⟨read, hkept, hread⟩ := h.behind ho hl
      obtain ⟨read', hkept', hsuffix⟩ := Receiver.send_behind hkept signal
      exact ⟨read', hkept', fun hin => hread (hsuffix.subset hin)⟩
    · intro _ _
      exact List.ne_nil_of_mem (Receiver.mem_send (by decide) p.future.receiver signal)
    · intro ho he
      rw [(h.ended ho he).1] at hc
      cases hc

theorem Inv.unresolved (h : Inv p) (hl : p.waiter.looping = true) : p.future.output = none := by
  have hw := h.waiting hl
  cases ho : p.future.output with
  | none => rfl
  | some result =>
    cases result with
    | ok signal => exact absurd (hw.symm.trans (h.resolved signal ho).2) nofun
    | error e => exact absurd (hw.symm.trans (h.failed e ho)) nofun

theorem Inv.returned_ok (h : Inv p) {signal : Signal} (hs : p.waiter.state = some (.ok signal)) :
    p.waiter.looping = false ∧ signal = .shutdown := by
  cases hl : p.waiter.looping with
  | true => exact absurd ((h.waiting hl).symm.trans hs) nofun
  | false =>
    rcases h.returned hl with hok | herr
    · cases hok.symm.trans hs
      exact ⟨rfl, rfl⟩
    · exact absurd (herr.symm.trans hs) nofun

/- When `wait_shutdown` has been polled, it has returned or read everything. -/
theorem Inv.pollWaiter (h : Inv p) : Inv p.pollWaiter ∧
    (p.pollWaiter.waiter.looping = true →
      p.closed = false ∧ p.pollWaiter.waiter.receiver.kept = [] ∧
        p.pollWaiter.waiter.receiver.recv = none) := by
  unfold Pair.pollWaiter
  cases hl : p.waiter.looping with
  | false =>
    rw [poll_idle hl]
    exact ⟨h, fun hl' => by rw [hl] at hl'; cases hl'⟩
  | true =>
    have ho := h.unresolved hl
    obtain ⟨read, hkept, hread⟩ := h.behind ho hl
    have hclean (hno : ∀ x ∈ p.waiter.receiver.kept, ¬ x = .shutdown) :
        .shutdown ∉ read ++ p.waiter.receiver.kept := by
      intro hin
      rcases List.mem_append.mp hin with hr | hk
      · exact hread hr
      · exact hno _ hk rfl
    have hpolled := poll_polled waitShutdown_waits p.closed hl
    generalize Broadcast.poll waitShutdown p.closed p.waiter = w at hpolled ⊢
    rcases hpolled with ⟨x, hx, rfl, hl', hs'⟩ | ⟨hno, ⟨hc, hl', hs'⟩ | ⟨hc, hl', hs', hr', hk'⟩⟩
    · refine ⟨?_, fun h => absurd (hl'.symm.trans h) nofun⟩
      apply Inv.of_unresolved
      case ho => exact ho
      case waiting => exact fun hl => absurd (hl'.symm.trans hl) nofun
      case returned => exact fun _ => .inl hs'
      case behind => exact fun hl => absurd (hl'.symm.trans hl) nofun
      case ahead =>
        exact fun _ => hkept ▸ List.append_ne_nil_of_right_ne_nil read (List.ne_nil_of_mem hx)
      case ended => exact fun he => absurd (hs'.symm.trans he) nofun
    · refine ⟨?_, fun h => absurd (hl'.symm.trans h) nofun⟩
      apply Inv.of_unresolved
      case ho => exact ho
      case waiting => exact fun hl => absurd (hl'.symm.trans hl) nofun
      case returned => exact fun _ => .inr hs'
      case behind => exact fun hl => absurd (hl'.symm.trans hl) nofun
      case ahead => exact fun hs => absurd (hs'.symm.trans hs) nofun
      case ended => exact fun _ => ⟨hc, hkept ▸ hclean hno⟩
    · refine ⟨?_, fun _ => ⟨hc, hk', hr'⟩⟩
      have hnone := hs'.trans (h.waiting hl)
      apply Inv.of_unresolved
      case ho => exact ho
      case waiting => exact fun _ => hnone
      case returned => exact fun hl => absurd (hl'.symm.trans hl) nofun
      case behind => exact fun _ => ⟨_, by rw [hk', List.append_nil, hkept], hclean hno⟩
      case ahead => exact fun hs => absurd (hnone.symm.trans hs) nofun
      case ended => exact fun he => absurd (hnone.symm.trans he) nofun

/-! ### One poll of the future -/

theorem poll_resolved {f : ShutdownFuture} {result : Except NicAutoSwitchError Signal}
    (h : f.output = some result) (closed : Bool) : f.poll closed = f := by
  unfold ShutdownFuture.poll
  rw [h]

/- What a poll of a future does that has not resolved: it is told of a lag and keeps its
signals, it resolves with the oldest one, it fails, or it waits. -/
theorem poll_cases {f : ShutdownFuture} (h : f.output = none) (closed : Bool) :
    (f.receiver.missed ≠ 0 ∧ (f.poll closed).output = none ∧
        (f.poll closed).receiver.kept = f.receiver.kept ∧ (f.poll closed).receiver.missed = 0) ∨
      (∃ signal rest, f.receiver.missed = 0 ∧ f.receiver.kept = signal :: rest ∧
        (f.poll closed).output = some (.ok signal)) ∨
      (f.receiver.recv = none ∧ f.receiver.kept = [] ∧
        (closed = true ∧ (f.poll closed).output = some (.error channelClosed) ∨
          closed = false ∧ f.poll closed = f)) := by
  unfold ShutdownFuture.poll
  rw [h]
  by_cases hm : f.receiver.missed = 0
  · cases hk : f.receiver.kept with
    | nil =>
      have hnone := Receiver.recv_none.mpr ⟨hm, hk⟩
      rw [Receiver.tryRecv_of_drained hnone]
      refine .inr (.inr ⟨hnone, rfl, ?_⟩)
      cases closed with
      | true => exact .inl ⟨rfl, rfl⟩
      | false => exact .inr ⟨rfl, rfl⟩
    | cons signal rest =>
      obtain ⟨r, hr, _⟩ := Receiver.recv_next hm hk
      rw [Receiver.tryRecv_of_recv hr]
      exact .inr (.inl ⟨signal, rest, hm, rfl, rfl⟩)
  · obtain ⟨r, hr, hkept, hmissed⟩ := Receiver.recv_lagged hm
    rw [Receiver.tryRecv_of_recv hr]
    exact .inl ⟨hm, rfl, hkept, hmissed⟩

theorem Inv.poll (h : Inv p) (hf : FindsShutdown p .poll) : Inv (step p .poll) := by
  obtain ⟨hw, hread⟩ := h.pollWaiter
  have hf := hf rfl
  change Inv { p.pollWaiter with future := p.future.poll p.closed }
  cases ho : p.future.output with
  | some result =>
    rw [poll_resolved ho]
    exact hw
  | none =>
    have hahead := hw.ahead ho
    have hended := hw.ended ho
    have hbehind := hw.behind ho
    rcases poll_cases ho p.closed with ⟨_, ho', hk', _⟩ | ⟨signal, rest, hm, hk, ho'⟩ |
      ⟨_, hk, ⟨hc, ho'⟩ | ⟨hc, he⟩⟩
    · refine .of_unresolved ho' hw.waiting hw.returned ?_ ?_ ?_
      · intro hl
        rw [hk']
        exact hbehind hl
      · intro hs
        rw [hk']
        exact hahead hs
      · intro he
        rw [hk']
        exact hended he
    · obtain rfl := hf ho hm signal (by rw [hk]; rfl)
      have hin : .shutdown ∈ p.future.receiver.kept := hk ▸ List.mem_cons_self
      -- `wait_shutdown` had not read past the shutdown without returning it
      have hstate : p.pollWaiter.waiter.state = some (.ok .shutdown) := by
        cases hl : p.pollWaiter.waiter.looping with
        | true =>
          obtain ⟨read, hkept, hno⟩ := hbehind hl
          rw [(hread hl).2.1, List.append_nil] at hkept
          exact absurd (hkept ▸ hin) hno
        | false =>
          rcases hw.returned hl with hs | he
          · exact hs
          · exact absurd hin (hended he).2
      refine .of_resolved ho' hw.waiting hw.returned ?_ nofun
      rintro signal ⟨⟩
      exact ⟨rfl, hstate⟩
    · have hstate : p.pollWaiter.waiter.state = some (.error channelClosed) := by
        cases hl : p.pollWaiter.waiter.looping with
        | true => exact absurd (hc.symm.trans (hread hl).1) nofun
        | false =>
          rcases hw.returned hl with hs | he
          · exact absurd hk (hahead hs)
          · exact he
      exact .of_resolved ho' hw.waiting hw.returned nofun fun e _ => hstate
    · rw [he]
      exact hw

theorem Inv.step (h : Inv p) {act : Act} (hf : FindsShutdown p act) : Inv (step p act) := by
  cases act with
  | send signal => exact h.send signal
  | close =>
    exact ⟨h.waiting, h.returned, h.behind, h.ahead, fun ho he => ⟨rfl, (h.ended ho he).2⟩,
      h.resolved, h.failed⟩
  | pollWaiter => exact h.pollWaiter.1
  | poll => exact h.poll hf

/-! ### Runs -/

theorem output_step {result : Except NicAutoSwitchError Signal}
    (h : p.future.output = some result) (act : Act) :
    (ShutdownFuture.step p act).future.output = some result := by
  cases act with
  | send signal =>
    unfold ShutdownFuture.step
    cases p.closed <;> exact h
  | close | pollWaiter => exact h
  | poll =>
    change (p.future.poll p.closed).output = some result
    rw [poll_resolved h]
    exact h

theorem output_run {result : Except NicAutoSwitchError Signal}
    (h : p.future.output = some result) (acts : List Act) :
    (run ShutdownFuture.step p acts).future.output = some result :=
  run_preserves ShutdownFuture.step (fun p => p.future.output = some result)
    (fun _ act hp => output_step hp act) p acts h

theorem reload_of_not_findsShutdown {act : Act} (h : ¬ FindsShutdown p act) :
    (ShutdownFuture.step p act).future.output = some (.ok .reload) := by
  unfold FindsShutdown at h
  push Not at h
  obtain ⟨rfl, ho, hm, signal, hhead, hne⟩ := h
  obtain rfl : signal = .reload := by
    cases signal with
    | shutdown => exact absurd rfl hne
    | reload => rfl
  change (p.future.poll p.closed).output = some (.ok .reload)
  rcases poll_cases ho p.closed with ⟨hlag, _⟩ | ⟨signal, rest, _, hk, ho'⟩ | ⟨_, hk, _⟩
  · exact absurd hm hlag
  · rw [hk] at hhead
    obtain rfl := Option.some.inj hhead
    exact ho'
  · rw [hk] at hhead
    cases hhead

/- The first step that fails the condition resolves the future with a reload. -/
theorem along_or_reload (p : Pair) (acts : List Act) :
    Along ShutdownFuture.step FindsShutdown p acts ∨
      (run ShutdownFuture.step p acts).future.output = some (.ok .reload) := by
  induction acts generalizing p with
  | nil => exact .inl trivial
  | cons act acts ih =>
    by_cases hf : FindsShutdown p act
    · exact (ih (ShutdownFuture.step p act)).imp_left fun hrest => ⟨hf, hrest⟩
    · exact .inr (output_run (reload_of_not_findsShutdown hf) acts)

/- After a poll the future has resolved or has been told of every lag. -/
theorem missed_poll (f : ShutdownFuture) (closed : Bool) (h : (f.poll closed).output = none) :
    (f.poll closed).receiver.missed = 0 := by
  cases ho : f.output with
  | some result =>
    rw [poll_resolved ho, ho] at h
    cases h
  | none =>
    rcases poll_cases ho closed with ⟨_, _, _, hm⟩ | ⟨_, _, _, _, ho'⟩ | ⟨hr, _, ⟨_, ho'⟩ | ⟨_, he⟩⟩
    · exact hm
    · exact absurd (h.symm.trans ho') nofun
    · exact absurd (h.symm.trans ho') nofun
    · rw [he]
      exact (Receiver.recv_none.mp hr).1

/- After another one it has resolved or waits for a signal. -/
theorem kept_poll_poll (f : ShutdownFuture) (closed : Bool)
    (h : ((f.poll closed).poll closed).output = none) :
    ((f.poll closed).poll closed).receiver.kept = [] := by
  cases ho : (f.poll closed).output with
  | some result =>
    rw [poll_resolved ho, ho] at h
    cases h
  | none =>
    have hm := missed_poll f closed ho
    rcases poll_cases ho closed with ⟨hlag, _⟩ | ⟨_, _, _, _, ho'⟩ | ⟨_, hk, ⟨_, ho'⟩ | ⟨_, he⟩⟩
    · exact absurd hm hlag
    · exact absurd (h.symm.trans ho') nofun
    · exact absurd (h.symm.trans ho') nofun
    · rw [he]
      exact hk

section Further
variable {e : Pair} (hi : Inv e) (hc : Along ShutdownFuture.step FindsShutdown e [.poll, .poll])

theorem polls_succ (e : Pair) (n : ℕ) : run ShutdownFuture.step e (List.replicate (n + 1) .poll) =
    ShutdownFuture.step (run ShutdownFuture.step e (List.replicate n .poll)) .poll := by
  rw [List.replicate_succ', run_append]
  rfl

theorem kept_polls (e : Pair) (n : ℕ)
    (h : (run ShutdownFuture.step e (List.replicate (n + 2) .poll)).future.output = none) :
    (run ShutdownFuture.step e (List.replicate (n + 2) .poll)).future.receiver.kept = [] := by
  rw [polls_succ, polls_succ] at h ⊢
  exact kept_poll_poll _ _ h

include hi hc

theorem inv_polls (n : ℕ) : Inv (run ShutdownFuture.step e (List.replicate n .poll)) := by
  induction n with
  | zero => exact hi
  | succ n ih =>
    have hf : FindsShutdown (run ShutdownFuture.step e (List.replicate n .poll)) .poll := by
      match n with
      | 0 => exact hc.1
      | 1 => exact hc.2.1
      | n + 2 =>
        intro _ ho _ signal hhead
        rw [kept_polls e n ho] at hhead
        cases hhead
    rw [polls_succ]
    exact ih.poll hf

/- What `wait_shutdown` has returned it keeps. -/
theorem returned_polls {n : ℕ} {signal : Signal}
    (h : (run ShutdownFuture.step e (List.replicate n .poll)).waiter.state = some (.ok signal)) :
    (run ShutdownFuture.step e (List.replicate (n + 1) .poll)).waiter.state = some (.ok signal) := by
  have hinv := inv_polls hi hc n
  rw [polls_succ]
  generalize run ShutdownFuture.step e (List.replicate n .poll) = p at h hinv ⊢
  change (Broadcast.poll waitShutdown p.closed p.waiter).state = some (.ok signal)
  rw [poll_idle (hinv.returned_ok h).1]
  exact h

theorem agrees_of_along : Agrees e := by
  constructor
  · intro n signal ho
    exact ((inv_polls hi hc n).resolved signal ho).1
  · apply Iff.intro
    · rintro ⟨n, signal, ho⟩
      exact ⟨n, .shutdown, ((inv_polls hi hc n).resolved signal ho).2⟩
    · rintro ⟨n, signal, hs⟩
      have hs2 := returned_polls hi hc (returned_polls hi hc hs)
      have hinv := inv_polls hi hc (n + 2)
      have hkept := kept_polls e n
      refine ⟨n + 2, ?_⟩
      generalize run ShutdownFuture.step e (List.replicate (n + 2) .poll) = p at hs2 hinv hkept ⊢
      cases ho : p.future.output with
      | none =>
        obtain rfl := (hinv.returned_ok hs2).2
        exact absurd (hkept ho) (hinv.ahead ho hs2)
      | some result =>
        cases result with
        | ok signal' => exact ⟨signal', rfl⟩
        | error e => exact absurd (hs2.symm.trans (hinv.failed e ho)) nofun

end Further

/- The future agrees with `wait_shutdown` exactly if the first signal that it finds, in the run
or with further polls, is the shutdown. -/
theorem shutdownFuture_agrees_iff (acts : List Act) :
    Agrees (run ShutdownFuture.step {} acts) ↔
      Along ShutdownFuture.step FindsShutdown {} (acts ++ [.poll, .poll]) := by
  apply Iff.intro
  · intro h
    refine (along_or_reload {} (acts ++ [.poll, .poll])).resolve_right fun ho => ?_
    rw [run_append] at ho
    exact absurd (h.only 2 .reload ho) nofun
  · intro h
    obtain ⟨hacts, hpolls⟩ := (along_append _ _ _ _ _).mp h
    have hinv := throughout_of_along ShutdownFuture.step Inv FindsShutdown
      (fun _ _ hi hf => hi.step hf) {} acts .initial hacts acts (List.prefix_refl acts)
    exact agrees_of_along hinv hpolls

/- A reload resolves the future; `wait_shutdown` ignores it. -/
theorem reload_resolves : ¬ Agrees (run ShutdownFuture.step {} [.send .reload, .poll]) := by
  intro h
  exact absurd (h.only 0 .reload rfl) nofun

end ShutdownFuture

end NicAutoswitch.Daemon
