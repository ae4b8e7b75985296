import NicAutoswitch.Lib.Run

/-!
# A bounded broadcast channel, seen by one receiver

A ring keeps the last `capacity` messages. A message sent while the receiver has not read
any of the kept ones overwrites the oldest of them; the receiver is told of the messages
that it has missed when it next receives, and goes on with the oldest one kept.

A loop receives until it meets a message that stops it. It may wait for ever although it
was told to stop exactly if such a message is overwritten with no other one behind it.
-/

namespace Broadcast
open Transition

inductive RecvError where
  | closed
  | lagged (missed : ℕ)
  deriving Repr, DecidableEq

/-- The kept messages that the receiver has not read, oldest first. -/
structure Receiver (α : Type) (capacity : ℕ) where
  kept : List α := []
  missed : ℕ := 0
  bounded : kept.length ≤ capacity := by exact Nat.zero_le _

variable {α σ : Type} {capacity : ℕ}

namespace Receiver

theorem length_concat_le {l : List α} (h : l.length < capacity) (x : α) :
    (l ++ [x]).length ≤ capacity := by
  rw [List.length_append]
  exact h

theorem length_tail_concat_le {l : List α} (h : l.length ≤ capacity) (x : α) :
    (l ++ [x]).tail.length ≤ capacity := by
  rw [List.length_tail, List.length_append]
  exact h

def send (r : Receiver α capacity) (x : α) : Receiver α capacity :=
  if h : r.kept.length < capacity then
    { kept := r.kept ++ [x], missed := r.missed, bounded := length_concat_le h x }
  else
    { kept := (r.kept ++ [x]).tail
      missed := r.missed + 1
      bounded := length_tail_concat_le r.bounded x }

/-- What the next receive returns; none if it has to wait. -/
def recv (r : Receiver α capacity) : Option (Except RecvError α × Receiver α capacity) :=
  if r.missed ≠ 0 then
    some (.error (.lagged r.missed), { kept := r.kept, bounded := r.bounded })
  else
    match h : r.kept with
    | [] => none
    | x :: rest =>
      some (.ok x, { kept := rest, bounded := by have hb := r.bounded; simp [h] at hb; omega })

theorem send_room {r : Receiver α capacity} (h : r.kept.length < capacity) (x : α) :
    (r.send x).kept = r.kept ++ [x] := by
  unfold send
  rw [dif_pos h]

theorem send_full {r : Receiver α capacity} (h : ¬ r.kept.length < capacity) (x : α) :
    (r.send x).kept = (r.kept ++ [x]).tail := by
  unfold send
  rw [dif_neg h]

theorem mem_send (hcap : 0 < capacity) (r : Receiver α capacity) (x : α) :
    x ∈ (r.send x).kept := by
  by_cases hroom : r.kept.length < capacity
  · rw [send_room hroom]
    exact List.mem_append_right _ List.mem_cons_self
  · rw [send_full hroom]
    cases hkept : r.kept with
    | nil =>
      rw [hkept] at hroom
      exact absurd hcap hroom
    | cons y rest => exact List.mem_append_right rest List.mem_cons_self

/-- A receiver that has read more than another one keeps less, also after a send. -/
theorem send_behind {r r' : Receiver α capacity} {read : List α} (h : r.kept = read ++ r'.kept)
    (x : α) : ∃ read', (r.send x).kept = read' ++ (r'.send x).kept ∧ read' <:+ read := by
  have hlength := congrArg List.length h
  rw [List.length_append] at hlength
  by_cases hroom : r.kept.length < capacity
  · have hroom' : r'.kept.length < capacity := by omega
    refine ⟨read, ?_, List.suffix_refl read⟩
    rw [send_room hroom, send_room hroom', h, List.append_assoc]
  · cases read with
    | nil =>
      have hkept : r.kept = r'.kept := h
      refine ⟨[], ?_, List.suffix_refl []⟩
      rw [send_full hroom, send_full (hkept ▸ hroom), hkept]
      rfl
    | cons y read =>
      have hb := r.bounded
      have hroom' : r'.kept.length < capacity := by simp at hlength; omega
      refine ⟨read, ?_, List.suffix_cons y read⟩
      rw [send_full hroom, send_room hroom', h, ← List.append_assoc]
      rfl

theorem recv_lagged {r : Receiver α capacity} (h : r.missed ≠ 0) :
    ∃ r', r.recv = some (.error (.lagged r.missed), r') ∧ r'.kept = r.kept ∧ r'.missed = 0 := by
  unfold recv
  rw [if_pos h]
  exact ⟨_, rfl, rfl, rfl⟩

theorem recv_next {r : Receiver α capacity} (h : r.missed = 0) {x : α} {rest : List α}
    (hk : r.kept = x :: rest) :
    ∃ r', r.recv = some (.ok x, r') ∧ r'.kept = rest ∧ r'.missed = 0 := by
  unfold recv
  rw [if_neg (not_not.mpr h)]
  split
  · next hn =>
    rw [hk] at hn
    cases hn
  · next y ys hn =>
    rw [hk] at hn
    cases hn
    exact ⟨_, rfl, rfl, rfl⟩

theorem recv_none {r : Receiver α capacity} : r.recv = none ↔ r.missed = 0 ∧ r.kept = [] := by
  apply Iff.intro
  · intro h
    by_cases hm : r.missed = 0
    · cases hk : r.kept with
      | nil => exact ⟨hm, rfl⟩
      | cons x rest =>
        obtain ⟨r', hr, _⟩ := recv_next hm hk
        rw [h] at hr
        cases hr
    · obtain ⟨r', hr, _⟩ := recv_lagged hm
      rw [h] at hr
      cases hr
  · rintro ⟨hm, hk⟩
    unfold recv
    rw [if_neg (not_not.mpr hm)]
    split
    · rfl
    · next x rest hn =>
      rw [hk] at hn
      cases hn

end Receiver

/-! ### Receiving without waiting -/

namespace Receiver

/-- What a receive returns that does not wait; none if there is nothing to receive yet. -/
def tryRecv (r : Receiver α capacity) (closed : Bool) :
    Option (Except RecvError α × Receiver α capacity) :=
  match r.recv with
  | some received => some received
  | none => if closed then some (.error .closed, r) else none

theorem tryRecv_of_recv {r r' : Receiver α capacity} {result : Except RecvError α}
    (h : r.recv = some (result, r')) (closed : Bool) : r.tryRecv closed = some (result, r') := by
  unfold tryRecv
  rw [h]

theorem tryRecv_of_drained {r : Receiver α capacity} (h : r.recv = none) (closed : Bool) :
    r.tryRecv closed = if closed then some (.error .closed, r) else none := by
  unfold tryRecv
  rw [h]

end Receiver

/-! ### A loop that receives -/

/-- The loop handles what it receives on its state `σ`, and says whether it goes on. -/
abbrev Handler (σ α : Type) := σ → Except RecvError α → σ × Bool

/-- `sent` is an auxiliary variable: the messages sent so far, newest first. -/
structure Loop (σ α : Type) (capacity : ℕ) where
  receiver : Receiver α capacity := {}
  state : σ
  looping : Bool := true
  sent : List α := []

/-- A sender sends a message, or the loop receives if it is still looping. -/
inductive Act (α : Type) where
  | send (x : α)
  | recv
  deriving Repr, DecidableEq

def step (handle : Handler σ α) (l : Loop σ α capacity) : Act α → Loop σ α capacity
  | .send x => { l with receiver := l.receiver.send x, sent := x :: l.sent }
  | .recv =>
    if l.looping then
      match l.receiver.recv with
      | none => l
      | some (result, receiver) =>
        { l with
          receiver := receiver
          state := (handle l.state result).1
          looping := (handle l.state result).2 }
    else l

/-- The loop goes on after a lag, and after a message exactly if it is not a stop. -/
structure StopsAt (handle : Handler σ α) (stop : α → Prop) : Prop where
  lagged : ∀ s n, (handle s (.error (.lagged n))).2 = true
  message : ∀ s x, (handle s (.ok x)).2 = true ↔ ¬ stop x

variable (stop : α → Prop)

/-- A stop has been sent, there is nothing left to receive, and the loop still waits. -/
structure Lost (l : Loop σ α capacity) : Prop where
  sent : ∃ x ∈ l.sent, stop x
  drained : l.receiver.recv = none
  looping : l.looping = true

/-- No stop is lost here, nor once the loop goes on receiving. -/
def NeverLost (handle : Handler σ α) (l : Loop σ α capacity) : Prop :=
  ∀ n, ¬ Lost stop (run (step handle) l (List.replicate n .recv))

/-- While the loop runs and a stop has been sent, a stop is among the kept messages. -/
def Pending (l : Loop σ α capacity) : Prop :=
  l.looping = true → (∃ x ∈ l.sent, stop x) → ∃ x ∈ l.receiver.kept, stop x

/-- The condition: a message that overwrites a stop finds another one behind it, or is one. -/
def KeepsStop (l : Loop σ α capacity) : Act α → Prop
  | .send x => l.looping = true → capacity ≤ l.receiver.kept.length →
      (∃ y ∈ l.receiver.kept, stop y) → ∃ y ∈ (l.receiver.kept ++ [x]).tail, stop y
  | .recv => True

variable {stop} {handle : Handler σ α}

/-! ### One receive -/

theorem step_recv_idle {l : Loop σ α capacity} (h : l.looping ≠ true) :
    step handle l .recv = l := by
  unfold step
  simp [h]

theorem step_recv_none {l : Loop σ α capacity} (hl : l.looping = true)
    (h : l.receiver.recv = none) : step handle l .recv = l := by
  unfold step
  simp [hl, h]

theorem step_recv_some {l : Loop σ α capacity} (hl : l.looping = true)
    {result : Except RecvError α} {r : Receiver α capacity}
    (h : l.receiver.recv = some (result, r)) : step handle l .recv =
      { l with
        receiver := r
        state := (handle l.state result).1
        looping := (handle l.state result).2 } := by
  unfold step
  simp [hl, h]

/-- What a receive of a running loop does: it waits, it is told of a lag and goes on with
the same messages, or it takes the oldest message and goes on if that is not a stop. -/
theorem recv_cases (hs : StopsAt handle stop) {l : Loop σ α capacity} (hl : l.looping = true) :
    let l' := step handle l .recv
    l'.sent = l.sent ∧
      (l.receiver.recv = none ∧ l' = l ∨
        l.receiver.missed ≠ 0 ∧ l'.looping = true ∧ l'.receiver.kept = l.receiver.kept ∧
          l'.receiver.missed = 0 ∨
        ∃ x rest, l.receiver.missed = 0 ∧ l.receiver.kept = x :: rest ∧
          (l'.looping = true ↔ ¬ stop x) ∧ l'.receiver.kept = rest ∧ l'.receiver.missed = 0) := by
  by_cases hm : l.receiver.missed = 0
  · cases hk : l.receiver.kept with
    | nil =>
      have hnone := Receiver.recv_none.mpr ⟨hm, hk⟩
      rw [step_recv_none hl hnone]
      exact ⟨rfl, Or.inl ⟨hnone, rfl⟩⟩
    | cons x rest =>
      obtain ⟨r, hr, hkept, hmissed⟩ := Receiver.recv_next hm hk
      rw [step_recv_some hl hr]
      exact ⟨rfl, Or.inr (Or.inr ⟨x, rest, hm, rfl, hs.message l.state x, hkept, hmissed⟩)⟩
  · obtain ⟨r, hr, hkept, hmissed⟩ := Receiver.recv_lagged hm
    rw [step_recv_some hl hr]
    exact ⟨rfl, Or.inr (Or.inl ⟨hm, hs.lagged l.state _, hkept, hmissed⟩)⟩

/-! ### What the steps keep -/

/-- Every kept message has been sent. -/
def Known (l : Loop σ α capacity) : Prop := ∀ y ∈ l.receiver.kept, y ∈ l.sent

theorem known_step (hs : StopsAt handle stop) {l : Loop σ α capacity} (h : Known l) (a : Act α) :
    Known (step handle l a) := by
  cases a with
  | send x =>
    have hall : ∀ y ∈ l.receiver.kept ++ [x], y ∈ x :: l.sent := by
      intro y hy
      rcases List.mem_append.mp hy with hold | hnew
      · exact List.mem_cons_of_mem x (h y hold)
      · exact List.mem_cons.mpr (Or.inl (List.mem_singleton.mp hnew))
    intro y hy
    by_cases hroom : l.receiver.kept.length < capacity
    · exact hall y (Receiver.send_room hroom x ▸ hy)
    · exact hall y (List.mem_of_mem_tail (Receiver.send_full hroom x ▸ hy))
  | recv =>
    by_cases hl : l.looping = true
    · obtain ⟨hsent, hnone | hlag | hnext⟩ := recv_cases hs hl
      · rw [hnone.2]
        exact h
      · intro y hy
        rw [hsent]
        exact h y (hlag.2.2.1 ▸ hy)
      · obtain ⟨x, rest, _, hk, _, hkept, _⟩ := hnext
        intro y hy
        rw [hsent]
        exact h y (hk ▸ List.mem_cons_of_mem x (hkept ▸ hy))
    · rw [step_recv_idle hl]
      exact h

theorem pending_recv (hs : StopsAt handle stop) {l : Loop σ α capacity} (h : Pending stop l) :
    Pending stop (step handle l .recv) := by
  by_cases hl : l.looping = true
  · obtain ⟨hsent, hnone | hlag | hnext⟩ := recv_cases hs hl
    · rw [hnone.2]
      exact h
    · intro _ hx
      rw [hlag.2.2.1]
      exact h hl (hsent ▸ hx)
    · obtain ⟨x, rest, _, hk, hgo, hkept, _⟩ := hnext
      intro hl' hx
      obtain ⟨y, hy, hstop⟩ := h hl (hsent ▸ hx)
      rw [hk] at hy
      rw [hkept]
      rcases List.mem_cons.mp hy with rfl | hrest
      · exact absurd hstop (hgo.mp hl')
      · exact ⟨y, hrest, hstop⟩
  · rw [step_recv_idle hl]
    exact h

/-- One step keeps a stop among the kept messages exactly if it meets the condition. -/
theorem pending_step (hcap : 0 < capacity) (hs : StopsAt handle stop) {l : Loop σ α capacity}
    (hk : Known l) (h : Pending stop l) (a : Act α) :
    Pending stop (step handle l a) ↔ KeepsStop stop l a := by
  cases a with
  | recv => exact iff_of_true (pending_recv hs h) trivial
  | send x =>
    by_cases hroom : l.receiver.kept.length < capacity
    · refine iff_of_true ?_ fun _ hfull => absurd hroom (not_lt.mpr hfull)
      intro hl hx
      show ∃ y ∈ (l.receiver.send x).kept, stop y
      rw [Receiver.send_room hroom]
      obtain ⟨y, hy, hstop⟩ := hx
      rcases List.mem_cons.mp hy with rfl | hold
      · exact ⟨y, List.mem_append_right _ List.mem_cons_self, hstop⟩
      · obtain ⟨z, hz, hzs⟩ := h hl ⟨y, hold, hstop⟩
        exact ⟨z, List.mem_append_left _ hz, hzs⟩
    · apply Iff.intro
      · intro hp hl _ hy
        obtain ⟨y, hyk, hstop⟩ := hy
        have hp' := hp hl ⟨y, List.mem_cons_of_mem x (hk y hyk), hstop⟩
        exact Receiver.send_full hroom x ▸ hp'
      · intro hc hl hx
        show ∃ y ∈ (l.receiver.send x).kept, stop y
        rw [Receiver.send_full hroom]
        by_cases hold : ∃ y ∈ l.receiver.kept, stop y
        · exact hc hl (not_lt.mp hroom) hold
        · -- no stop is kept, so that the one sent is `x`
          obtain ⟨y, hy, hstop⟩ := hx
          rcases List.mem_cons.mp hy with rfl | hin
          · exact ⟨y, Receiver.send_full hroom y ▸ Receiver.mem_send hcap l.receiver y, hstop⟩
          · exact absurd (h hl ⟨y, hin, hstop⟩) hold

/-! ### Draining the channel -/

theorem lost_of_none {l : Loop σ α capacity} (hs : StopsAt handle stop) (hl : l.looping = true)
    (hsent : ∃ x ∈ l.sent, stop x) (hno : ∀ y ∈ l.receiver.kept, ¬ stop y) :
    ∃ n, Lost stop (run (step handle) l (List.replicate n .recv)) := by
  have hcaught : ∀ (kept : List α) (l : Loop σ α capacity), l.receiver.kept = kept →
      l.receiver.missed = 0 → l.looping = true → (∃ x ∈ l.sent, stop x) →
      (∀ y ∈ kept, ¬ stop y) →
        ∃ n, Lost stop (run (step handle) l (List.replicate n .recv)) := by
    intro kept
    induction kept with
    | nil =>
      intro l hk hm hl hx _
      exact ⟨0, hx, Receiver.recv_none.mpr ⟨hm, hk⟩, hl⟩
    | cons y rest ih =>
      intro l hk hm hl hx hno
      obtain ⟨hsent, hnone | hlag | hnext⟩ := recv_cases hs hl
      · rw [(Receiver.recv_none.mp hnone.1).2] at hk
        cases hk
      · exact absurd hm hlag.1
      · obtain ⟨x, tail, _, hk', hgo, hkept, hmissed⟩ := hnext
        rw [hk] at hk'
        cases hk'
        obtain ⟨n, hn⟩ := ih (step handle l .recv) hkept hmissed
          (hgo.mpr (hno y List.mem_cons_self)) (hsent.symm ▸ hx)
          fun z hz => hno z (List.mem_cons_of_mem y hz)
        exact ⟨n + 1, hn⟩
  by_cases hm : l.receiver.missed = 0
  · exact hcaught _ l rfl hm hl hsent hno
  · obtain ⟨hsent', hnone | hlag | hnext⟩ := recv_cases hs hl
    · exact absurd (Receiver.recv_none.mp hnone.1).1 hm
    · obtain ⟨_, hl', hkept, hmissed⟩ := hlag
      obtain ⟨n, hn⟩ := hcaught _ (step handle l .recv) rfl hmissed hl' (hsent'.symm ▸ hsent)
        (hkept.symm ▸ hno)
      exact ⟨n + 1, hn⟩
    · obtain ⟨x, rest, hzero, _⟩ := hnext
      exact absurd hzero hm

theorem neverLost_iff (hs : StopsAt handle stop) {l : Loop σ α capacity} :
    NeverLost stop handle l ↔ Pending stop l := by
  apply Iff.intro
  · intro h hl hsent
    by_contra hno
    obtain ⟨n, hn⟩ := lost_of_none hs hl hsent fun y hy hstop => hno ⟨y, hy, hstop⟩
    exact h n hn
  · intro h n hlost
    have hp : Pending stop (run (step handle) l (List.replicate n .recv)) :=
      run_invariant (step handle) (Pending stop) (fun a => a = .recv)
        (fun l a ha hl => ha ▸ pending_recv hs hl) l _
        (fun a ha => List.eq_of_mem_replicate ha) h
    obtain ⟨y, hy, _⟩ := hp hlost.looping hlost.sent
    rw [(Receiver.recv_none.mp hlost.drained).2] at hy
    cases hy

/-- No stop is lost at any point of a run exactly if every message sent meets the
condition. -/
theorem throughout_neverLost_iff (hcap : 0 < capacity) (hs : StopsAt handle stop) (s : σ)
    (acts : List (Act α)) :
    Throughout (step handle) (NeverLost stop handle)
        ({ state := s } : Loop σ α capacity) acts ↔
      Along (step handle) (KeepsStop stop) ({ state := s } : Loop σ α capacity) acts := by
  have hiff := throughout_iff_along (step handle) Known (Pending stop)
    (KeepsStop stop) (fun _ a hk => known_step hs hk a)
    (fun _ a hk hp => pending_step hcap hs hk hp a) ({ state := s } : Loop σ α capacity) acts
    (fun _ hy => by cases hy) (fun _ hx => by
      obtain ⟨x, hx, _⟩ := hx
      cases hx)
  rw [← hiff]
  exact forall_congr' fun pre => imp_congr_right fun _ => neverLost_iff hs

/-! ### A loop that is polled -/

/-- At most `n` receives, until the loop has to wait or stops. -/
def resume (handle : Handler σ α) (closed : Bool) :
    ℕ → Loop σ α capacity → Loop σ α capacity
  | 0, l => l
  | n + 1, l =>
    if l.looping then
      match l.receiver.tryRecv closed with
      | none => l
      | some (result, receiver) =>
        resume handle closed n
          { l with
            receiver := receiver
            state := (handle l.state result).1
            looping := (handle l.state result).2 }
    else l

/-- A poll runs the loop until it has to wait or stops: for a lag, the kept messages and the
end of the channel. -/
def poll (handle : Handler σ α) (closed : Bool) (l : Loop σ α capacity) : Loop σ α capacity :=
  resume handle closed (l.receiver.kept.length + 2) l

/-- A loop that stops also when the channel is closed, and has no state while it waits. -/
structure WaitsFor (handle : Handler σ α) (stop : α → Prop) : Prop extends StopsAt handle stop where
  closed : ∀ s, (handle s (.error .closed)).2 = false
  stays : ∀ s result, (handle s result).2 = true → (handle s result).1 = s

theorem resume_idle {l : Loop σ α capacity} (h : l.looping = false) (closed : Bool) (n : ℕ) :
    resume handle closed n l = l := by
  cases n with
  | zero => rfl
  | succ n =>
    unfold resume
    rw [h]
    rfl

theorem resume_some {l : Loop σ α capacity} (hl : l.looping = true) {closed : Bool}
    {result : Except RecvError α} {r : Receiver α capacity}
    (h : l.receiver.tryRecv closed = some (result, r)) (n : ℕ) :
    resume handle closed (n + 1) l = resume handle closed n
      { l with
        receiver := r
        state := (handle l.state result).1
        looping := (handle l.state result).2 } := by
  rw [resume, if_pos hl, h]

/-- How a poll ends: the loop has met a stop; there is none and the channel is closed; there
is none and the loop waits. -/
def Polled (handle : Handler σ α) (stop : α → Prop) (closed : Bool)
    (l l' : Loop σ α capacity) : Prop :=
  (∃ x ∈ l.receiver.kept, stop x ∧ l'.looping = false ∧ l'.state = (handle l.state (.ok x)).1) ∨
    (∀ x ∈ l.receiver.kept, ¬ stop x) ∧
      (closed = true ∧ l'.looping = false ∧ l'.state = (handle l.state (.error .closed)).1 ∨
        closed = false ∧ l'.looping = true ∧ l'.state = l.state ∧ l'.receiver.recv = none ∧
          l'.receiver.kept = [])

theorem resume_polled (hw : WaitsFor handle stop) (closed : Bool) (n : ℕ)
    (l : Loop σ α capacity) (hl : l.looping = true) (hm : l.receiver.missed = 0)
    (hn : l.receiver.kept.length < n) :
    Polled handle stop closed l (resume handle closed n l) := by
  induction n generalizing l with
  | zero => cases hn
  | succ n ih =>
    cases hk : l.receiver.kept with
    | nil =>
      have hnone := Receiver.recv_none.mpr ⟨hm, hk⟩
      have htry := Receiver.tryRecv_of_drained hnone closed
      have hno : ∀ x ∈ l.receiver.kept, ¬ stop x := by
        rw [hk]
        exact nofun
      refine .inr ⟨hno, ?_⟩
      cases closed with
      | true =>
        have hstopped := hw.closed l.state
        rw [resume_some hl htry, resume_idle hstopped]
        exact .inl ⟨rfl, hstopped, rfl⟩
      | false =>
        rw [resume, if_pos hl, htry]
        exact .inr ⟨rfl, hl, rfl, hnone, hk⟩
    | cons x rest =>
      obtain ⟨r, hr, hkept, hmissed⟩ := Receiver.recv_next hm hk
      rw [resume_some hl (Receiver.tryRecv_of_recv hr closed)]
      cases hgo : (handle l.state (.ok x)).2 with
      | false =>
        have hstop : stop x := by
          by_contra hno
          rw [(hw.message l.state x).mpr hno] at hgo
          cases hgo
        rw [resume_idle rfl]
        exact .inl ⟨x, hk ▸ List.mem_cons_self, hstop, rfl, rfl⟩
      | true =>
        have hno := (hw.message l.state x).mp hgo
        have hstate := hw.stays l.state (.ok x) hgo
        have hp := ih { l with receiver := r, state := (handle l.state (.ok x)).1, looping := true }
          rfl hmissed (by rw [hk] at hn; simp [hkept] at hn ⊢; omega)
        unfold Polled at hp ⊢
        simp only [hkept, hstate] at hp ⊢
        rw [hk]
        simpa [hno] using hp

theorem poll_polled (hw : WaitsFor handle stop) (closed : Bool) {l : Loop σ α capacity}
    (hl : l.looping = true) : Polled handle stop closed l (poll handle closed l) := by
  by_cases hm : l.receiver.missed = 0
  · exact resume_polled hw closed _ l hl hm (Nat.lt_add_of_pos_right Nat.two_pos)
  · obtain ⟨r, hr, hkept, hmissed⟩ := Receiver.recv_lagged hm
    have hgo := hw.lagged l.state l.receiver.missed
    have hstate := hw.stays l.state _ hgo
    unfold poll
    rw [resume_some hl (Receiver.tryRecv_of_recv hr closed), hgo, hstate]
    have hp := resume_polled hw closed (l.receiver.kept.length + 1)
      { l with receiver := r, looping := true } rfl hmissed (by simp [hkept])
    unfold Polled at hp ⊢
    rw [hkept] at hp
    exact hp

theorem poll_idle {l : Loop σ α capacity} (h : l.looping = false) (closed : Bool) :
    poll handle closed l = l := resume_idle h closed _

end Broadcast
