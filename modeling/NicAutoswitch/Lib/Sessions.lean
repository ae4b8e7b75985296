import Mathlib.Data.List.Basic
import NicAutoswitch.Lib.Run

/-!
# A shared state served over several connections

Each connection is a queue of requests that are answered one after another. A turn takes the
next request and applies it to the shared state; the answer is then written in pieces, and a
connection may be cut at any point, also between the two. What the environment answers to a
request is known when its turn is taken.

In whatever order the steps come, the state is the one that the requests leave when they are
applied in the order of their turns, and what a connection is told is what that order answers.
-/

namespace Sessions
open Transition

variable {σ ρ ε β : Type}

/-- `sent` is an auxiliary variable: every request that the peer has sent. -/
structure Connection (ρ β : Type) where
  sent : List ρ := []
  unread : List ρ := []
  unwritten : List β := []
  written : List β := []
  live : Bool := true

/-- A turn of a connection: its request, and what it found in the environment. -/
structure Turn (ρ ε : Type) where
  connection : ℕ
  request : ρ
  found : ε

/-- `turns` is an auxiliary variable: the turns taken so far. -/
structure Shared (σ ρ ε β : Type) where
  state : σ
  connections : List (Connection ρ β) := []
  turns : List (Turn ρ ε) := []

inductive Act (ρ ε : Type) where
  | send (request : ρ)
  | turn (found : ε)
  | write (n : ℕ)
  | cut

namespace Connection

def send (c : Connection ρ β) (request : ρ) : Connection ρ β :=
  { c with sent := c.sent ++ [request], unread := c.unread ++ [request] }

def write (c : Connection ρ β) (n : ℕ) : Connection ρ β :=
  if c.live then
    { c with written := c.written ++ c.unwritten.take n, unwritten := c.unwritten.drop n }
  else c

/-- The next request is taken when the answer to the last one has been written. -/
def next (c : Connection ρ β) : Option (ρ × List ρ) :=
  match c.live && c.unwritten.isEmpty, c.unread with
  | true, request :: rest => some (request, rest)
  | _, _ => none

theorem next_eq_some {c : Connection ρ β} {request : ρ} {rest : List ρ} :
    c.next = some (request, rest) ↔
      c.live = true ∧ c.unwritten = [] ∧ c.unread = request :: rest := by
  unfold next
  cases c.live <;> cases c.unwritten <;> cases c.unread <;> simp

end Connection

namespace Shared

def connect (w : Shared σ ρ ε β) : Shared σ ρ ε β := { w with connections := w.connections ++ [{}] }

def update (w : Shared σ ρ ε β) (i : ℕ) (c : Connection ρ β) : Shared σ ρ ε β :=
  { w with connections := w.connections.set i c }

variable (handle : ε → ρ → σ → List β × σ)

/-- A step of the connection `i`. -/
def act (w : Shared σ ρ ε β) (i : ℕ) (a : Act ρ ε) : Shared σ ρ ε β :=
  match w.connections[i]? with
  | none => w
  | some c =>
    match a with
    | .send request => w.update i (c.send request)
    | .write n => w.update i (c.write n)
    | .cut => w.update i { c with live := false }
    | .turn found =>
      match c.next with
      | none => w
      | some (request, rest) =>
        let (answer, state) := handle found request w.state
        { state := state
          connections := w.connections.set i { c with unread := rest, unwritten := answer }
          turns := w.turns ++ [⟨i, request, found⟩] }

end Shared

variable (handle : ε → ρ → σ → List β × σ)

/-- The state that a turn leaves. -/
def serve (s : σ) (turn : Turn ρ ε) : σ := (handle turn.found turn.request s).2

/-- What the connection `i` is told when the turns are taken one after another. -/
def answers (i : ℕ) : σ → List (Turn ρ ε) → List β
  | _, [] => []
  | s, turn :: turns =>
    (if turn.connection = i then (handle turn.found turn.request s).1 else []) ++
      answers i (serve handle s turn) turns

/-- The requests of the connection `i`. -/
def requests (i : ℕ) (turns : List (Turn ρ ε)) : List ρ :=
  (turns.filter (·.connection == i)).map (·.request)

/-- What the connection `i` has sent and been told, after the turns: no request is lost, taken
twice or out of turn, and no answer goes to another connection. -/
structure Served (s : σ) (turns : List (Turn ρ ε)) (i : ℕ) (c : Connection ρ β) : Prop where
  sent : requests i turns ++ c.unread = c.sent
  told : c.written ++ c.unwritten = answers handle i s turns

/-- The state and the connections are those of the turns taken one after another from `s`. -/
structure Sequential (s : σ) (w : Shared σ ρ ε β) : Prop where
  state : w.state = run (serve handle) s w.turns
  connections : ∀ i c, w.connections[i]? = some c → Served handle s w.turns i c
  known : ∀ turn ∈ w.turns, turn.connection < w.connections.length

variable {handle}

theorem answers_append (i : ℕ) (s : σ) (turns turns' : List (Turn ρ ε)) :
    answers handle i s (turns ++ turns') =
      answers handle i s turns ++ answers handle i (run (serve handle) s turns) turns' := by
  induction turns generalizing s with
  | nil => rfl
  | cons turn turns ih =>
    rw [List.cons_append, answers, ih, answers, run_cons, List.append_assoc]

theorem requests_append (i : ℕ) (turns turns' : List (Turn ρ ε)) :
    requests i (turns ++ turns') = requests i turns ++ requests i turns' := by
  unfold requests
  rw [List.filter_append, List.map_append]

/-- A connection that has taken no turn. -/
theorem answers_eq_nil {i : ℕ} {turns : List (Turn ρ ε)} (h : ∀ turn ∈ turns, turn.connection ≠ i) (s : σ) :
    answers handle i s turns = [] := by
  induction turns generalizing s with
  | nil => rfl
  | cons turn turns ih =>
    have hturn := h turn List.mem_cons_self
    rw [answers, if_neg hturn, ih fun t ht => h t (List.mem_cons_of_mem turn ht)]
    rfl

theorem requests_eq_nil {i : ℕ} {turns : List (Turn ρ ε)} (h : ∀ turn ∈ turns, turn.connection ≠ i) :
    requests i turns = [] := by
  have hnone : turns.filter (·.connection == i) = [] := by
    rw [List.filter_eq_nil_iff]
    intro turn ht hi
    exact h turn ht (beq_iff_eq.mp hi)
  unfold requests
  rw [hnone]
  rfl

theorem requests_concat (i j : ℕ) (turns : List (Turn ρ ε)) (request : ρ) (found : ε) :
    requests i (turns ++ [⟨j, request, found⟩]) =
      if j = i then requests i turns ++ [request] else requests i turns := by
  rw [requests_append]
  by_cases hj : j = i
  · have hown : requests i [⟨j, request, found⟩] = [request] := by
      simp [requests, hj]
    rw [if_pos hj, hown]
  · have hnone : requests i [⟨j, request, found⟩] = [] := by
      apply requests_eq_nil
      intro turn ht
      rw [List.mem_singleton.mp ht]
      exact hj
    rw [if_neg hj, hnone, List.append_nil]

theorem answers_concat (i j : ℕ) (s : σ) (turns : List (Turn ρ ε)) (request : ρ)
    (found : ε) :
    answers handle i s (turns ++ [⟨j, request, found⟩]) =
      if j = i then answers handle i s turns ++ (handle found request (run (serve handle) s turns)).1
      else answers handle i s turns := by
  rw [answers_append, answers, answers, List.append_nil]
  by_cases hj : j = i
  · rw [if_pos hj, if_pos hj]
  · rw [if_neg hj, if_neg hj, List.append_nil]

namespace Served

variable {s : σ} {turns : List (Turn ρ ε)} {i : ℕ} {c : Connection ρ β}

theorem fresh (h : ∀ turn ∈ turns, turn.connection ≠ i) :
    Served handle s turns i ({} : Connection ρ β) :=
  ⟨congrArg (· ++ []) (requests_eq_nil h), (answers_eq_nil h s).symm⟩

theorem send (h : Served handle s turns i c) (request : ρ) :
    Served handle s turns i (c.send request) := by
  refine ⟨?_, h.told⟩
  show requests i turns ++ (c.unread ++ [request]) = c.sent ++ [request]
  rw [← List.append_assoc, h.sent]

theorem write (h : Served handle s turns i c) (n : ℕ) :
    Served handle s turns i (c.write n) := by
  unfold Connection.write
  split_ifs
  · refine ⟨h.sent, ?_⟩
    show c.written ++ c.unwritten.take n ++ c.unwritten.drop n = _
    rw [List.append_assoc, List.take_append_drop]
    exact h.told
  · exact h

theorem cut (h : Served handle s turns i c) : Served handle s turns i { c with live := false } :=
  ⟨h.sent, h.told⟩

/- A turn of another connection. -/
theorem other (h : Served handle s turns i c) {j : ℕ} (hj : j ≠ i) (request : ρ)
    (found : ε) :
    Served handle s (turns ++ [⟨j, request, found⟩]) i c := by
  refine ⟨?_, ?_⟩
  · rw [requests_concat, if_neg hj]
    exact h.sent
  · rw [answers_concat, if_neg hj]
    exact h.told

/- A turn of its own. -/
theorem turn (h : Served handle s turns i c) {request : ρ} {rest : List ρ}
    (hnext : c.next = some (request, rest)) (found : ε) :
    Served handle s (turns ++ [⟨i, request, found⟩]) i
      { c with
        unread := rest
        unwritten := (handle found request (run (serve handle) s turns)).1 } := by
  obtain ⟨_, hwritten, hunread⟩ := Connection.next_eq_some.mp hnext
  refine ⟨?_, ?_⟩
  · rw [requests_concat, if_pos rfl, List.append_assoc]
    have hsent := h.sent
    rw [hunread] at hsent
    exact hsent
  · have hall : c.written = answers handle i s turns := by
      rw [← h.told, hwritten, List.append_nil]
    rw [answers_concat, if_pos rfl, ← hall]

end Served

namespace Sequential

variable {s : σ} {w : Shared σ ρ ε β}

theorem initial (s : σ) : Sequential handle s ({ state := s } : Shared σ ρ ε β) where
  state := rfl
  connections _ _ h := by cases h
  known _ h := by cases h

theorem connect (h : Sequential handle s w) : Sequential handle s w.connect where
  state := h.state
  connections := by
    intro i c hc
    change (w.connections ++ [({} : Connection ρ β)])[i]? = some c at hc
    rcases Nat.lt_or_ge i w.connections.length with hi | hi
    · rw [List.getElem?_append_left hi] at hc
      exact h.connections i c hc
    · rw [List.getElem?_append_right hi, List.getElem?_singleton] at hc
      split_ifs at hc with hzero
      cases hc
      exact .fresh fun turn ht => ((h.known turn ht).trans_le hi).ne
  known := by
    intro turn ht
    rw [Shared.connect, List.length_append]
    exact Nat.lt_add_right 1 (h.known turn ht)

/-- A connection that is replaced by one that has been served as well. -/
theorem update (h : Sequential handle s w) {i : ℕ} {c : Connection ρ β}
    (hc : Served handle s w.turns i c) : Sequential handle s (w.update i c) where
  state := h.state
  connections := by
    intro j d hd
    change (w.connections.set i c)[j]? = some d at hd
    rw [List.getElem?_set] at hd
    split_ifs at hd with hij hi
    · cases hd
      exact hij ▸ hc
    · exact h.connections j d hd
  known := by
    intro turn ht
    rw [Shared.update, List.length_set]
    exact h.known turn ht

theorem turn (h : Sequential handle s w) {i : ℕ} {c : Connection ρ β}
    (hi : w.connections[i]? = some c) {request : ρ} {rest : List ρ}
    (hnext : c.next = some (request, rest)) (found : ε) :
    Sequential handle s
      { state := (handle found request w.state).2
        connections := w.connections.set i
          { c with unread := rest, unwritten := (handle found request w.state).1 }
        turns := w.turns ++ [⟨i, request, found⟩] } where
  state := by
    rw [run_append, ← h.state]
    rfl
  connections := by
    intro j d hd
    rw [List.getElem?_set] at hd
    split_ifs at hd with hij hlt
    · cases hd
      rw [h.state]
      exact hij ▸ (h.connections i c hi).turn hnext found
    · exact (h.connections j d hd).other hij request found
  known := by
    intro turn ht
    rw [List.length_set]
    rcases List.mem_append.mp ht with hold | hnew
    · exact h.known turn hold
    · rw [List.mem_singleton.mp hnew]
      exact (List.getElem?_eq_some_iff.mp hi).1

theorem act (h : Sequential handle s w) (i : ℕ) (a : Act ρ ε) :
    Sequential handle s (w.act handle i a) := by
  unfold Shared.act
  cases hi : w.connections[i]? with
  | none => exact h
  | some c =>
    have hc := h.connections i c hi
    cases a with
    | send request => exact h.update (hc.send request)
    | write n => exact h.update (hc.write n)
    | cut => exact h.update hc.cut
    | turn found =>
      dsimp only
      split
      · exact h
      · next hnext => exact h.turn hi hnext found

end Sequential

/-- Turns that have been taken stay taken, in their order. -/
theorem turns_act (w : Shared σ ρ ε β) (i : ℕ) (a : Act ρ ε) : w.turns <+: (w.act handle i a).turns := by
  unfold Shared.act
  split
  · exact List.prefix_rfl
  · cases a with
    | turn found =>
      dsimp only
      split
      · exact List.prefix_rfl
      · exact List.prefix_append _ _
    | send request => exact List.prefix_rfl
    | write n => exact List.prefix_rfl
    | cut => exact List.prefix_rfl

theorem length_act (w : Shared σ ρ ε β) (i : ℕ) (a : Act ρ ε) :
    (w.act handle i a).connections.length = w.connections.length := by
  unfold Shared.act
  split
  · rfl
  · cases a with
    | turn found =>
      dsimp only
      split
      · rfl
      · exact List.length_set
    | send request => exact List.length_set
    | write n => exact List.length_set
    | cut => exact List.length_set

end Sessions
