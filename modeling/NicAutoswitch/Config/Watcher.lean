import Mathlib.Order.Lattice
import NicAutoswitch.Lib.Run

/-!
# Configuration file watcher (config/watcher.rs)

Each `start` spawns a task that polls the modification time of the file. All tasks share
one shutdown flag. A step of a task goes to its next check of the flag or to its next
sleep; what it then reads as the modification time, `none` where the file is missing, is
an argument of the step.
-/

namespace NicAutoswitch.Config.Watcher
open Transition

variable {T : Type}

inductive ConfigEvent where
  | modified
  | deleted
  deriving Repr, DecidableEq

/- What a spawned task does next: it reads the modification time for the first time, checks the
flag, or reads the time again after its sleep; or it has left its loop. -/
inductive Stage (T : Type) where
  | spawned
  | checking (lastModified : Option T)
  | sleeping (lastModified : Option T)
  | left
  deriving Repr, DecidableEq

/-- `observed` is an auxiliary variable: the modification times that the task has read, oldest
first, each with the event that it sent there. -/
structure WatchTask (T : Type) where
  stage : Stage T := .spawned
  observed : List (Option T × Option ConfigEvent) := []
  deriving Repr, DecidableEq

structure ConfigWatcher (T : Type) where
  enabled : Bool := false
  shutdown : Bool := false
  tasks : List (WatchTask T) := []
  deriving Repr, DecidableEq

/- `start` and `stop` are called, a task makes a step. -/
inductive Act (T : Type) where
  | start
  | stop
  | resume (i : ℕ) (current : Option T)
  deriving Repr, DecidableEq

section Loop
variable [LinearOrder T]

/- The event for a modification time after the last one. -/
def eventOn (lastModified currentModified : Option T) : Option ConfigEvent :=
  match lastModified, currentModified with
  | some last, some current => if last < current then some .modified else none
  | some _, none => some .deleted
  | none, _ => none

def WatchTask.resume (shutdown : Bool) (t : WatchTask T) (current : Option T) : WatchTask T :=
  match t.stage with
  | .spawned => ⟨.checking current, [(current, none)]⟩
  | .checking last => { t with stage := if shutdown then .left else .sleeping last }
  | .sleeping last => ⟨.checking current, t.observed ++ [(current, eventOn last current)]⟩
  | .left => t

def step (w : ConfigWatcher T) : Act T → ConfigWatcher T
  | .start => { w with enabled := true, tasks := w.tasks ++ [{}] }
  | .stop => { w with enabled := false, shutdown := true }
  | .resume i current =>
    match w.tasks[i]? with
    | some t => { w with tasks := w.tasks.set i (t.resume w.shutdown current) }
    | none => w

end Loop

def Act.isStep : Act T → Bool
  | .resume _ _ => true
  | .start | .stop => false

/-! ### The steps -/

variable [LinearOrder T] {w : ConfigWatcher T}

theorem eventOn_modified_iff (last current : Option T) :
    eventOn last current = some .modified ↔ ∃ t' t, last = some t' ∧ current = some t ∧ t' < t := by
  cases last with
  | none => simp [eventOn]
  | some t' =>
    cases current with
    | none => simp [eventOn]
    | some t => simp [eventOn]

theorem eventOn_deleted_iff (last current : Option T) :
    eventOn last current = some .deleted ↔ current = none ∧ ∃ t', last = some t' := by
  cases last with
  | none => simp [eventOn]
  | some t' =>
    cases current with
    | none => simp [eventOn]
    | some t =>
      simp only [eventOn]
      split <;> simp

theorem step_resume {i : ℕ} {t : WatchTask T} (ht : w.tasks[i]? = some t) (current : Option T) :
    step w (.resume i current) =
      { w with tasks := w.tasks.set i (t.resume w.shutdown current) } := by
  simp only [step, ht]

theorem step_resume_none {i : ℕ} (ht : w.tasks[i]? = none) (current : Option T) :
    step w (.resume i current) = w := by
  simp only [step, ht]

/- What holds of the watcher and of it after a step of any task holds after `resume`. -/
theorem resume_rec {P : ConfigWatcher T → Prop} {i : ℕ} {current : Option T} (h : P w)
    (hp : ∀ t, w.tasks[i]? = some t →
      P { w with tasks := w.tasks.set i (t.resume w.shutdown current) }) :
    P (step w (.resume i current)) := by
  cases ht : w.tasks[i]? with
  | none =>
    rw [step_resume_none ht]
    exact h
  | some t =>
    rw [step_resume ht]
    exact hp t ht

/- A property of single tasks, true of a new one and kept by their steps. -/
theorem forall_tasks_step (P : WatchTask T → Prop) (h0 : P {})
    (hs : ∀ shutdown t current, P t → P (t.resume shutdown current)) (act : Act T)
    (h : ∀ t ∈ w.tasks, P t) : ∀ t ∈ (step w act).tasks, P t := by
  cases act with
  | start => exact List.forall_mem_append.mpr ⟨h, List.forall_mem_singleton.mpr h0⟩
  | stop => exact h
  | resume i current =>
    refine resume_rec (P := fun w => ∀ t ∈ w.tasks, P t) h fun t ht u hu => ?_
    rcases List.mem_or_eq_of_mem_set hu with hm | rfl
    · exact h u hm
    · exact hs w.shutdown t current (h t (List.mem_of_getElem? ht))

end NicAutoswitch.Config.Watcher
