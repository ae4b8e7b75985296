import Mathlib.Data.List.Basic

/-!
# A watch channel

The channel holds one value. A send stores its value if some receiver is alive, and is
refused and stores nothing otherwise. A receiver borrows the stored value.
-/

/-- Receivers are numbered as they are made; `receivers` are those that are alive. -/
structure Watch (α : Type) where
  value : α
  receivers : List ℕ := []
  issued : ℕ := 0

namespace Watch

variable {α : Type}

/-- The value comes back where there is nobody to receive it. -/
def send (w : Watch α) (a : α) : Except α Unit × Watch α :=
  if w.receivers.isEmpty then (.error a, w) else (.ok (), { w with value := a })

def subscribe (w : Watch α) : ℕ × Watch α :=
  (w.issued, { w with receivers := w.issued :: w.receivers, issued := w.issued + 1 })

def drop (w : Watch α) (receiver : ℕ) : Watch α :=
  { w with receivers := w.receivers.filter (· ≠ receiver) }

def borrow (w : Watch α) (receiver : ℕ) : Option α :=
  if receiver ∈ w.receivers then some w.value else none

theorem send_nobody {w : Watch α} (h : w.receivers = []) (a : α) : (w.send a).2 = w := by
  unfold send
  rw [h]
  rfl

theorem send_heard {w : Watch α} (h : w.receivers ≠ []) (a : α) :
    (w.send a).2 = { w with value := a } := by
  unfold send
  rw [if_neg (by simpa using h)]

/-- What the live receivers see. -/
theorem all_see_iff (w : Watch α) (a : α) :
    (∀ r ∈ w.receivers, w.borrow r = some a) ↔ w.receivers = [] ∨ w.value = a := by
  have hborrow : ∀ r ∈ w.receivers, w.borrow r = some w.value := fun r hr => if_pos hr
  apply Iff.intro
  · intro h
    cases hr : w.receivers with
    | nil => exact Or.inl rfl
    | cons r rest =>
      have hmem : r ∈ w.receivers := hr ▸ List.mem_cons_self
      exact Or.inr (Option.some_inj.mp ((hborrow r hmem).symm.trans (h r hmem)))
  · rintro (h | h) r hr
    · rw [h] at hr
      cases hr
    · rw [hborrow r hr, h]

end Watch
