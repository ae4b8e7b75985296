import Mathlib.Data.Set.Basic

/-!
# Replaying edits of a set

An edit names an element and says whether it goes in or out. After a list of edits
an element is in or out as its last edit says.
-/

namespace Edits

variable {α : Type}

def edit (s : Set α) (e : α × Bool) : Set α :=
  {x | x = e.1 ∧ e.2 = true ∨ x ≠ e.1 ∧ x ∈ s}

def replay (edits : List (α × Bool)) (s : Set α) : Set α := edits.foldl edit s

theorem replay_append (xs ys : List (α × Bool)) (s : Set α) :
    replay (xs ++ ys) s = replay ys (replay xs s) := List.foldl_append

theorem mem_edit_ne {s : Set α} {e : α × Bool} {x : α} (h : x ≠ e.1) :
    x ∈ edit s e ↔ x ∈ s := by
  simp [edit, h]

theorem mem_edit_self {s : Set α} {e : α × Bool} {x : α} (h : x = e.1) :
    x ∈ edit s e ↔ e.2 = true := by
  simp [edit, h]

/- An element that no edit names stays as it was. -/
theorem mem_replay_untouched {edits : List (α × Bool)} {x : α} (h : ∀ e ∈ edits, e.1 ≠ x)
    (s : Set α) : x ∈ replay edits s ↔ x ∈ s := by
  induction edits generalizing s with
  | nil => exact Iff.rfl
  | cons e rest ih =>
    have hne : x ≠ e.1 := (h e List.mem_cons_self).symm
    have hrest := ih (fun e' he' => h e' (List.mem_cons_of_mem e he')) (edit s e)
    exact hrest.trans (mem_edit_ne hne)

/- Edits that agree on an element settle it, whatever their order. -/
theorem mem_replay_agreed {edits : List (α × Bool)} {x : α} {b : Bool}
    (h : ∀ e ∈ edits, e.1 = x → e.2 = b) (hx : ∃ e ∈ edits, e.1 = x) (s : Set α) :
    x ∈ replay edits s ↔ b = true := by
  induction edits generalizing s with
  | nil =>
    obtain ⟨e, he, _⟩ := hx
    cases he
  | cons e rest ih =>
    have hrest : ∀ e' ∈ rest, e'.1 = x → e'.2 = b :=
      fun e' he' => h e' (List.mem_cons_of_mem e he')
    by_cases hlater : ∃ e' ∈ rest, e'.1 = x
    · exact ih hrest hlater (edit s e)
    · have hnone : ∀ e' ∈ rest, e'.1 ≠ x := fun e' he' hn => hlater ⟨e', he', hn⟩
      obtain ⟨e', he', hn⟩ := hx
      have he : e.1 = x := by
        rcases List.mem_cons.mp he' with rfl | hmem
        · exact hn
        · exact absurd hn (hnone e' hmem)
      have hb := h e List.mem_cons_self he
      rw [← hb]
      exact (mem_replay_untouched hnone (edit s e)).trans (mem_edit_self he.symm)

end Edits
