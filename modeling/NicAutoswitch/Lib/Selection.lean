import Mathlib.Data.List.MinMax

/-!
# Selecting from a list

`leasts` keeps the elements of least cost, `longest` selects as a lookup by longest
prefix does: the greatest length wins, and among equal lengths the least cost. Both
keep every element that can win, so that the order of the list does not matter.

`argmin` selects the first of the elements of least cost.

`eraseLeast` takes one element of least cost from a list, the first of them; taking
some number of them takes the elements whose `rank` is below that number.
-/

namespace Selection

variable {α : Type}

def leasts (cost : α → ℕ) (l : List α) : List α :=
  l.filter fun x => ∀ y ∈ l, cost x ≤ cost y

def longest (len cost : α → ℕ) (l : List α) : List α :=
  leasts cost (l.filter fun x => ∀ y ∈ l, len y ≤ len x)

theorem mem_leasts {cost : α → ℕ} {l : List α} {x : α} :
    x ∈ leasts cost l ↔ x ∈ l ∧ ∀ y ∈ l, cost x ≤ cost y := by
  unfold leasts
  rw [List.mem_filter, decide_eq_true_iff]

theorem exists_mem_leasts (cost : α → ℕ) {l : List α} {x : α} (hx : x ∈ l) :
    ∃ y, y ∈ leasts cost l := by
  cases hm : l.argmin cost with
  | none =>
    rw [List.argmin_eq_none.mp hm] at hx
    cases hx
  | some m => exact ⟨m, mem_leasts.mpr ⟨List.argmin_mem hm, fun y hy => List.le_of_mem_argmin hy hm⟩⟩

theorem mem_longest {len cost : α → ℕ} {l : List α} {x : α} :
    x ∈ longest len cost l ↔
      x ∈ l ∧ (∀ y ∈ l, len y ≤ len x) ∧ ∀ y ∈ l, len y = len x → cost x ≤ cost y := by
  unfold longest
  rw [mem_leasts]
  simp only [List.mem_filter, decide_eq_true_eq]
  apply Iff.intro
  · intro h
    obtain ⟨⟨hx, hlen⟩, hcost⟩ := h
    exact ⟨hx, hlen, fun y hy he => hcost y ⟨hy, fun z hz => he ▸ hlen z hz⟩⟩
  · intro h
    obtain ⟨hx, hlen, hcost⟩ := h
    exact ⟨⟨hx, hlen⟩, fun y hy => hcost y hy.1 (le_antisymm (hlen y hy.1) (hy.2 x hx))⟩

theorem exists_mem_longest (len cost : α → ℕ) {l : List α} {x : α} (hx : x ∈ l) :
    ∃ y, y ∈ longest len cost l := by
  cases hm : l.argmax len with
  | none =>
    rw [List.argmax_eq_none.mp hm] at hx
    cases hx
  | some m =>
    have hall : ∀ y ∈ l, len y ≤ len m := fun y hy => List.le_of_mem_argmax hy hm
    exact exists_mem_leasts cost (List.mem_filter.mpr ⟨List.argmax_mem hm, decide_eq_true hall⟩)

/- Lists of the same elements select the same. -/
theorem mem_longest_congr {len cost : α → ℕ} {l l' : List α} (h : ∀ x, x ∈ l ↔ x ∈ l') (x : α) :
    x ∈ longest len cost l ↔ x ∈ longest len cost l' := by
  simp only [mem_longest, h]

/- Every element before the selected one costs more. -/
theorem argmin_split {cost : α → ℕ} {l : List α} {m : α} (h : l.argmin cost = some m) :
    ∃ pre post, l = pre ++ m :: post ∧ ∀ x ∈ pre, cost m < cost x := by
  induction l generalizing m with
  | nil => cases h
  | cons a l ih =>
    rw [List.argmin_cons] at h
    cases hl : l.argmin cost with
    | none =>
      rw [hl] at h
      cases h
      exact ⟨[], l, rfl, fun x hx => by cases hx⟩
    | some c =>
      rw [hl] at h
      dsimp only at h
      split_ifs at h with hlt
      · cases h
        obtain ⟨pre, post, heq, hpre⟩ := ih hl
        refine ⟨a :: pre, post, congrArg (a :: ·) heq, ?_⟩
        intro x hx
        rcases List.mem_cons.mp hx with rfl | hx
        · exact hlt
        · exact hpre x hx
      · cases h
        exact ⟨[], l, rfl, fun x hx => by cases hx⟩

/- The element selected among those that pass a test, seen from the whole list. -/
theorem argmin_filter_split {cost : α → ℕ} {p : α → Bool} {l : List α} {m : α}
    (h : (l.filter p).argmin cost = some m) :
    ∃ pre post, l = pre ++ m :: post ∧ ∀ x ∈ pre, p x = true → cost m < cost x := by
  obtain ⟨pre, post, heq, hpre⟩ := argmin_split h
  obtain ⟨l1, l2, rfl, hl1, hl2⟩ := List.filter_eq_append_iff.mp heq
  obtain ⟨l3, l4, rfl, hl3, _, _⟩ := List.filter_eq_cons_iff.mp hl2
  refine ⟨l1 ++ l3, l4, (List.append_assoc l1 l3 (m :: l4)).symm, ?_⟩
  intro x hx hp
  rcases List.mem_append.mp hx with hx | hx
  · exact hpre x (hl1 ▸ List.mem_filter.mpr ⟨hx, hp⟩)
  · exact absurd hp (hl3 x hx)

/-! ### Taking the least elements one by one -/

section Rank

variable [DecidableEq α]

/- The element of least cost, the first one in the list, is taken. -/
def eraseLeast (cost : α → ℕ) (l : List α) : List α :=
  match l.argmin cost with
  | some m => l.erase m
  | none => l

/- How many elements go before `x`: those of less cost, and those of equal cost that the
list has before it. -/
def rank (cost : α → ℕ) (l : List α) (x : α) : ℕ :=
  l.countP fun y => cost y < cost x ∨ cost y = cost x ∧ l.idxOf y < l.idxOf x

theorem rank_argmin {cost : α → ℕ} {l : List α} {m : α} (hm : l.argmin cost = some m) :
    rank cost l m = 0 := by
  obtain ⟨_, hle, hfirst⟩ := List.argmin_eq_some_iff.mp hm
  unfold rank
  rw [List.countP_eq_zero]
  intro y hy hb
  rcases of_decide_eq_true hb with hlt | ⟨heq, hidx⟩
  · exact absurd (hle y hy) (not_le.mpr hlt)
  · exact absurd (hfirst y hy heq.le) (not_le.mpr hidx)

/- The order of the others is the same without `m`. -/
theorem idxOf_erase_lt {l : List α} (hn : l.Nodup) {m x y : α} (hx : x ≠ m) (hy : y ≠ m) :
    (l.erase m).idxOf y < (l.erase m).idxOf x ↔ l.idxOf y < l.idxOf x := by
  induction l with
  | nil => exact Iff.rfl
  | cons z l ih =>
    obtain ⟨hz, hn⟩ := List.nodup_cons.mp hn
    by_cases hzm : z = m
    · subst hzm
      rw [List.erase_cons_head, List.idxOf_cons_ne l hx.symm, List.idxOf_cons_ne l hy.symm]
      exact Nat.succ_lt_succ_iff.symm
    · rw [List.erase_cons_tail (by simpa using hzm)]
      by_cases hzx : z = x
      · subst hzx
        simp only [List.idxOf_cons_self, Nat.not_lt_zero]
      · by_cases hzy : z = y
        · subst hzy
          simp only [List.idxOf_cons_self, List.idxOf_cons_ne _ hzx, Nat.succ_pos]
        · simp only [List.idxOf_cons_ne _ hzx, List.idxOf_cons_ne _ hzy, Nat.succ_lt_succ_iff]
          exact ih hn

/- Every other element moves up by one when the first is taken. -/
theorem rank_erase {cost : α → ℕ} {l : List α} (hn : l.Nodup) {m x : α}
    (hm : l.argmin cost = some m) (hx : x ∈ l) (hne : x ≠ m) :
    rank cost l x = rank cost (l.erase m) x + 1 := by
  obtain ⟨hml, hle, hfirst⟩ := List.argmin_eq_some_iff.mp hm
  have hbefore : cost m < cost x ∨ cost m = cost x ∧ l.idxOf m < l.idxOf x := by
    rcases (hle x hx).lt_or_eq with hlt | heq
    · exact Or.inl hlt
    · have hidx : l.idxOf m ≠ l.idxOf x := fun h => hne ((List.idxOf_inj hml).mp h).symm
      exact Or.inr ⟨heq, lt_of_le_of_ne (hfirst x hx heq.ge) hidx⟩
  have hcount : l.countP (fun y => cost y < cost x ∨ cost y = cost x ∧ l.idxOf y < l.idxOf x) =
      (l.erase m).countP (fun y => cost y < cost x ∨ cost y = cost x ∧ l.idxOf y < l.idxOf x)
        + 1 := by
    rw [(List.perm_cons_erase hml).countP_eq, List.countP_cons, if_pos (decide_eq_true hbefore)]
  unfold rank
  rw [hcount]
  refine congrArg (· + 1) (List.countP_congr fun y hy => ?_)
  have hym : y ≠ m := ((hn.mem_erase_iff).mp hy).1
  simp only [decide_eq_true_eq, idxOf_erase_lt hn hne hym]

theorem mem_eraseLeast_iterate (cost : α → ℕ) (n : ℕ) {l : List α} (hn : l.Nodup) (x : α) :
    x ∈ (eraseLeast cost)^[n] l ↔ x ∈ l ∧ n ≤ rank cost l x := by
  induction n generalizing l with
  | zero => simp
  | succ n ih =>
    rw [Function.iterate_succ_apply]
    cases hm : l.argmin cost with
    | none =>
      rw [List.argmin_eq_none.mp hm] at hn ⊢
      exact (ih hn).trans (by simp)
    | some m =>
      have he : eraseLeast cost l = l.erase m := by
        unfold eraseLeast
        rw [hm]
      rw [he, ih (hn.erase m), hn.mem_erase_iff]
      by_cases hxm : x = m
      · -- the element that is taken has rank zero
        rw [hxm, rank_argmin hm]
        simp
      · rw [and_iff_right hxm]
        refine and_congr_right fun hx => ?_
        rw [rank_erase hn hm hx hxm, Nat.add_le_add_iff_right]

end Rank

end Selection
