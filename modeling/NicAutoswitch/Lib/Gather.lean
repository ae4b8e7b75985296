import Mathlib.Data.List.Induction
import Mathlib.Data.List.Sort

/-!
# Gathering the elements of a list by tests, and sorting them by a key

A pass over a list takes the elements that pass a test and have not been taken before.
Passes with one test after another gather each element once, at the first test that it
passes; the elements of one pass are in the order of the list.

A stable sort by a key leaves elements of equal key in the order that they had.
-/

namespace Gather

/-! ### Passes -/

section Stages

variable {α τ : Type} {test : τ → α → Bool} {ts : List τ}

/-- The number of the first test that the element passes. -/
def stage (test : τ → α → Bool) (ts : List τ) (x : α) : ℕ := ts.findIdx fun t => test t x

theorem stage_lt {x : α} : stage test ts x < ts.length ↔ ∃ t ∈ ts, test t x = true :=
  List.findIdx_lt_length

theorem stage_le {pre post : List τ} {t : τ} {x : α} (h : test t x = true) :
    stage test (pre ++ t :: post) x ≤ pre.length := by
  unfold stage
  rw [List.findIdx_append]
  split
  · next hlt => exact hlt.le
  · rw [List.findIdx_cons, h, cond_true, Nat.zero_add]

theorem lt_stage {pre post : List τ} {t : τ} {x : α}
    (h : ∀ t' ∈ pre, ¬ test t' x = true) (ht : ¬ test t x = true) :
    pre.length < stage test (pre ++ t :: post) x := by
  have hpre : ¬ pre.findIdx (fun t => test t x) < pre.length := by
    intro hlt
    obtain ⟨t', hmem, hp⟩ := List.findIdx_lt_length.mp hlt
    exact h t' hmem hp
  unfold stage
  rw [List.findIdx_append, if_neg hpre, List.findIdx_cons, Bool.eq_false_iff.mpr ht, cond_false]
  omega

theorem stage_append_of_passed {x : α} (h : ∃ t ∈ ts, test t x = true) (t : τ) :
    stage test (ts ++ [t]) x = stage test ts x := by
  unfold stage
  rw [List.findIdx_append, if_pos (List.findIdx_lt_length.mpr h)]

theorem stage_append_of_new {x : α} (h : ¬ ∃ t ∈ ts, test t x = true) {t : τ}
    (ht : test t x = true) : stage test (ts ++ [t]) x = ts.length := by
  unfold stage
  rw [List.findIdx_append, if_neg (fun hlt => h (List.findIdx_lt_length.mp hlt))]
  simp only [List.findIdx_singleton, ht, if_true, Nat.zero_add]

end Stages

section Passes

variable {α τ : Type} [DecidableEq α]

def pass (p : α → Bool) (l taken : List α) : List α :=
  l.foldl (fun taken x => if p x && !taken.contains x then taken ++ [x] else taken) taken

/-- One pass for each test. -/
def passes (test : τ → α → Bool) (ts : List τ) (l taken : List α) : List α :=
  ts.foldl (fun taken t => pass (test t) l taken) taken

/-- `x` is gathered before `y`: by an earlier pass, or by the same pass from an earlier place. -/
def Before (test : τ → α → Bool) (ts : List τ) (l : List α) (x y : α) : Prop :=
  stage test ts x < stage test ts y ∨
    stage test ts x = stage test ts y ∧ l.idxOf x < l.idxOf y

/-- What the passes with the tests `ts` gather from `l`. -/
structure Gathered (test : τ → α → Bool) (ts : List τ) (l g : List α) : Prop where
  mem : ∀ x, x ∈ g ↔ x ∈ l ∧ ∃ t ∈ ts, test t x = true
  nodup : g.Nodup
  ordered : g.Pairwise (Before test ts l)

variable {test : τ → α → Bool} {ts : List τ} {l g : List α}

theorem mem_pass {p : α → Bool} {taken : List α} {x : α} :
    x ∈ pass p l taken ↔ x ∈ taken ∨ x ∈ l ∧ p x = true := by
  induction l generalizing taken with
  | nil => simp only [pass, List.foldl_nil, List.not_mem_nil, false_and, or_false]
  | cons y l ih =>
    have hstep : pass p (y :: l) taken =
        pass p l (if p y && !taken.contains y then taken ++ [y] else taken) := rfl
    rw [hstep, ih, List.mem_cons]
    split
    · next ht =>
      have hp : p y = true := (Bool.and_eq_true_iff.mp ht).1
      rw [List.mem_append, List.mem_singleton]
      by_cases hxy : x = y
      · simp only [hxy, hp, or_true, true_or, and_self]
      · simp only [hxy, or_false, false_or]
    · next ht =>
      by_cases hxy : x = y
      · subst hxy
        -- an element left out either fails the test or has been taken
        by_cases hp : p x = true
        · have hin : x ∈ taken := by simpa [hp] using ht
          simp only [hin, true_or]
        · simp only [hp, Bool.false_eq_true, and_false, or_false]
      · simp only [hxy, false_or]

theorem mem_passes {taken : List α} {x : α} :
    x ∈ passes test ts l taken ↔ x ∈ taken ∨ x ∈ l ∧ ∃ t ∈ ts, test t x = true := by
  induction ts generalizing taken with
  | nil => simp only [passes, List.foldl_nil, List.not_mem_nil, false_and, exists_false, and_false,
      or_false]
  | cons t ts ih =>
    have hstep : passes test (t :: ts) l taken = passes test ts l (pass (test t) l taken) := rfl
    rw [hstep, ih, mem_pass, or_assoc, ← and_or_left]
    simp only [List.mem_cons, or_and_right, exists_or, exists_eq_left]

/- No element is taken twice in one pass, since the list has it once. -/
theorem pass_eq (p : α → Bool) (hn : l.Nodup) (taken : List α) :
    pass p l taken = taken ++ l.filter fun x => p x && !taken.contains x := by
  induction l generalizing taken with
  | nil => exact (List.append_nil taken).symm
  | cons x l ih =>
    obtain ⟨hx, hn⟩ := List.nodup_cons.mp hn
    have hstep : pass p (x :: l) taken =
        pass p l (if p x && !taken.contains x then taken ++ [x] else taken) := rfl
    rw [hstep, List.filter_cons]
    by_cases ht : (p x && !taken.contains x) = true
    · rw [if_pos ht, if_pos ht, ih hn, List.append_assoc, List.singleton_append]
      refine congrArg (fun rest => taken ++ x :: rest) (List.filter_congr fun y hy => ?_)
      have hyx : y ≠ x := fun h => hx (h ▸ hy)
      simp only [List.contains_eq_mem, List.mem_append, List.mem_singleton, hyx, or_false]
    · rw [if_neg ht, if_neg ht, ih hn]

theorem pairwise_idxOf_lt (hn : l.Nodup) : l.Pairwise fun x y => l.idxOf x < l.idxOf y := by
  rw [List.pairwise_iff_getElem]
  intro i j hi hj hij
  rw [hn.idxOf_getElem i hi, hn.idxOf_getElem j hj]
  exact hij

theorem gathered_nil (test : τ → α → Bool) (l : List α) : Gathered test [] l [] where
  mem x := by simp only [List.not_mem_nil, false_and, exists_false, and_false]
  nodup := List.nodup_nil
  ordered := List.Pairwise.nil

/- One more pass takes the elements that pass its test and none of the tests before. -/
theorem Gathered.pass (hn : l.Nodup) (h : Gathered test ts l g) (t : τ) :
    Gathered test (ts ++ [t]) l (Gather.pass (test t) l g) := by
  have hnew : ∀ x, (x ∈ l.filter fun x => test t x && !g.contains x) ↔
      x ∈ l ∧ test t x = true ∧ ¬ ∃ t ∈ ts, test t x = true := by
    intro x
    simp only [List.mem_filter, Bool.and_eq_true, List.contains_eq_mem, Bool.not_eq_true',
      decide_eq_false_iff_not, h.mem]
    exact ⟨fun ⟨hl, ht, ho⟩ => ⟨hl, ht, fun hp => ho ⟨hl, hp⟩⟩,
      fun ⟨hl, ht, ho⟩ => ⟨hl, ht, fun hp => ho hp.2⟩⟩
  rw [pass_eq _ hn]
  constructor
  case mem =>
    intro x
    rw [← pass_eq _ hn, mem_pass, h.mem, ← and_or_left]
    simp only [List.mem_append, List.mem_singleton, or_and_right, exists_or, exists_eq_left]
  case nodup =>
    refine List.nodup_append.mpr ⟨h.nodup, hn.filter _, ?_⟩
    intro x hx y hy he
    exact ((hnew y).mp hy).2.2 ((h.mem y).mp (he ▸ hx)).2
  case ordered =>
    refine List.pairwise_append.mpr ⟨?_, ?_, ?_⟩
    · refine h.ordered.imp_of_mem ?_
      intro x y hx hy hxy
      unfold Before at hxy ⊢
      rw [stage_append_of_passed ((h.mem x).mp hx).2, stage_append_of_passed ((h.mem y).mp hy).2]
      exact hxy
    · refine ((pairwise_idxOf_lt hn).filter _).imp_of_mem ?_
      intro x y hx hy hxy
      obtain ⟨_, htx, hox⟩ := (hnew x).mp hx
      obtain ⟨_, hty, hoy⟩ := (hnew y).mp hy
      exact Or.inr ⟨by rw [stage_append_of_new hox htx, stage_append_of_new hoy hty], hxy⟩
    · intro x hx y hy
      obtain ⟨_, hty, hoy⟩ := (hnew y).mp hy
      have hpx := ((h.mem x).mp hx).2
      apply Or.inl
      rw [stage_append_of_passed hpx, stage_append_of_new hoy hty]
      exact stage_lt.mpr hpx

theorem gathered_passes (test : τ → α → Bool) (hn : l.Nodup) (ts : List τ) :
    Gathered test ts l (passes test ts l []) := by
  induction ts using List.reverseRecOn with
  | nil => exact gathered_nil test l
  | append_singleton ts t ih =>
    unfold passes at ih ⊢
    rw [List.foldl_append]
    exact ih.pass hn t

end Passes

/-! ### A stable sort -/

section StableSort

variable {α : Type}

def stableSort (key : α → ℕ) (l : List α) : List α := l.insertionSort fun x y => key x ≤ key y

variable {key : α → ℕ} {l : List α}

theorem stableSort_perm (key : α → ℕ) (l : List α) : (stableSort key l).Perm l :=
  List.perm_insertionSort _ l

theorem mem_stableSort {x : α} : x ∈ stableSort key l ↔ x ∈ l := (stableSort_perm key l).mem_iff

theorem stableSort_sorted (key : α → ℕ) (l : List α) :
    (stableSort key l).Pairwise fun x y => key x ≤ key y := by
  have : Std.Total fun x y : α => key x ≤ key y := ⟨fun x y => le_total (key x) (key y)⟩
  have : IsTrans α fun x y => key x ≤ key y := ⟨fun _ _ _ => le_trans⟩
  exact List.pairwise_insertionSort _ l

/- The elements of one key are a sorted part of the list, and stay one. -/
theorem filter_stableSort (key : α → ℕ) (l : List α) (k : ℕ) :
    (stableSort key l).filter (fun x => key x = k) = l.filter (fun x => key x = k) := by
  have hpart : (l.filter fun x => key x = k).Pairwise fun x y => key x ≤ key y := by
    apply List.pairwise_of_forall_mem_list
    intro x hx y hy
    have hkx : key x = k := of_decide_eq_true (List.mem_filter.mp hx).2
    have hky : key y = k := of_decide_eq_true (List.mem_filter.mp hy).2
    omega
  have hsub : (l.filter fun x => key x = k).Sublist (stableSort key l) :=
    List.sublist_insertionSort hpart List.filter_sublist
  have hsub' := hsub.filter fun x => decide (key x = k)
  rw [List.filter_filter] at hsub'
  simp only [Bool.and_self] at hsub'
  exact (hsub'.eq_of_length ((stableSort_perm key l).symm.filter _).length_eq).symm

theorem stableSort_pairwise {R : α → α → Prop} (h : l.Pairwise R) :
    (stableSort key l).Pairwise fun x y => key x < key y ∨ key x = key y ∧ R x y := by
  rw [List.pairwise_iff_forall_sublist]
  intro x y hxy
  have hle : key x ≤ key y := List.pairwise_iff_forall_sublist.mp (stableSort_sorted key l) hxy
  rcases Nat.lt_or_eq_of_le hle with hlt | heq
  · exact Or.inl hlt
  · have hpart := hxy.filter fun z => decide (key z = key y)
    rw [filter_stableSort] at hpart
    simp only [List.filter_cons, heq, decide_true, if_true, List.filter_nil] at hpart
    exact Or.inr ⟨heq, List.pairwise_iff_forall_sublist.mp h (hpart.trans List.filter_sublist)⟩

end StableSort

end Gather
