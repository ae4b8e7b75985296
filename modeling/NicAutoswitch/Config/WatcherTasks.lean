import NicAutoswitch.Config.Watcher

/-!
# The tasks of the configuration watcher

The shutdown flag is set by `stop` and never cleared, and every `start` spawns a task: a
watcher that is started again after `stop` watches nothing, one that is started twice
watches twice.
-/

namespace NicAutoswitch.Config.Watcher
open Transition

variable {T : Type}

/- The steps that a task can still make once the flag is set. -/
def Stage.rank : Stage T → ℕ
  | .spawned | .sleeping _ => 2
  | .checking _ => 1
  | .left => 0

theorem Stage.eq_left_of_rank {stage : Stage T} (h : stage.rank ≤ 0) : stage = .left := by
  cases stage with
  | left => rfl
  | spawned | checking _ | sleeping _ => cases h

theorem Stage.rank_le (stage : Stage T) : stage.rank ≤ 2 := by
  cases stage with
  | spawned | sleeping _ => exact le_rfl
  | checking _ => exact Nat.le_succ 1
  | left => exact Nat.zero_le 2

/- The calls of a run. -/
def calls (acts : List (Act T)) : List (Act T) := acts.filter fun act => !act.isStep

theorem calls_eq (acts : List (Act T)) : ∀ act ∈ calls acts, act = .start ∨ act = .stop := by
  intro act hact
  have hcall := (List.mem_filter.mp hact).2
  cases act with
  | start => exact .inl rfl
  | stop => exact .inr rfl
  | resume i current => cases hcall

variable [LinearOrder T]

/- However the tasks go on, the task at the position does not leave its loop. -/
def KeepsLooping (w : ConfigWatcher T) (i : ℕ) : Prop :=
  ∀ acts : List (Act T), (∀ act ∈ acts, act.isStep = true) →
    ∃ t, (run step w acts).tasks[i]? = some t ∧ t.stage ≠ .left

def Act.isStepOf (i : ℕ) : Act T → Bool
  | .resume j _ => j = i
  | .start | .stop => false

/- However the tasks go on, the task at the position leaves its loop after some of its steps. -/
def Leaves (w : ConfigWatcher T) (i : ℕ) : Prop :=
  ∃ n, ∀ acts : List (Act T), (∀ act ∈ acts, act.isStep = true) →
    n ≤ acts.countP (Act.isStepOf i) →
      ∃ t, (run step w acts).tasks[i]? = some t ∧ t.stage = .left

/- Enabled means exactly one live task, disabled means none. -/
structure OneWatcher (w : ConfigWatcher T) : Prop where
  enabled : w.enabled = true → ∃! i, KeepsLooping w i
  disabled : w.enabled = false → ∀ i < w.tasks.length, Leaves w i

/-! ### One task -/

theorem rank_resume (t : WatchTask T) (current : Option T) :
    (t.resume true current).stage.rank = t.stage.rank - 1 := by
  unfold WatchTask.resume
  cases hs : t.stage with
  | left => rw [hs]; rfl
  | spawned | checking _ | sleeping _ => rfl

theorem resume_ne_left {t : WatchTask T} (h : t.stage ≠ .left) (current : Option T) :
    (t.resume false current).stage ≠ .left := by
  unfold WatchTask.resume
  cases hs : t.stage with
  | left => exact absurd hs h
  | spawned | checking _ | sleeping _ => nofun

variable {w : ConfigWatcher T} {i : ℕ}

/- A step of some task leaves the task at a position where it is, or is its own step. -/
theorem step_task {act : Act T} (hact : act.isStep = true) {t : WatchTask T}
    (ht : w.tasks[i]? = some t) : (step w act).shutdown = w.shutdown ∧
      ((act.isStepOf i = false ∧ (step w act).tasks[i]? = some t) ∨
        act.isStepOf i = true ∧
          ∃ current, (step w act).tasks[i]? = some (t.resume w.shutdown current)) := by
  cases act with
  | start | stop => cases hact
  | resume j current =>
    by_cases hj : j = i
    · subst hj
      rw [step_resume ht]
      refine ⟨rfl, .inr ⟨decide_eq_true rfl, current, ?_⟩⟩
      exact List.getElem?_set_self (List.getElem?_eq_some_iff.mp ht).1
    · cases hu : w.tasks[j]? with
      | none =>
        rw [step_resume_none hu]
        exact ⟨rfl, .inl ⟨decide_eq_false hj, ht⟩⟩
      | some u =>
        rw [step_resume hu]
        exact ⟨rfl, .inl ⟨decide_eq_false hj, (List.getElem?_set_ne hj).trans ht⟩⟩

theorem keepsLooping_of_running (hw : w.shutdown = false) {t : WatchTask T}
    (ht : w.tasks[i]? = some t) (hs : t.stage ≠ .left) : KeepsLooping w i := by
  intro acts hacts
  refine (run_invariant step
    (fun w => w.shutdown = false ∧ ∃ t, w.tasks[i]? = some t ∧ t.stage ≠ .left)
    (fun act => act.isStep = true) ?_ w acts hacts ⟨hw, t, ht, hs⟩).2
  rintro v act hact ⟨hv, u, hu, hne⟩
  obtain ⟨hflag, ⟨-, hstep⟩ | ⟨-, current, hstep⟩⟩ := step_task hact hu
  · exact ⟨hflag.trans hv, u, hstep, hne⟩
  · rw [hv] at hstep
    exact ⟨hflag.trans hv, _, hstep, resume_ne_left hne current⟩

theorem leaves_of_shutdown (hw : w.shutdown = true) (hi : i < w.tasks.length) : Leaves w i := by
  have hrank : ∀ (acts : List (Act T)) (w : ConfigWatcher T) (t : WatchTask T),
      w.shutdown = true → w.tasks[i]? = some t → (∀ act ∈ acts, act.isStep = true) →
      ∃ t', (run step w acts).tasks[i]? = some t' ∧
        t'.stage.rank ≤ t.stage.rank - acts.countP (Act.isStepOf i) := by
    intro acts
    induction acts with
    | nil => intro w t _ ht _; exact ⟨t, ht, le_rfl⟩
    | cons act acts ih =>
      intro w t hw ht hacts
      obtain ⟨hact, hrest⟩ := List.forall_mem_cons.mp hacts
      obtain ⟨hflag, ⟨hown, hstep⟩ | ⟨hown, current, hstep⟩⟩ := step_task hact ht
      · rw [List.countP_cons_of_neg (by rw [hown]; decide)]
        exact ih (step w act) t (hflag.trans hw) hstep hrest
      · obtain ⟨t', ht', hle⟩ := ih (step w act) _ (hflag.trans hw) hstep hrest
        refine ⟨t', ht', ?_⟩
        rw [hw, rank_resume] at hle
        rw [List.countP_cons_of_pos hown]
        omega
  refine ⟨2, fun acts hacts hn => ?_⟩
  obtain ⟨t', ht', hle⟩ := hrank acts w w.tasks[i] hw (List.getElem?_eq_getElem hi) hacts
  have h2 := Stage.rank_le w.tasks[i].stage
  exact ⟨t', ht', Stage.eq_left_of_rank (by omega)⟩

/- A task that leaves its loop under every schedule does not keep looping. -/
theorem not_keepsLooping_of_leaves (h : Leaves w i) : ¬ KeepsLooping w i := by
  intro hk
  obtain ⟨n, hn⟩ := h
  let acts : List (Act T) := List.replicate n (.resume i none)
  have hacts : ∀ act ∈ acts, act.isStep = true := by
    intro act hact
    rw [List.eq_of_mem_replicate hact]
    rfl
  have hcount : acts.countP (Act.isStepOf i) = n := by
    rw [List.countP_replicate]
    simp [Act.isStepOf]
  obtain ⟨t, ht, hleft⟩ := hn acts hacts hcount.ge
  obtain ⟨t', ht', hne⟩ := hk acts hacts
  exact hne (Option.some.inj (ht.symm.trans ht') ▸ hleft)

theorem lt_of_keepsLooping (h : KeepsLooping w i) : i < w.tasks.length := by
  obtain ⟨_, ht, _⟩ := h [] nofun
  exact (List.getElem?_eq_some_iff.mp ht).1

/-! ### The calls -/

/- What the calls leave behind. -/
structure Summary (w : ConfigWatcher T) (calls : List (Act T)) : Prop where
  enabled : w.enabled = true ↔ calls.getLast? = some .start
  shutdown : w.shutdown = true ↔ .stop ∈ calls
  spawned : w.tasks.length = calls.count .start
  running : w.shutdown = false → ∀ t ∈ w.tasks, t.stage ≠ .left

theorem Summary.step {cs : List (Act T)} (h : Summary w cs) (act : Act T) :
    Summary (step w act) (cs ++ calls [act]) := by
  cases act with
  | start =>
    change Summary _ (cs ++ [.start])
    constructor
    case enabled => simp [Watcher.step]
    case shutdown => simpa [Watcher.step] using h.shutdown
    case spawned => simp [Watcher.step, h.spawned]
    case running =>
      intro hw
      refine List.forall_mem_append.mpr ⟨h.running hw, List.forall_mem_singleton.mpr fun hl => ?_⟩
      cases hl
  | stop =>
    change Summary _ (cs ++ [.stop])
    constructor
    case enabled => simp [Watcher.step]
    case shutdown => simp [Watcher.step]
    case spawned => simp [Watcher.step, h.spawned]
    case running =>
      intro hw
      cases hw
  | resume i current =>
    change Summary _ (cs ++ [])
    rw [List.append_nil]
    refine resume_rec (P := (Summary · cs)) h fun t ht =>
      ⟨h.enabled, h.shutdown, List.length_set.trans h.spawned, ?_⟩
    intro hw u hu
    rcases List.mem_or_eq_of_mem_set hu with hm | rfl
    · exact h.running hw u hm
    · rw [hw]
      exact resume_ne_left (h.running hw t (List.mem_of_getElem? ht)) current

theorem summary_run (acts : List (Act T)) : Summary (run step {} acts) (calls acts) := by
  induction acts using List.reverseRecOn with
  | nil => exact ⟨iff_of_false nofun nofun, iff_of_false nofun nofun, rfl, nofun⟩
  | append_singleton acts act ih =>
    rw [run_append]
    unfold calls at ih ⊢
    rw [List.filter_append]
    exact ih.step act

/- With the flag set every task leaves, with the flag clear every task keeps looping. -/
theorem Summary.oneWatcher_iff {cs : List (Act T)} (h : Summary w cs) :
    OneWatcher w ↔ (w.enabled = true → ¬ w.shutdown = true ∧ w.tasks.length = 1) ∧
      (¬ w.enabled = true → w.shutdown = true ∨ w.tasks.length = 0) := by
  cases hw : w.shutdown with
  | true =>
    have hleaves : ∀ i, ¬ KeepsLooping w i := fun i hi =>
      not_keepsLooping_of_leaves (leaves_of_shutdown hw (lt_of_keepsLooping hi)) hi
    apply Iff.intro
    · intro ho
      refine ⟨fun he => ?_, fun _ => .inl rfl⟩
      obtain ⟨i, hi, -⟩ := ho.enabled he
      exact absurd hi (hleaves i)
    · rintro ⟨hon, -⟩
      exact ⟨fun he => absurd rfl (hon he).1, fun _ _ hi => leaves_of_shutdown hw hi⟩
  | false =>
    have hloops : ∀ i, i < w.tasks.length → KeepsLooping w i := fun i hi =>
      keepsLooping_of_running hw (List.getElem?_eq_getElem hi)
        (h.running hw _ (List.getElem_mem hi))
    apply Iff.intro
    · intro ho
      constructor
      · intro he
        obtain ⟨i, hi, hunique⟩ := ho.enabled he
        have hlt := lt_of_keepsLooping hi
        have hle : w.tasks.length ≤ 1 := by
          by_contra hmany
          have h0 := hunique 0 (hloops 0 (by omega))
          have h1 := hunique 1 (hloops 1 (by omega))
          omega
        exact ⟨nofun, by omega⟩
      · intro he
        refine .inr (Nat.eq_zero_of_not_pos fun hpos => ?_)
        exact not_keepsLooping_of_leaves (ho.disabled (eq_false_of_ne_true he) 0 hpos) (hloops 0 hpos)
    · rintro ⟨hon, hoff⟩
      constructor
      · intro he
        have hone := (hon he).2
        refine ⟨0, hloops 0 (by omega), fun j hj => ?_⟩
        have hlt := lt_of_keepsLooping hj
        omega
      · intro he i hi
        rcases hoff (Bool.eq_false_iff.mp he) with hf | hzero
        · cases hf
        · omega

/- The calls are none, or end with `stop`, or are a single `start`. -/
theorem one_watcher_iff (acts : List (Act T)) :
    OneWatcher (run step {} acts) ↔
      calls acts = [] ∨ (calls acts).getLast? = some .stop ∨ calls acts = [.start] := by
  have h := summary_run acts
  have hcalls := calls_eq acts
  rw [h.oneWatcher_iff, h.spawned, h.enabled, h.shutdown]
  rcases List.eq_nil_or_concat (calls acts) with hnil | ⟨init, last, hconcat⟩
  · rw [hnil]
    simp
  · rw [hconcat, List.concat_eq_append] at hcalls ⊢
    rcases hcalls last (List.mem_append_right init (List.mem_singleton_self last)) with rfl | rfl
    · have hinit : .stop ∉ init ∧ init.count .start = 0 ↔ init = [] := by
        apply Iff.intro
        · rintro ⟨hstop, hstart⟩
          refine List.eq_nil_iff_forall_not_mem.mpr fun act hact => ?_
          rcases hcalls act (List.mem_append_left _ hact) with rfl | rfl
          · exact List.count_eq_zero.mp hstart hact
          · exact hstop hact
        · rintro rfl
          exact ⟨nofun, rfl⟩
      simp [List.count_append, hinit]
    · simp

/- The flag of the first `stop` stops the task of the second `start`; two `start`s leave two
tasks. -/
theorem restart_and_double_start :
    ((run step ({} : ConfigWatcher ℕ) [.start, .stop, .start]).enabled = true ∧
      ¬ OneWatcher (run step ({} : ConfigWatcher ℕ) [.start, .stop, .start])) ∧
    (run step ({} : ConfigWatcher ℕ) [.start, .start]).enabled = true ∧
      ¬ OneWatcher (run step ({} : ConfigWatcher ℕ) [.start, .start]) := by
  rw [(summary_run (T := ℕ) [.start, .stop, .start]).oneWatcher_iff,
    (summary_run (T := ℕ) [.start, .start]).oneWatcher_iff]
  decide

end NicAutoswitch.Config.Watcher
