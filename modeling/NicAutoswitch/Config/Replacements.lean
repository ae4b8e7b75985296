import Mathlib.Data.List.Basic
import NicAutoswitch.Config.Watcher

/-!
# Replacements of the configuration file

The loop remembers the last observation, also a missing file, and compares with it. A file
that comes back after it was missing, or comes back older, is not reported.
-/

namespace NicAutoswitch.Config.Watcher
open Transition

variable {T : Type}

/- The last observation. -/
def lastObserved (l : List (Option T × Option ConfigEvent)) : Option (Option T) :=
  (l.map Prod.fst).getLast?

/- The modification time that was seen last, whether or not the file is missing since. -/
def lastSeen (l : List (Option T × Option ConfigEvent)) : Option T :=
  (l.filterMap Prod.fst).getLast?

/- Every replacement is reported, and every deletion and nothing else as a deletion. -/
structure WatchTask.MissesNothing (t : WatchTask T) : Prop where
  modified : ∀ pre now event post, t.observed = pre ++ (some now, event) :: post →
    ∀ seen, lastSeen pre = some seen → seen ≠ now → event = some .modified
  deleted : ∀ pre current event post, t.observed = pre ++ (current, event) :: post →
    (event = some .deleted ↔ current = none ∧ ∃ before, lastObserved pre = some (some before))

/- The condition: a file whose modification time is another than the one seen last was there at
the observation before, and is newer. -/
def WatchTask.OnlyGrows [LT T] (t : WatchTask T) : Prop :=
  ∀ pre now event post, t.observed = pre ++ (some now, event) :: post →
    ∀ seen, lastSeen pre = some seen → seen ≠ now →
      lastObserved pre = some (some seen) ∧ seen < now

theorem lastObserved_append (l : List (Option T × Option ConfigEvent)) (current : Option T)
    (event : Option ConfigEvent) : lastObserved (l ++ [(current, event)]) = some current := by
  unfold lastObserved
  rw [List.map_append]
  exact List.getLast?_concat

/- A file that was there at the last observation was seen then. -/
theorem lastSeen_of_lastObserved {l : List (Option T × Option ConfigEvent)} {before : T}
    (h : lastObserved l = some (some before)) : lastSeen l = some before := by
  rcases List.eq_nil_or_concat l with rfl | ⟨init, ⟨current, event⟩, rfl⟩
  · cases h
  · rw [List.concat_eq_append, lastObserved_append] at h
    obtain rfl := Option.some.inj h
    unfold lastSeen
    rw [List.concat_eq_append, List.filterMap_append]
    exact List.getLast?_concat

/- The splits of a list at an element when another one is appended. -/
theorem split_concat {α : Type} {l pre post : List α} {x y : α} (h : l ++ [x] = pre ++ y :: post) :
    (post = [] ∧ pre = l ∧ y = x) ∨ ∃ post', post = post' ++ [x] ∧ l = pre ++ y :: post' := by
  rcases List.eq_nil_or_concat post with rfl | ⟨post', z, rfl⟩
  · obtain ⟨hl, hx⟩ := List.append_inj' h rfl
    exact .inl ⟨rfl, hl.symm, (List.singleton_inj.mp hx).symm⟩
  · rw [List.concat_eq_append, ← List.cons_append, ← List.append_assoc] at h
    obtain ⟨hl, hx⟩ := List.append_inj' h rfl
    obtain rfl := List.singleton_inj.mp hx
    exact .inr ⟨post', List.concat_eq_append, hl⟩

variable [LinearOrder T]

/- What the loop remembers, and what it sent. -/
structure WatchTask.Follows (t : WatchTask T) : Prop where
  remembers : match t.stage with
    | .spawned => t.observed = []
    | .checking last | .sleeping last => lastObserved t.observed = some last
    | .left => True
  sends : ∀ pre current event post, t.observed = pre ++ (current, event) :: post →
    event = (lastObserved pre).bind fun last => eventOn last current

theorem WatchTask.Follows.initial : ({} : WatchTask T).Follows where
  remembers := rfl
  sends pre current event post h := by cases pre <;> cases h

theorem WatchTask.Follows.resume {t : WatchTask T} (h : t.Follows) (shutdown : Bool)
    (current : Option T) : (t.resume shutdown current).Follows := by
  have hr := h.remembers
  unfold WatchTask.resume
  cases hs : t.stage with
  | spawned =>
    refine ⟨rfl, ?_⟩
    intro pre current' event post hsplit
    obtain ⟨-, rfl, hx⟩ | ⟨post', -, hl⟩ := split_concat (l := []) hsplit
    · cases hx
      rfl
    · cases pre <;> cases hl
  | checking last =>
    rw [hs] at hr
    refine ⟨?_, h.sends⟩
    cases shutdown with
    | false => exact hr
    | true => trivial
  | sleeping last =>
    rw [hs] at hr
    refine ⟨lastObserved_append _ _ _, ?_⟩
    intro pre current' event post hsplit
    obtain ⟨-, rfl, hx⟩ | ⟨post', -, hl⟩ := split_concat hsplit
    · cases hx
      change lastObserved t.observed = some last at hr
      rw [hr]
      rfl
    · exact h.sends pre current' event post' hl
  | left => exact h

theorem follows_run (acts : List (Act T)) {t : WatchTask T} (ht : t ∈ (run step {} acts).tasks) :
    t.Follows :=
  run_preserves step (fun w => ∀ t ∈ w.tasks, t.Follows)
    (fun _ act h => forall_tasks_step WatchTask.Follows .initial
      (fun shutdown _ current ht => ht.resume shutdown current) act h)
    {} acts nofun t ht

theorem nothing_missed_iff (acts : List (Act T)) {t : WatchTask T}
    (ht : t ∈ (run step {} acts).tasks) : t.MissesNothing ↔ t.OnlyGrows := by
  have hsends := (follows_run acts ht).sends
  apply Iff.intro
  · intro h pre now event post hsplit seen hseen hne
    have hm := h.modified pre now event post hsplit seen hseen hne
    rw [hsends pre (some now) event post hsplit] at hm
    obtain ⟨last, hlast, he⟩ := Option.bind_eq_some_iff.mp hm
    obtain ⟨t', _, rfl, hnow, hlt⟩ := (eventOn_modified_iff last (some now)).mp he
    cases hnow
    obtain rfl : t' = seen := Option.some.inj ((lastSeen_of_lastObserved hlast).symm.trans hseen)
    exact ⟨hlast, hlt⟩
  · intro h
    constructor
    · intro pre now event post hsplit seen hseen hne
      obtain ⟨hlast, hlt⟩ := h pre now event post hsplit seen hseen hne
      rw [hsends pre (some now) event post hsplit, hlast]
      exact (eventOn_modified_iff (some seen) (some now)).mpr ⟨seen, now, rfl, rfl, hlt⟩
    · intro pre current event post hsplit
      rw [hsends pre current event post hsplit, Option.bind_eq_some_iff]
      simp only [eventOn_deleted_iff]
      apply Iff.intro
      · rintro ⟨_, hlast, hcurrent, before, rfl⟩
        exact ⟨hcurrent, before, hlast⟩
      · rintro ⟨hcurrent, before, hlast⟩
        exact ⟨some before, hlast, hcurrent, before, rfl⟩

/-! ### One task, alone -/

/- The watcher is started and its task observes a sequence. -/
def watching (first : Option T) (rest : List (Option T)) : List (Act T) :=
  .start :: .resume 0 first :: rest.flatMap fun current => [.resume 0 none, .resume 0 current]

theorem observes (w : ConfigWatcher T) (t : WatchTask T) (last : Option T) (rest : List (Option T))
    (hw : w.shutdown = false) (ht : w.tasks = [t]) (hs : t.stage = .checking last) :
    ∃ t', (run step w (rest.flatMap fun current =>
        [.resume 0 none, .resume 0 current])).tasks = [t'] ∧
      t'.observed.map Prod.fst = t.observed.map Prod.fst ++ rest := by
  induction rest generalizing w t last with
  | nil => exact ⟨t, ht, (List.append_nil _).symm⟩
  | cons current rest ih =>
    obtain ⟨enabled, _, _⟩ := w
    obtain ⟨_, observed⟩ := t
    subst hw ht hs
    let event := eventOn last current
    obtain ⟨t', ht', ho⟩ := ih ⟨enabled, false, [⟨.checking current, observed ++ [(current, event)]⟩]⟩
      _ current rfl rfl rfl
    refine ⟨t', ht', ho.trans ?_⟩
    rw [List.map_append, List.append_assoc]
    rfl

/- Every sequence is observed in some run. -/
theorem watching_observed (first : Option T) (rest : List (Option T)) :
    ∃ t, (run step {} (watching first rest)).tasks = [t] ∧
      t.observed.map Prod.fst = first :: rest :=
  observes ⟨true, false, [⟨.checking first, [(first, none)]⟩]⟩ _ first rest rfl rfl rfl

/- The file is deleted and another one is there at the next observation; it is replaced by an
older one. -/
theorem replacement_unreported :
    (∃ t, (run step ({} : ConfigWatcher ℕ) (watching (some 1) [none, some 2])).tasks = [t] ∧
      ¬ t.MissesNothing) ∧
    ∃ t, (run step ({} : ConfigWatcher ℕ) (watching (some 2) [some 1])).tasks = [t] ∧
      ¬ t.MissesNothing := by
  constructor
  · refine ⟨_, rfl, fun h => ?_⟩
    have hm := h.modified [(some 1, none), (none, some .deleted)] 2 none [] rfl 1 rfl (by decide)
    cases hm
  · refine ⟨_, rfl, fun h => ?_⟩
    have hm := h.modified [(some 2, none)] 1 none [] rfl 2 rfl (by decide)
    cases hm

theorem nothing_missed_grown :
    WatchTask.MissesNothing (T := ℕ) ⟨.checking (some 2), [(some 1, none), (some 2, some .modified)]⟩ ↔
      WatchTask.OnlyGrows (T := ℕ)
        ⟨.checking (some 2), [(some 1, none), (some 2, some .modified)]⟩ :=
  nothing_missed_iff (watching (some 1) [some 2]) (by decide)

end NicAutoswitch.Config.Watcher
