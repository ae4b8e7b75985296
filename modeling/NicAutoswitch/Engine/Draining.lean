import NicAutoswitch.Engine.InterleavedRoutes

/-!
# After a stop

A handler that waits for the kernel when the dispatcher is stopped goes on with its loop, and
records what it applies. Nothing else is done until the next start.
-/

namespace NicAutoswitch.Engine.Interleavings
open HashMaps Schema Monitor Router StateProg Transition Tasks RouteLifetime

variable {κ : Type} (rt : Rtnetlink κ)

/- What the handler at the place had still to do. -/
def todoAt (tasks : List Task) (i : ℕ) : List Work := (tasks[i]?.map todo).getD []

theorem todoAt_of {tasks : List Task} {i : ℕ} {task : Task} (h : tasks[i]? = some task) :
    todoAt tasks i = todo task := by
  unfold todoAt
  rw [h]
  rfl

theorem mem_todoAt {tasks : List Task} {i : ℕ} {w : Work} (h : w ∈ todoAt tasks i) :
    ∃ task ∈ tasks, w ∈ todo task := by
  cases hi : tasks[i]? with
  | none =>
    unfold todoAt at h
    rw [hi] at h
    exact absurd h List.not_mem_nil
  | some task =>
    rw [todoAt_of hi] at h
    exact ⟨task, List.mem_of_getElem? hi, h⟩

/- Since the stop, the handlers have gone on with what they had to do, and what is recorded is
theirs. -/
structure Dwindled (before : List Task) (c : Concurrent κ) : Prop where
  state : c.dispatcher.state = .stopped
  todo : ∀ i task, c.tasks[i]? = some task → todo task <:+ todoAt before i
  entries : ∀ n a, c.dispatcher.activeRoute n = some a →
    ∃ task ∈ before, ∃ w ∈ Interleavings.todo task, Tracks w n a

theorem activeRoute_stop (d : EventDispatcher) (n : String) : d.stop.activeRoute n = none :=
  AList.lookup_empty n

/- On a stopped dispatcher a handler does no more than it had to do. -/
theorem resume_stopped {d d' : EventDispatcher} {task task' : Task} (hs : d.state = .stopped)
    (hr : resume d task = some (task', d')) :
    d'.state = .stopped ∧ todo task' <:+ todo task ∧ ∀ n a, d'.activeRoute n = some a →
      d.activeRoute n = some a ∨ ∃ w ∈ todo task, Tracks w n a := by
  cases task with
  | spawned order event =>
    have hnot : d.state ≠ .running := by rw [hs]; simp
    simp only [resume, eventWork, if_pos hnot, advance, Option.some.injEq, Prod.mk.injEq] at hr
    obtain ⟨rfl, rfl⟩ := hr
    exact ⟨hs, List.suffix_rfl, fun _ _ => .inl⟩
  | finished => cases hr
  | calling w stage rest =>
    cases stage with
    | ended ok =>
      have hadv := advanced rest { d with executor := w.complete d.executor ok }
      rw [Option.some.inj hr] at hadv
      refine ⟨hadv.same.state.trans hs, hadv.todo.trans (List.suffix_cons w rest), ?_⟩
      intro n a ha
      rcases hadv.entries n a ha with hmid | ⟨w', hw', htracks, _⟩
      · exact (entry_complete hmid).imp_right fun h => ⟨w, List.mem_cons_self, h.2⟩
      · exact .inr ⟨w', List.mem_cons_of_mem w hw', htracks⟩
    | addRule _ => cases hr
    | getLink _ => cases hr
    | addRoute _ _ => cases hr
    | delRule _ _ => cases hr
    | delRoute _ => cases hr

theorem getElem?_set_cases {tasks : List Task} {i j : ℕ} {new task : Task}
    (h : (tasks.set j new)[i]? = some task) : tasks[i]? = some task ∨ i = j ∧ task = new := by
  by_cases hij : j = i
  · subst hij
    have hlt : j < tasks.length := by
      rw [← List.length_set (a := new)]
      exact (List.getElem?_eq_some_iff.mp h).1
    rw [List.getElem?_set_self hlt] at h
    exact .inr ⟨rfl, (Option.some.inj h).symm⟩
  · rw [List.getElem?_set_ne hij] at h
    exact .inl h

theorem getElem?_append_cases {tasks : List Task} {i : ℕ} {new task : Task}
    (h : (tasks ++ [new])[i]? = some task) : tasks[i]? = some task ∨ task = new := by
  rcases lt_or_ge i tasks.length with hlt | hge
  · rw [List.getElem?_append_left hlt] at h
    exact .inl h
  · rw [List.getElem?_append_right hge] at h
    exact .inr (List.mem_singleton.mp (List.mem_of_getElem? h))

theorem Dwindled.step {before : List Task} {c : Concurrent κ} (h : Dwindled before c) (i : ℕ) :
    Dwindled before (step rt c i) := by
  have hstep := stepped rt c i
  generalize Tasks.step rt c i = c' at hstep ⊢
  cases hstep with
  | idle => exact h
  | resumed task task' d hi hr =>
    obtain ⟨hs, htodo, hentries⟩ := resume_stopped h.state hr
    have hle := h.todo i task hi
    refine ⟨hs, fun j t hj => ?_, fun n a ha => ?_⟩
    · rcases getElem?_set_cases hj with hold | ⟨rfl, rfl⟩
      · exact h.todo j t hold
      · exact htodo.trans hle
    · rcases hentries n a ha with hold | ⟨w, hw, htracks⟩
      · exact h.entries n a hold
      · obtain ⟨t, ht, hwt⟩ := mem_todoAt (hle.subset hw)
        exact ⟨t, ht, w, hwt, htracks⟩
  | served w stage rest hi hw =>
    refine ⟨h.state, fun j t hj => ?_, h.entries⟩
    rcases getElem?_set_cases hj with hold | ⟨rfl, rfl⟩
    · exact h.todo j t hold
    · have hle := h.todo j _ hi
      exact hle

theorem Dwindled.perform {before : List Task} {c : Concurrent κ} (h : Dwindled before c)
    {turn : Turn} (ht : turn ≠ .start) : Dwindled before (perform rt c turn) := by
  cases turn with
  | start => exact absurd rfl ht
  | task i => exact h.step rt i
  | updateConfig config => exact ⟨h.state, h.todo, h.entries⟩
  | setRouteManager rm => exact ⟨h.state, h.todo, h.entries⟩
  | stop =>
    refine ⟨rfl, h.todo, fun n a ha => ?_⟩
    have hnone : (Interleavings.perform rt c .stop).dispatcher.activeRoute n = none :=
      activeRoute_stop c.dispatcher n
    rw [hnone] at ha
    cases ha
  | spawn order event =>
    refine ⟨h.state, fun j t hj => ?_, h.entries⟩
    rcases getElem?_append_cases hj with hold | rfl
    · exact h.todo j t hold
    · exact List.nil_suffix

theorem dwindled_stop (c : Concurrent κ) : Dwindled c.tasks (perform rt c .stop) := by
  refine ⟨rfl, fun i task hi => ?_, fun n a ha => ?_⟩
  · have hat : todoAt c.tasks i = todo task := todoAt_of hi
    rw [hat]
  · have hnone : (perform rt c .stop).dispatcher.activeRoute n = none :=
      activeRoute_stop c.dispatcher n
    rw [hnone] at ha
    cases ha

/- After a stop, and until the next start, each handler only goes on with what it had still to do
then, a handler that had not begun does nothing, and each active route has been recorded by a
handler that was waiting for the kernel at the stop. -/
theorem stop_dwindles (c : Concurrent κ) (turns : List Turn)
    (hstart : ∀ turn ∈ turns, turn ≠ .start) :
    Throughout (perform rt) (Dwindled c.tasks) (perform rt c .stop) turns :=
  throughout_of_invariant (perform rt) (Dwindled c.tasks) (· ≠ .start)
    (fun _ _ ht h => h.perform rt ht) _ turns hstart (dwindled_stop rt c)

/- A handler waits for the kernel to look up eth0, in order to apply the rule of the LAN. -/
def lookingUp : Concurrent Unit :=
  ⟨(EventDispatcher.new LinkState.twoLinks .default).start, (),
    [.calling (.applyDefault LinkState.toEth0 100) (.getLink (.v4 ⟨0x0a000000, 8, len8_v4⟩)) []]⟩

theorem stop_dwindles_looking_up :
    Throughout (perform grantAll) (Dwindled lookingUp.tasks) (perform grantAll lookingUp .stop)
      [.task 0, .updateConfig LinkState.twoLinks, .task 0, .task 0] :=
  stop_dwindles grantAll lookingUp [.task 0, .updateConfig LinkState.twoLinks, .task 0, .task 0]
    (by simp)

/- The stop does not keep the route of the LAN from becoming active. -/
example : (run (perform grantAll) lookingUp [.stop, .task 0, .task 0, .task 0]).dispatcher.activeRoute
    "lan" = some ⟨"lan", "eth0", 100⟩ := by
  decide

/-! ### All is quiet once the handlers are over -/

/- Nothing is left to be done. -/
structure Still (c : Concurrent κ) : Prop where
  state : c.dispatcher.state = .stopped
  todo : ∀ task ∈ c.tasks, todo task = []

/- The kernel is the same, and no route has become active. -/
structure Quieter (c c' : Concurrent κ) : Prop where
  kernel : c'.kernel = c.kernel
  entries : ∀ n a, c'.dispatcher.activeRoute n = some a → c.dispatcher.activeRoute n = some a

theorem Quieter.refl (c : Concurrent κ) : Quieter c c := ⟨rfl, fun _ _ => id⟩

theorem Quieter.trans {c c' c'' : Concurrent κ} (h : Quieter c c') (h' : Quieter c' c'') :
    Quieter c c'' :=
  ⟨h'.kernel.trans h.kernel, fun n a ha => h.entries n a (h'.entries n a ha)⟩

theorem Still.step {c : Concurrent κ} (h : Still c) (i : ℕ) :
    Still (step rt c i) ∧ Quieter c (step rt c i) := by
  have hstep := stepped rt c i
  generalize Tasks.step rt c i = c' at hstep ⊢
  cases hstep with
  | idle => exact ⟨h, .refl c⟩
  | resumed task task' d hi hr =>
    have hnil := h.todo task (mem_tasks hi)
    obtain ⟨hs, htodo, hentries⟩ := resume_stopped h.state hr
    rw [hnil] at htodo hentries
    refine ⟨⟨hs, fun t ht => ?_⟩, rfl, fun n a ha => ?_⟩
    · rcases List.mem_or_eq_of_mem_set ht with hold | rfl
      · exact h.todo t hold
      · exact List.suffix_nil.mp htodo
    · rcases hentries n a ha with hold | ⟨w, hw, _⟩
      · exact hold
      · exact absurd hw List.not_mem_nil
  | served w stage rest hi hw => cases h.todo _ (mem_tasks hi)

theorem Still.perform {c : Concurrent κ} (h : Still c) {turn : Turn} (ht : turn ≠ .start) :
    Still (perform rt c turn) ∧ Quieter c (perform rt c turn) := by
  cases turn with
  | start => exact absurd rfl ht
  | task i => exact h.step rt i
  | updateConfig config => exact ⟨⟨h.state, h.todo⟩, rfl, fun _ _ => id⟩
  | setRouteManager rm => exact ⟨⟨h.state, h.todo⟩, rfl, fun _ _ => id⟩
  | stop =>
    refine ⟨⟨rfl, h.todo⟩, rfl, fun n a ha => ?_⟩
    have hnone : (Interleavings.perform rt c .stop).dispatcher.activeRoute n = none :=
      activeRoute_stop c.dispatcher n
    rw [hnone] at ha
    cases ha
  | spawn order event =>
    refine ⟨⟨h.state, fun t ht => ?_⟩, rfl, fun _ _ => id⟩
    rcases List.mem_append.mp ht with hold | hnew
    · exact h.todo t hold
    · rw [List.mem_singleton.mp hnew]
      rfl

theorem Still.run {c : Concurrent κ} (h : Still c) (turns : List Turn)
    (hstart : ∀ turn ∈ turns, turn ≠ .start) : Quieter c (run (Interleavings.perform rt) c turns) := by
  induction turns generalizing c with
  | nil => exact .refl c
  | cons turn turns ih =>
    obtain ⟨hstill, hquiet⟩ := h.perform rt (hstart turn List.mem_cons_self)
    exact hquiet.trans (ih hstill fun t ht => hstart t (List.mem_cons_of_mem turn ht))

/- A handler that has had its turns, or had none to take, is over. -/
theorem still_of_turns (c : Concurrent κ) (turns : List Turn)
    (hstart : ∀ turn ∈ turns, turn ≠ .start)
    (hturns : ∀ i task, c.tasks[i]? = some task → turnsLeft task ≤ turns.countP (Turn.isTask i)) :
    Still (run (perform rt) (perform rt c .stop) turns) := by
  have hdw := stop_dwindles rt c turns hstart turns List.prefix_rfl
  refine ⟨hdw.state, fun task hm => ?_⟩
  obtain ⟨i, hi⟩ := List.mem_iff_getElem?.mp hm
  have hsuffix := hdw.todo i task hi
  cases hbefore : c.tasks[i]? with
  | none =>
    unfold todoAt at hsuffix
    rw [hbefore] at hsuffix
    exact List.suffix_nil.mp hsuffix
  | some before =>
    cases before with
    | spawned order event =>
      rw [todoAt_of hbefore] at hsuffix
      exact List.suffix_nil.mp hsuffix
    | finished =>
      rw [todoAt_of hbefore] at hsuffix
      exact List.suffix_nil.mp hsuffix
    | calling w stage rest =>
      have hbegun : Begun i (perform rt c .stop) := ⟨_, hbefore, hasBegun_calling w stage rest⟩
      have hleft : leftOf i (perform rt c .stop) = turnsLeft (.calling w stage rest) :=
        leftOf_of hbefore
      have hover := begun_ends rt hbegun turns (hleft ▸ hturns i _ hbefore)
      rw [hi] at hover
      cases hover
      rfl

/- A stop is over: once each handler that was waiting for the kernel has had the turns of what it
had still to do, nothing changes the kernel any more or makes a route active, whatever events and
reloads come, until the next start. -/
theorem stop_drains (c : Concurrent κ) (turns later : List Turn)
    (hstart : ∀ turn ∈ turns ++ later, turn ≠ .start)
    (hturns : ∀ i task, c.tasks[i]? = some task → turnsLeft task ≤ turns.countP (Turn.isTask i)) :
    Quieter (run (perform rt) c (.stop :: turns))
      (run (perform rt) c (.stop :: turns ++ later)) := by
  have hstill := still_of_turns rt c turns
    (fun turn ht => hstart turn (List.mem_append_left later ht)) hturns
  rw [List.cons_append, run_cons, run_cons, run_append]
  exact hstill.run rt later fun turn ht => hstart turn (List.mem_append_right turns ht)

theorem stop_drains_looking_up :
    Quieter (run (perform grantAll) lookingUp [.stop, .task 0, .task 0, .task 0])
      (run (perform grantAll) lookingUp [.stop, .task 0, .task 0, .task 0,
        .spawn .asListed (.interfaceChanged "eth0" .up), .task 1]) := by
  refine stop_drains grantAll lookingUp [.task 0, .task 0, .task 0]
    [.spawn .asListed (.interfaceChanged "eth0" .up), .task 1] (by simp) fun i task hi => ?_
  cases i with
  | zero =>
    cases hi
    decide
  | succ i => cases hi

end NicAutoswitch.Engine.Interleavings
