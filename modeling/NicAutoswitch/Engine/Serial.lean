import NicAutoswitch.Engine.Interleavings
import NicAutoswitch.Engine.TaskAlone

/-!
# One handler at a time

The daemon awaits a handler before it begins the next one, but a reload may come while the
handler waits for the kernel. Such a run leaves what it would leave if each handler were one
step and the reload came after it.
-/

namespace NicAutoswitch.Engine.Interleavings
open HashMaps Schema Monitor Router StateProg Transition Tasks RouteLifetime

/- What is asked of a dispatcher as a whole. -/
inductive Demand where
  | handleEvent (order : RouteOrder) (event : NetworkEvent)
  | start
  | stop
  | updateConfig (config : Config)
  | setRouteManager (rm : RouteManager)

/- The handler is under way: it has sent a request, or has the answer. -/
def waiting : Task → Bool
  | .calling _ _ _ => true
  | _ => false

variable {κ : Type} (rt : Rtnetlink κ)

def Demand.meet (s : System κ) : Demand → System κ
  | .handleEvent order event => Dispatch.perform rt s (.handleEvent order event)
  | .start => Dispatch.perform rt s .start
  | .stop => Dispatch.perform rt s .stop
  | .updateConfig config => Dispatch.perform rt s (.updateConfig config)
  | .setRouteManager rm => { s with dispatcher := s.dispatcher.setRouteManager rm }

/- What begins with the turn. -/
def demanded (c : Concurrent κ) : Turn → List Demand
  | .spawn _ _ => []
  | .task i =>
    match c.tasks[i]? with
    | some (.spawned order event) => [.handleEvent order event]
    | _ => []
  | .start => [.start]
  | .stop => [.stop]
  | .updateConfig config => [.updateConfig config]
  | .setRouteManager rm => [.setRouteManager rm]

def Quiescent (c : Concurrent κ) : Prop := ∀ task ∈ c.tasks, waiting task = false

/- No handler is under way but that at the place, if it is. -/
def OnlyAt (i : ℕ) (tasks : List Task) : Prop :=
  ∀ j other, j ≠ i → tasks[j]? = some other → waiting other = false

/- No handler is under way when another one begins, when the dispatcher is stopped or when its
manager is replaced. Reloads and starts may come at any time. -/
def OneAtATime (c : Concurrent κ) : Turn → Prop
  | .task i => demanded c (.task i) = [] ∨ Quiescent c
  | .stop => Quiescent c
  | .setRouteManager _ => Quiescent c
  | _ => True

instance (c : Concurrent κ) : Decidable (Quiescent c) :=
  inferInstanceAs (Decidable (∀ task ∈ c.tasks, waiting task = false))

instance (c : Concurrent κ) : ∀ turn, Decidable (OneAtATime c turn)
  | .task i => inferInstanceAs (Decidable (demanded c (.task i) = [] ∨ Quiescent c))
  | .stop => inferInstanceAs (Decidable (Quiescent c))
  | .setRouteManager _ => inferInstanceAs (Decidable (Quiescent c))
  | .spawn _ _ => inferInstanceAs (Decidable True)
  | .start => inferInstanceAs (Decidable True)
  | .updateConfig _ => inferInstanceAs (Decidable True)

/-! ### What passes a handler by -/

/- The function changes nothing that a handler looks at once it has begun. -/
def Aside (f : EventDispatcher → EventDispatcher) : Prop :=
  ∀ d e, f { d with executor := e } = { f d with executor := e }

theorem Aside.executor {f : EventDispatcher → EventDispatcher} (hf : Aside f)
    (d : EventDispatcher) : (f d).executor = d.executor := by
  have h := congrArg EventDispatcher.executor (hf d d.executor)
  exact h

theorem aside_updateConfig (config : Config) :
    Aside (fun d => EventDispatcher.updateConfig d config) := fun _ _ => rfl

theorem aside_start : Aside EventDispatcher.start := by
  intro d e
  unfold EventDispatcher.start
  split_ifs <;> rfl

/- All but what is recorded is replaced. -/
theorem aside_const (d : EventDispatcher) : Aside fun d' => { d with executor := d'.executor } :=
  fun _ _ => rfl

theorem advance_aside {f : EventDispatcher → EventDispatcher} (hf : Aside f) (work : List Work)
    (d : EventDispatcher) : advance work (f d) = ((advance work d).1, f (advance work d).2) := by
  induction work generalizing d with
  | nil => rfl
  | cons w rest ih =>
    simp only [advance, hf.executor]
    split_ifs with hs
    · exact ih d
    · cases w.opening d.executor.routeManager with
      | ended ok =>
        dsimp only
        rw [← hf, ih]
      | addRule _ => rfl
      | getLink _ => rfl
      | addRoute _ _ => rfl
      | delRule _ _ => rfl
      | delRoute _ => rfl

theorem resume_aside {f : EventDispatcher → EventDispatcher} (hf : Aside f) {task : Task}
    (hb : HasBegun task) (d : EventDispatcher) :
    resume (f d) task = (resume d task).map (Prod.map id f) := by
  cases task with
  | spawned order event => exact absurd rfl (hb order event)
  | finished => rfl
  | calling w stage rest =>
    cases stage with
    | ended ok =>
      show some (advance rest { f d with executor := w.complete (f d).executor ok }) = _
      rw [hf.executor, ← hf, advance_aside hf]
      rfl
    | addRule _ => rfl
    | getLink _ => rfl
    | addRoute _ _ => rfl
    | delRule _ _ => rfl
    | delRoute _ => rfl

/- A turn of a handler alone, and the same turn with the function before it. -/
theorem step_aside {f : EventDispatcher → EventDispatcher} (hf : Aside f) {task : Task}
    (hb : HasBegun task) (d : EventDispatcher) (k : κ) :
    ∃ d' k' task', HasBegun task' ∧ step rt (alone d k task) 0 = alone d' k' task' ∧
      step rt (alone (f d) k task) 0 = alone (f d') k' task' := by
  have hresume := resume_aside hf hb d
  cases task with
  | spawned order event => exact absurd rfl (hb order event)
  | finished => exact ⟨d, k, .finished, hasBegun_finished, rfl, rfl⟩
  | calling w stage rest =>
    cases hr : resume d (.calling w stage rest) with
    | some x =>
      rw [hr] at hresume
      have hbegun : HasBegun x.1 := by
        cases stage with
        | ended ok =>
          rw [← Option.some.inj hr]
          exact (advance_turns rest _).1
        | addRule _ => cases hr
        | getLink _ => cases hr
        | addRoute _ _ => cases hr
        | delRule _ _ => cases hr
        | delRoute _ => cases hr
      refine ⟨x.2, k, x.1, hbegun, ?_, ?_⟩
      · simp only [step, alone, List.getElem?_cons_zero, hr, List.set_cons_zero]
      · simp only [step, alone, List.getElem?_cons_zero, hresume, Option.map_some, Prod.map, id,
          List.set_cons_zero]
    | none =>
      rw [hr] at hresume
      refine ⟨d, (serve rt w stage k).2, .calling w (serve rt w stage k).1 rest,
        hasBegun_calling w _ rest, ?_, ?_⟩
      · simp only [step, alone, List.getElem?_cons_zero, hr, List.set_cons_zero]
      · simp only [step, alone, List.getElem?_cons_zero, hresume, Option.map_none,
          List.set_cons_zero]

/- Applied before the rest of a handler, the function does what it does after it. -/
theorem reaches_aside {f : EventDispatcher → EventDispatcher} (hf : Aside f) {d d' : EventDispatcher}
    {k k' : κ} {task task' : Task} (hb : HasBegun task)
    (h : Reaches rt (alone d k task) (alone d' k' task')) :
    Reaches rt (alone (f d) k task) (alone (f d') k' task') := by
  obtain ⟨n, hn⟩ := h
  induction n generalizing d k task with
  | zero =>
    cases hn
    exact Reaches.refl _
  | succ n ih =>
    obtain ⟨d1, k1, task1, hb1, hstep, hstep'⟩ := step_aside rt hf hb d k
    rw [List.replicate_succ, run_cons, hstep] at hn
    refine Reaches.head ?_
    rw [hstep']
    exact ih hb1 hn

/-! ### A handler that is under way -/

theorem finished_stays (d : EventDispatcher) (k : κ) (n : ℕ) :
    run (step rt) (alone d k .finished) (List.replicate n 0) = alone d k .finished := by
  induction n with
  | zero => rfl
  | succ n ih => exact ih

theorem reaches_finished {d d' : EventDispatcher} {k k' : κ}
    (h : Reaches rt (alone d k .finished) (alone d' k' .finished)) : d = d' ∧ k = k' := by
  obtain ⟨n, hn⟩ := h
  rw [finished_stays] at hn
  cases hn
  exact ⟨rfl, rfl⟩

/- A handler comes to one end. -/
theorem reaches_unique {c : Concurrent κ} {d d' : EventDispatcher} {k k' : κ}
    (h : Reaches rt c (alone d k .finished)) (h' : Reaches rt c (alone d' k' .finished)) :
    d = d' ∧ k = k' := by
  obtain ⟨n, hn⟩ := h
  obtain ⟨m, hm⟩ := h'
  have hnm : run (step rt) c (List.replicate (n + m) 0) = alone d k .finished := by
    rw [List.replicate_add, run_append, hn, finished_stays]
  have hmn : run (step rt) c (List.replicate (n + m) 0) = alone d' k' .finished := by
    rw [Nat.add_comm, List.replicate_add, run_append, hm, finished_stays]
  cases hnm.symm.trans hmn
  exact ⟨rfl, rfl⟩

/- A handler comes to its end from each of its turns. -/
theorem reaches_tail {d d' : EventDispatcher} {k k' : κ} {task : Task}
    (h : Reaches rt (alone d k task) (alone d' k' .finished)) :
    Reaches rt (step rt (alone d k task) 0) (alone d' k' .finished) := by
  obtain ⟨n, hn⟩ := h
  cases n with
  | zero =>
    cases hn
    exact Reaches.refl _
  | succ n => exact ⟨n, hn⟩

/- A turn of a handler among others is the turn that it has alone. -/
theorem step_alone {c : Concurrent κ} {i : ℕ} {task : Task} (hi : c.tasks[i]? = some task) :
    ∃ task', step rt (alone c.dispatcher c.kernel task) 0 =
        alone (step rt c i).dispatcher (step rt c i).kernel task' ∧
      (step rt c i).tasks = c.tasks.set i task' := by
  cases hr : resume c.dispatcher task with
  | some x =>
    refine ⟨x.1, ?_, ?_⟩
    · simp only [step, alone, List.getElem?_cons_zero, hi, hr, List.set_cons_zero]
    · simp only [step, hi, hr]
  | none =>
    cases task with
    | spawned order event => cases hr
    | finished =>
      have hstays : step rt c i = c := by simp only [step, hi, resume]
      rw [hstays]
      obtain ⟨hlt, hget⟩ := List.getElem?_eq_some_iff.mp hi
      refine ⟨.finished, rfl, ?_⟩
      rw [← hget]
      exact (List.set_getElem_self hlt).symm
    | calling w stage rest =>
      refine ⟨.calling w (serve rt w stage c.kernel).1 rest, ?_, ?_⟩
      · simp only [step, alone, List.getElem?_cons_zero, hi, hr, List.set_cons_zero]
      · simp only [step, hi, hr]

/- The handlers and the same demands met as a whole: they agree, or one handler is under way
and comes, left alone, to where the demands have come. -/
inductive Behind (c : Concurrent κ) (s : System κ) : Prop
  | settled (hq : Quiescent c) (hd : c.dispatcher = s.dispatcher) (hk : c.kernel = s.kernel)
  | underWay (i : ℕ) (task : Task) (hi : c.tasks[i]? = some task) (hw : waiting task = true)
      (hothers : OnlyAt i c.tasks)
      (hr : Reaches rt (alone c.dispatcher c.kernel task)
        (alone s.dispatcher s.kernel .finished))

variable {rt}

theorem hasBegun_of_waiting {task : Task} (hw : waiting task = true) : HasBegun task := by
  intro order event h
  rw [h] at hw
  cases hw

theorem OnlyAt.set {i : ℕ} {tasks : List Task} (h : OnlyAt i tasks) (task : Task) :
    OnlyAt i (tasks.set i task) := by
  intro j other hj ho
  rw [List.getElem?_set_ne (Ne.symm hj)] at ho
  exact h j other hj ho

theorem OnlyAt.quiescent {i : ℕ} {c : Concurrent κ} (h : OnlyAt i c.tasks) {task : Task}
    (hi : c.tasks[i]? = some task) (hw : waiting task = false) : Quiescent c := by
  intro other hmem
  obtain ⟨j, hj⟩ := List.mem_iff_getElem?.mp hmem
  by_cases hji : j = i
  · rw [hji, hi] at hj
    rw [← Option.some.inj hj]
    exact hw
  · exact h j other hji hj

/- After a turn of the only handler that is under way. -/
theorem behind_of_reaches {c : Concurrent κ} {s : System κ} {i : ℕ} {task : Task}
    (hi : c.tasks[i]? = some task) (hothers : OnlyAt i c.tasks) (hb : HasBegun task)
    (hr : Reaches rt (alone c.dispatcher c.kernel task) (alone s.dispatcher s.kernel .finished)) :
    Behind rt c s := by
  cases task with
  | spawned order event => exact absurd rfl (hb order event)
  | finished =>
    obtain ⟨hd, hk⟩ := reaches_finished rt hr
    exact .settled (hothers.quiescent hi rfl) hd hk
  | calling w stage rest => exact .underWay i _ hi rfl hothers hr

theorem quiescent_others {c : Concurrent κ} (hq : Quiescent c) (i : ℕ) : OnlyAt i c.tasks :=
  fun _ other _ ho => hq other (List.mem_of_getElem? ho)

/- A turn of a handler that is known to come to the state which the demands have left. -/
theorem behind_turn {c : Concurrent κ} {s : System κ} {i : ℕ} {task : Task}
    (hi : c.tasks[i]? = some task) (hothers : OnlyAt i c.tasks)
    (hr : Reaches rt (alone c.dispatcher c.kernel task) (alone s.dispatcher s.kernel .finished)) :
    Behind rt (step rt c i) s := by
  obtain ⟨task', hstep, htasks⟩ := step_alone rt hi
  have hi' : (step rt c i).tasks[i]? = some task' := by
    rw [htasks]
    exact List.getElem?_set_self (List.getElem?_eq_some_iff.mp hi).1
  have hbegun : Begun i (perform rt c (.task i)) := by
    cases task with
    | spawned order event => exact (first_turn rt hi).1
    | finished => exact begun_kept rt ⟨_, hi, hasBegun_finished⟩
    | calling w stage rest => exact begun_kept rt ⟨_, hi, hasBegun_calling w stage rest⟩
  obtain ⟨task'', hi'', hb⟩ := hbegun
  cases hi'.symm.trans hi''
  have htail := reaches_tail rt hr
  rw [hstep] at htail
  have honly : OnlyAt i (step rt c i).tasks := by
    rw [htasks]
    exact hothers.set task'
  exact behind_of_reaches hi' honly hb htail

theorem Behind.agree {c : Concurrent κ} {s : System κ} (h : Behind rt c s) (hq : Quiescent c) :
    c.dispatcher = s.dispatcher ∧ c.kernel = s.kernel := by
  cases h with
  | settled _ hd hk => exact ⟨hd, hk⟩
  | underWay i task hi hw _ _ =>
    rw [hq task (List.mem_of_getElem? hi)] at hw
    cases hw

/- What the dispatcher is told while no handler is under way. -/
theorem Behind.told {c : Concurrent κ} {s s' : System κ} (h : Behind rt c s) (hq : Quiescent c)
    (f : EventDispatcher → EventDispatcher) (hd : s'.dispatcher = f s.dispatcher)
    (hk : s'.kernel = s.kernel) : Behind rt { c with dispatcher := f c.dispatcher } s' := by
  obtain ⟨hcd, hck⟩ := h.agree hq
  refine .settled hq ?_ (hck.trans hk.symm)
  rw [hd, ← hcd]

/- What a handler does not look at may be told at any time. -/
theorem Behind.aside {c : Concurrent κ} {s s' : System κ} (h : Behind rt c s)
    {f : EventDispatcher → EventDispatcher} (hf : Aside f) (hd : s'.dispatcher = f s.dispatcher)
    (hk : s'.kernel = s.kernel) : Behind rt { c with dispatcher := f c.dispatcher } s' := by
  cases h with
  | settled hq hcd hck => exact Behind.told (.settled hq hcd hck) hq f hd hk
  | underWay i task hi hw hothers hr =>
    refine .underWay i task hi hw hothers ?_
    rw [hd, hk]
    exact reaches_aside rt hf (hasBegun_of_waiting hw) hr

theorem quiescent_spawn {c : Concurrent κ} (hq : Quiescent c) (order : RouteOrder)
    (event : NetworkEvent) : Quiescent { c with tasks := c.tasks ++ [.spawned order event] } := by
  intro task ht
  rcases List.mem_append.mp ht with hold | hnew
  · exact hq task hold
  · rw [List.mem_singleton.mp hnew]
    rfl

theorem Behind.spawn {c : Concurrent κ} {s : System κ} (h : Behind rt c s) (order : RouteOrder)
    (event : NetworkEvent) :
    Behind rt { c with tasks := c.tasks ++ [.spawned order event] } s := by
  cases h with
  | settled hq hd hk => exact .settled (quiescent_spawn hq order event) hd hk
  | underWay i task hi hw hothers hr =>
    have hlt : i < c.tasks.length := (List.getElem?_eq_some_iff.mp hi).1
    refine .underWay i task ?_ hw (fun j other hj ho => ?_) hr
    · rw [List.getElem?_append_left hlt]
      exact hi
    · by_cases hjl : j < c.tasks.length
      · rw [List.getElem?_append_left hjl] at ho
        exact hothers j other hj ho
      · rw [List.getElem?_append_right (Nat.le_of_not_lt hjl)] at ho
        rw [List.mem_singleton.mp (List.mem_of_getElem? ho)]
        rfl

theorem Behind.step {c : Concurrent κ} {s : System κ} (h : Behind rt c s) {i : ℕ}
    (ho : OneAtATime c (.task i)) :
    Behind rt (step rt c i) (run (Demand.meet rt) s (demanded c (.task i))) := by
  unfold OneAtATime at ho
  simp only [demanded] at ho ⊢
  cases hi : c.tasks[i]? with
  | none =>
    have hstays : Tasks.step rt c i = c := by simp only [Tasks.step, hi]
    rw [hstays]
    exact h
  | some task =>
    rw [hi] at ho
    cases task with
    | spawned order event =>
      have hq : Quiescent c := ho.resolve_left (by simp)
      obtain ⟨hd, hk⟩ := h.agree hq
      refine behind_turn hi (quiescent_others hq i) ?_
      rw [hd, hk]
      exact alone_handleEvent order event s
    | finished =>
      have hstays : Tasks.step rt c i = c := by simp only [Tasks.step, hi, resume]
      rw [hstays]
      exact h
    | calling w stage rest =>
      cases h with
      | settled hq _ _ => exact absurd (hq _ (List.mem_of_getElem? hi)) (by simp [waiting])
      | underWay j task hj hw hothers hr =>
        by_cases hij : i = j
        · subst hij
          rw [hi] at hj
          cases hj
          exact behind_turn hi hothers hr
        · exact absurd (hothers i _ hij hi) (by simp [waiting])

theorem Behind.perform {c : Concurrent κ} {s : System κ} (h : Behind rt c s) {turn : Turn}
    (ho : OneAtATime c turn) :
    Behind rt (perform rt c turn) (run (Demand.meet rt) s (demanded c turn)) := by
  cases turn with
  | spawn order event => exact h.spawn order event
  | task i => exact h.step ho
  | start => exact h.aside aside_start rfl rfl
  | stop => exact h.told ho EventDispatcher.stop rfl rfl
  | updateConfig config => exact h.aside (aside_updateConfig config) rfl rfl
  | setRouteManager rm =>
    exact h.told ho (fun d => EventDispatcher.setRouteManager d rm) rfl rfl

/- All that a handler changes once it has begun is what is recorded. -/
theorem Behind.knows {c : Concurrent κ} {s : System κ} (h : Behind rt c s) :
    s.dispatcher = { c.dispatcher with executor := s.dispatcher.executor } := by
  cases h with
  | settled _ hd _ => rw [hd]
  | underWay i task hi hw _ hr =>
    have hsame := reaches_aside rt (aside_const c.dispatcher) (hasBegun_of_waiting hw) hr
    exact (reaches_unique rt hr hsame).1

/-! ### Runs -/

/- No handler has been spawned for the dispatcher. -/
def resting (d : EventDispatcher) (k : κ) : Concurrent κ := ⟨d, k, []⟩

/- A fresh dispatcher, as the other runs take it. -/
def fresh (config : Config) (rm : RouteManager) (k : κ) : System κ := ⟨.new config rm, k, []⟩

theorem quiescent_resting (d : EventDispatcher) (k : κ) : Quiescent (resting d k) :=
  fun _ h => absurd h List.not_mem_nil

theorem behind_run (d : EventDispatcher) (k : κ) {turns : List Turn}
    (h : Along (perform rt) OneAtATime (resting d k) turns) :
    Behind rt (run (perform rt) (resting d k) turns)
      (run (Demand.meet rt) ⟨d, k, []⟩ (emitted (perform rt) demanded (resting d k) turns)) :=
  run_emitted (perform rt) (Demand.meet rt) demanded (Behind rt) OneAtATime
    (fun _ _ _ ho hb => hb.perform ho) _ _ turns h (.settled (quiescent_resting d k) rfl rfl)

/- At every point the dispatcher knows what it would know, and where no handler is under way
the records and the kernel are the same too. -/
structure InSeries (c : Concurrent κ) (s : System κ) : Prop where
  knows : s.dispatcher = { c.dispatcher with executor := s.dispatcher.executor }
  agree : Quiescent c → c.dispatcher = s.dispatcher ∧ c.kernel = s.kernel

variable (rt)

/- Where handlers come one at a time, reloads and starts that come in between are the same as
after the handler: the run leaves what the demands leave, met one after another as wholes. -/
theorem serial_as_demanded (d : EventDispatcher) (k : κ) (turns : List Turn)
    (h : Along (perform rt) OneAtATime (resting d k) turns) :
    InSeries (run (perform rt) (resting d k) turns)
      (run (Demand.meet rt) ⟨d, k, []⟩ (emitted (perform rt) demanded (resting d k) turns)) :=
  ⟨(behind_run d k h).knows, (behind_run d k h).agree⟩

/- Both links are up, and the manager has a connection. -/
def bothKnown : EventDispatcher :=
  (EventDispatcher.new LinkState.twoLinks connected).withInterfaces LinkState.bothUp

/- eth0 comes up, and the handler has asked for the policy rule of its rule and waits for the
index of the link. -/
def askedForLink : List Turn :=
  [.start, .spawn .asListed (.interfaceChanged "eth0" .up), .task 0, .task 0]

example : (run (perform grantAll) (resting bothKnown ()) askedForLink).tasks =
    [.calling (.applyDefault LinkState.toEth0 101) (.getLink (.v4 ⟨0x0a000000, 8, len8_v4⟩)) []] :=
  rfl

/- A configuration without rules is loaded between two requests of the handler, which goes on. -/
theorem serial_as_demanded_reload :
    InSeries
      (run (perform grantAll) (resting bothKnown ())
        (askedForLink ++ [.updateConfig {}, .task 0, .task 0, .task 0]))
      (run (Demand.meet grantAll) ⟨bothKnown, (), []⟩
        (emitted (perform grantAll) demanded (resting bothKnown ())
          (askedForLink ++ [.updateConfig {}, .task 0, .task 0, .task 0]))) :=
  serial_as_demanded grantAll bothKnown () _ (by decide)

/-! ### Every order of demands -/

theorem begun_demands {i : ℕ} {c : Concurrent κ} (h : Begun i c) :
    demanded c (.task i) = [] := by
  obtain ⟨task, hi, hb⟩ := h
  simp only [demanded, hi]
  cases task with
  | spawned order event => exact absurd rfl (hb order event)
  | calling w stage rest => rfl
  | finished => rfl

/- Nothing more begins in the turns of a handler that has begun. -/
theorem begun_turns {i : ℕ} {c : Concurrent κ} (h : Begun i c) (n : ℕ) :
    Along (perform rt) OneAtATime c (List.replicate n (.task i)) ∧
      emitted (perform rt) demanded c (List.replicate n (.task i)) = [] := by
  induction n generalizing c with
  | zero => exact ⟨trivial, rfl⟩
  | succ n ih =>
    obtain ⟨halong, hnone⟩ := ih (begun_kept rt h)
    rw [List.replicate_succ]
    refine ⟨⟨.inl (begun_demands h), halong⟩, ?_⟩
    rw [emitted, begun_demands h, hnone]
    rfl

theorem others_kept {i : ℕ} {c : Concurrent κ} (h : OnlyAt i c.tasks) :
    OnlyAt i (perform rt c (.task i)).tasks := by
  show OnlyAt i (step rt c i).tasks
  cases hi : c.tasks[i]? with
  | none =>
    have hstays : step rt c i = c := by simp only [step, hi]
    rw [hstays]
    exact h
  | some task =>
    obtain ⟨task', _, htasks⟩ := step_alone rt hi
    rw [htasks]
    exact h.set task'

theorem others_kept_turns {i : ℕ} {c : Concurrent κ} (h : OnlyAt i c.tasks) (n : ℕ) :
    OnlyAt i (run (perform rt) c (List.replicate n (.task i))).tasks :=
  run_invariant (perform rt) (fun c' => OnlyAt i c'.tasks) (· = .task i)
    (fun c' turn ht hc' => by
      rw [ht]
      exact others_kept rt hc')
    c _ (fun _ ht => List.eq_of_mem_replicate ht) h

/- The turns begin what is demanded, and no handler is under way after them. -/
structure Schedules (c : Concurrent κ) (demands : List Demand) (turns : List Turn) : Prop where
  along : Along (perform rt) OneAtATime c turns
  emitted : emitted (perform rt) demanded c turns = demands
  quiescent : Quiescent (run (perform rt) c turns)

theorem Schedules.append {c : Concurrent κ} {demands demands' : List Demand}
    {turns turns' : List Turn} (h : Schedules rt c demands turns)
    (h' : Schedules rt (run (perform rt) c turns) demands' turns') :
    Schedules rt c (demands ++ demands') (turns ++ turns') := by
  refine ⟨(along_append _ _ _ _ _).mpr ⟨h.along, h'.along⟩, ?_, ?_⟩
  · rw [emitted_append, h.emitted, h'.emitted]
  · rw [run_append]
    exact h'.quiescent

/- A handler has all the turns that it can need. -/
theorem handler_scheduled {c : Concurrent κ} (hq : Quiescent c) {i : ℕ} {order : RouteOrder}
    {event : NetworkEvent} (hi : c.tasks[i]? = some (.spawned order event)) :
    Schedules rt c [.handleEvent order event]
      (.task i :: List.replicate (4 * c.dispatcher.config.allRules.length) (.task i)) := by
  obtain ⟨hb, hle⟩ := first_turn rt hi
  obtain ⟨halong, hnone⟩ := begun_turns rt hb (4 * c.dispatcher.config.allRules.length)
  have hdemanded : demanded c (.task i) = [.handleEvent order event] := by
    simp only [demanded, hi]
  refine ⟨⟨.inr hq, halong⟩, ?_, ?_⟩
  · rw [Transition.emitted, hdemanded, hnone]
    rfl
  · have hown : Turn.isTask i (.task i) = true := decide_eq_true rfl
    have hover := begun_ends rt hb
      (List.replicate (4 * c.dispatcher.config.allRules.length) (.task i))
      (by rwa [List.countP_replicate, if_pos hown])
    have hothers := others_kept_turns rt (others_kept rt (quiescent_others hq i))
      (4 * c.dispatcher.config.allRules.length)
    exact hothers.quiescent hover rfl

theorem demand_scheduled {c : Concurrent κ} (hq : Quiescent c) (demand : Demand) :
    ∃ turns, Schedules rt c [demand] turns := by
  cases demand with
  | handleEvent order event =>
    have hi : (perform rt c (.spawn order event)).tasks[c.tasks.length]? =
        some (.spawned order event) := List.getElem?_concat_length
    have h := handler_scheduled rt (quiescent_spawn hq order event) hi
    exact ⟨.spawn order event :: _, ⟨trivial, h.along⟩, h.emitted, h.quiescent⟩
  | start => exact ⟨[.start], ⟨trivial, trivial⟩, rfl, hq⟩
  | stop => exact ⟨[.stop], ⟨hq, trivial⟩, rfl, hq⟩
  | updateConfig config => exact ⟨[.updateConfig config], ⟨trivial, trivial⟩, rfl, hq⟩
  | setRouteManager rm => exact ⟨[.setRouteManager rm], ⟨hq, trivial⟩, rfl, hq⟩

theorem scheduled {c : Concurrent κ} (hq : Quiescent c) (demands : List Demand) :
    ∃ turns, Schedules rt c demands turns := by
  induction demands generalizing c with
  | nil => exact ⟨[], trivial, rfl, hq⟩
  | cons demand demands ih =>
    obtain ⟨turns, h⟩ := demand_scheduled rt hq demand
    obtain ⟨turns', h'⟩ := ih h.quiescent
    exact ⟨turns ++ turns', h.append rt h'⟩

/- The other way round, whatever is demanded one thing after another, some run with one handler
at a time begins it in this order and leaves what it leaves. -/
theorem demands_scheduled (config : Config) (rm : RouteManager) (k : κ) (demands : List Demand) :
    ∃ turns, Schedules rt (idle config rm k) demands turns ∧
      (run (perform rt) (idle config rm k) turns).dispatcher =
        (run (Demand.meet rt) (fresh config rm k) demands).dispatcher ∧
      (run (perform rt) (idle config rm k) turns).kernel =
        (run (Demand.meet rt) (fresh config rm k) demands).kernel := by
  obtain ⟨turns, h⟩ := scheduled rt (quiescent_resting (.new config rm) k) demands
  have hbehind := behind_run (.new config rm) k h.along
  rw [h.emitted] at hbehind
  exact ⟨turns, h, hbehind.agree h.quiescent⟩

end NicAutoswitch.Engine.Interleavings
