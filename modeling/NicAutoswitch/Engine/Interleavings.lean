import NicAutoswitch.Engine.RouteLifetime
import NicAutoswitch.Engine.TaskSteps

/-!
# Handlers among reloads and stops

The control socket reloads the configuration while a handler waits for the kernel, and the
daemon may be stopped then. Between two requests of one handler anything may come.
-/

namespace NicAutoswitch.Engine.Interleavings
open HashMaps Schema Monitor Router StateProg Transition Tasks RouteLifetime

/- A handler is spawned or has its turn, or the dispatcher is told something. -/
inductive Turn where
  | spawn (order : RouteOrder) (event : NetworkEvent)
  | task (i : ℕ)
  | start
  | stop
  | updateConfig (config : Config)
  | setRouteManager (rm : RouteManager)

def Turn.isTask (i : ℕ) : Turn → Bool
  | .task j => decide (j = i)
  | _ => false

variable {κ : Type} (rt : Rtnetlink κ)

def perform (c : Concurrent κ) : Turn → Concurrent κ
  | .spawn order event => { c with tasks := c.tasks ++ [.spawned order event] }
  | .task i => step rt c i
  | .start => { c with dispatcher := c.dispatcher.start }
  | .stop => { c with dispatcher := c.dispatcher.stop }
  | .updateConfig config => { c with dispatcher := c.dispatcher.updateConfig config }
  | .setRouteManager rm => { c with dispatcher := c.dispatcher.setRouteManager rm }

/- A fresh dispatcher without handlers. -/
def idle (config : Config) (rm : RouteManager) (k : κ) : Concurrent κ :=
  ⟨.new config rm, k, []⟩

/-! ### The tasks in a turn -/

theorem getElem?_set_other {tasks : List Task} {i j : ℕ} {task task' : Task} (hij : j ≠ i)
    (h : tasks[i]? = some task) : (tasks.set j task')[i]? = some task :=
  (List.getElem?_set_ne hij).trans h

/- Only its own turns change a handler. -/
theorem task_kept {c : Concurrent κ} {i : ℕ} {task : Task} {turn : Turn}
    (h : c.tasks[i]? = some task) (hturn : turn.isTask i = false) :
    (perform rt c turn).tasks[i]? = some task := by
  cases turn with
  | spawn order event =>
    have hlt : i < c.tasks.length := (List.getElem?_eq_some_iff.mp h).1
    exact (List.getElem?_append_left hlt).trans h
  | task j =>
    have hij : j ≠ i := of_decide_eq_false hturn
    have hstep := stepped rt c j
    show (step rt c j).tasks[i]? = some task
    generalize step rt c j = c' at hstep ⊢
    cases hstep with
    | idle => exact h
    | resumed => exact getElem?_set_other hij h
    | served => exact getElem?_set_other hij h
  | start => exact h
  | stop => exact h
  | updateConfig config => exact h
  | setRouteManager rm => exact h

/- A handler that goes on takes its own place. -/
theorem task_resumed {c : Concurrent κ} {i : ℕ} {task task' : Task} {d : EventDispatcher}
    (hi : c.tasks[i]? = some task) (hr : resume c.dispatcher task = some (task', d)) :
    (step rt c i).tasks[i]? = some task' := by
  have hlt : i < c.tasks.length := (List.getElem?_eq_some_iff.mp hi).1
  simp only [step, hi, hr]
  rw [List.getElem?_set_self hlt]

theorem task_served {c : Concurrent κ} {i : ℕ} {w : Work} {stage : Stage} {rest : List Work}
    (hi : c.tasks[i]? = some (.calling w stage rest)) (hw : ∀ ok, stage ≠ .ended ok) :
    (step rt c i).tasks[i]? = some (.calling w (serve rt w stage c.kernel).1 rest) := by
  have hlt : i < c.tasks.length := (List.getElem?_eq_some_iff.mp hi).1
  have hr : resume c.dispatcher (.calling w stage rest) = none := by
    cases stage with
    | ended ok => exact absurd rfl (hw ok)
    | addRule d => rfl
    | getLink d => rfl
    | addRoute d index => rfl
    | delRule d message => rfl
    | delRoute message => rfl
  simp only [step, hi, hr]
  rw [List.getElem?_set_self hlt]

/-! ### How many turns a handler needs -/

/- The turns of a call that has come to the stage. -/
def stageTurns : Stage → ℕ
  | .addRule _ => 4
  | .getLink _ => 3
  | .addRoute _ _ => 2
  | .delRule _ _ => 3
  | .delRoute _ => 2
  | .ended _ => 1

/- The turns that a handler needs once it has begun. -/
def turnsLeft : Task → ℕ
  | .spawned _ _ => 0
  | .calling _ stage rest => stageTurns stage + 4 * rest.length
  | .finished => 0

def HasBegun (task : Task) : Prop := ∀ order event, task ≠ .spawned order event

theorem stageTurns_pos (stage : Stage) : 1 ≤ stageTurns stage := by
  cases stage <;> simp only [stageTurns] <;> omega

theorem stageTurns_le (stage : Stage) : stageTurns stage ≤ 4 := by
  cases stage <;> simp only [stageTurns] <;> omega

theorem finished_of_turnsLeft {task : Task} (hb : HasBegun task) (h : turnsLeft task = 0) :
    task = .finished := by
  cases task with
  | spawned order event => exact absurd rfl (hb order event)
  | finished => rfl
  | calling w stage rest =>
    have hpos := stageTurns_pos stage
    simp only [turnsLeft] at h
    omega

theorem settled_turns (tolerated : RtError → Bool) {next : Stage} {n : ℕ}
    (hnext : stageTurns next ≤ n) (answer : Except RtError Unit × κ) :
    stageTurns (settled tolerated next answer).1 ≤ n := by
  have hended : stageTurns (.ended false) ≤ n := (stageTurns_pos next).trans hnext
  obtain ⟨result, k⟩ := answer
  cases result with
  | ok u => exact hnext
  | error e =>
    simp only [settled]
    split_ifs
    · exact hnext
    · exact hended

/- Each answer brings a call on. -/
theorem serve_turns (w : Work) {stage : Stage} (hw : ∀ ok, stage ≠ .ended ok) (k : κ) :
    stageTurns (serve rt w stage k).1 ≤ stageTurns stage - 1 := by
  cases stage with
  | addRule d => exact settled_turns _ (le_refl 3) _
  | addRoute d index => exact settled_turns _ (le_refl 1) _
  | delRoute message => exact settled_turns _ (le_refl 1) _
  | ended ok => exact absurd rfl (hw ok)
  | getLink d =>
    simp only [serve]
    rcases rt.linkGet w.rule.routeVia.interface k with ⟨answer, k'⟩
    rcases answer with e | _ | index
    · exact Nat.le_succ 1
    · exact Nat.le_succ 1
    · exact le_refl 2
  | delRule d message =>
    refine settled_turns _ ?_ _
    cases removeRouteMessage d w.tableId with
    | error e => exact Nat.le_succ 1
    | ok message => exact le_refl 2

theorem hasBegun_calling (w : Work) (stage : Stage) (rest : List Work) :
    HasBegun (.calling w stage rest) := by
  intro order event h
  cases h

theorem hasBegun_finished : HasBegun .finished := by
  intro order event h
  cases h

theorem advance_turns (work : List Work) (d : EventDispatcher) :
    HasBegun (advance work d).1 ∧ turnsLeft (advance work d).1 ≤ 4 * work.length := by
  induction work generalizing d with
  | nil => exact ⟨hasBegun_finished, Nat.zero_le _⟩
  | cons w rest ih =>
    have hlonger : 4 * rest.length ≤ 4 * (w :: rest).length :=
      Nat.mul_le_mul_left 4 (Nat.le_succ rest.length)
    have hstops : ∀ stage, HasBegun (.calling w stage rest) ∧
        turnsLeft (.calling w stage rest) ≤ 4 * (w :: rest).length := by
      intro stage
      have hstage := stageTurns_le stage
      refine ⟨hasBegun_calling w stage rest, ?_⟩
      simp only [turnsLeft, List.length_cons]
      omega
    rw [advance]
    split_ifs
    · exact ⟨(ih d).1, (ih d).2.trans hlonger⟩
    · split
      · exact ⟨(ih _).1, (ih _).2.trans hlonger⟩
      · exact hstops _

/-! ### How much there is to do -/

theorem length_defaultRules (config : Config) :
    config.routing.defaultRules.length ≤ config.allRules.length := by
  unfold Config.allRules
  rw [List.length_append]
  exact Nat.le_add_right _ _

theorem length_profile {config : Config} {ssid : String} {profile : WifiProfile}
    (h : config.wifiProfiles.lookup ssid = some profile) :
    profile.rules.length ≤ config.allRules.length := by
  have hm : profile ∈ values config.wifiProfiles := (mem_values_iff _ _).mpr ⟨ssid, h⟩
  have hle : profile.rules.length ≤ ((values config.wifiProfiles).flatMap (·.rules)).length :=
    (List.sublist_flatten_of_mem (List.mem_map.mpr ⟨profile, hm, rfl⟩)).length_le
  unfold Config.allRules
  rw [List.length_append]
  exact hle.trans (Nat.le_add_left _ _)

theorem length_defaultsWork (i : String) (d : EventDispatcher) :
    (defaultsWork i d).1.length ≤ d.config.allRules.length := by
  simp only [defaultsWork]
  split_ifs
  · exact Nat.zero_le _
  · simp only [List.length_map]
    exact length_defaultRules d.config

theorem length_rulesWork (i : String) (ssid : Option String) (d : EventDispatcher) :
    (rulesWork i ssid d).1.length ≤ d.config.allRules.length := by
  cases hp : ssid.bind d.config.wifiProfiles.lookup with
  | none =>
    simp only [rulesWork, hp]
    exact length_defaultsWork i d
  | some profile =>
    obtain ⟨s, _, hs⟩ := Option.bind_eq_some_iff.mp hp
    simp only [rulesWork, hp, List.length_map]
    exact length_profile hs

/- A rule is removed once for each name. -/
theorem length_downWork (order : RouteOrder) (i : String) (d : EventDispatcher) :
    (downWork order i d).1.length ≤ d.config.allRules.length := by
  have hnames : ∀ todo : List (String × ℕ),
      ((todo.filterMap fun entry => ((EventDispatcher.rulesMap d.config).lookup entry.1).map
        (Work.remove · entry.2)).map fun w => w.rule.name).Sublist (todo.map Prod.fst) := by
    intro todo
    induction todo with
    | nil => exact List.Sublist.refl _
    | cons entry todo ih =>
      cases hr : (EventDispatcher.rulesMap d.config).lookup entry.1 with
      | none =>
        rw [List.filterMap_cons_none (by rw [hr]; rfl)]
        exact ih.cons entry.1
      | some rule =>
        rw [List.filterMap_cons_some (by rw [hr]; rfl), List.map_cons, List.map_cons]
        have hname : (Work.remove rule entry.2).rule.name = entry.1 :=
          (EventDispatcher.rulesMap_spec hr).2
        rw [hname]
        exact ih.cons_cons entry.1
  have hnodup : ((downWork order i d).1.map fun w => w.rule.name).Nodup :=
    (EventDispatcher.dependentRoutes_nodup order d.executor.activeRoutes i).sublist (hnames _)
  have hsub : ((downWork order i d).1.map fun w => w.rule.name) ⊆
      d.config.allRules.map RouteRule.name := by
    intro n hn
    obtain ⟨w, hw, rfl⟩ := List.mem_map.mp hn
    exact List.mem_map.mpr ⟨w.rule, (asked_down order i d).configured w hw, rfl⟩
  have hle := (hnodup.subperm hsub).length_le
  rwa [List.length_map, List.length_map] at hle

theorem length_eventWork (order : RouteOrder) (event : NetworkEvent) (d : EventDispatcher) :
    (eventWork order event d).1.length ≤ d.config.allRules.length := by
  apply eventWork_rec (P := fun x => x.1.length ≤ d.config.allRules.length) order event d
  · intro d' _
    exact Nat.zero_le _
  · intro i d' _ hd
    rw [← hd.config]
    exact length_defaultsWork i d'
  · intro i ssid d' _ hd
    rw [← hd.config]
    exact length_rulesWork i ssid d'
  · intro i d' hd
    rw [← hd.config]
    exact length_downWork order i d'

/-! ### Every handler ends -/

def Begun (i : ℕ) (c : Concurrent κ) : Prop := ∃ task, c.tasks[i]? = some task ∧ HasBegun task

def leftOf (i : ℕ) (c : Concurrent κ) : ℕ := (c.tasks[i]?.map turnsLeft).getD 0

theorem leftOf_of {i : ℕ} {c : Concurrent κ} {task : Task} (h : c.tasks[i]? = some task) :
    leftOf i c = turnsLeft task := by
  unfold leftOf
  rw [h]
  rfl

theorem own_turn {i : ℕ} {c : Concurrent κ} (h : Begun i c) :
    Begun i (perform rt c (.task i)) ∧ leftOf i (perform rt c (.task i)) ≤ leftOf i c - 1 := by
  obtain ⟨task, hi, hb⟩ := h
  rw [leftOf_of hi]
  cases task with
  | spawned order event => exact absurd rfl (hb order event)
  | finished =>
    have hstays : perform rt c (.task i) = c := by
      show step rt c i = c
      simp only [step, hi, resume]
    rw [hstays]
    exact ⟨⟨.finished, hi, hb⟩, le_of_eq (leftOf_of hi)⟩
  | calling w stage rest =>
    by_cases hended : ∃ ok, stage = .ended ok
    · obtain ⟨ok, rfl⟩ := hended
      obtain ⟨d, hd⟩ : ∃ d : EventDispatcher,
          d = { c.dispatcher with executor := w.complete c.dispatcher.executor ok } := ⟨_, rfl⟩
      have hadv := advance_turns rest d
      have htask : (perform rt c (.task i)).tasks[i]? = some (advance rest d).1 := by
        rw [hd]
        exact task_resumed rt hi rfl
      refine ⟨⟨_, htask, hadv.1⟩, ?_⟩
      rw [leftOf_of htask]
      show turnsLeft (advance rest d).1 ≤ 1 + 4 * rest.length - 1
      omega
    · have hw : ∀ ok, stage ≠ .ended ok := fun ok he => hended ⟨ok, he⟩
      have htask : (perform rt c (.task i)).tasks[i]? =
          some (.calling w (serve rt w stage c.kernel).1 rest) := task_served rt hi hw
      refine ⟨⟨_, htask, hasBegun_calling w _ rest⟩, ?_⟩
      have hserve := serve_turns rt w hw c.kernel
      have hpos := stageTurns_pos stage
      rw [leftOf_of htask]
      simp only [turnsLeft]
      omega

theorem other_turn {i : ℕ} {c : Concurrent κ} {turn : Turn} (hturn : turn.isTask i = false)
    (h : Begun i c) : Begun i (perform rt c turn) ∧ leftOf i (perform rt c turn) = leftOf i c := by
  obtain ⟨task, hi, hb⟩ := h
  have hkept := task_kept rt hi hturn
  exact ⟨⟨task, hkept, hb⟩, (leftOf_of hkept).trans (leftOf_of hi).symm⟩

theorem isTask_eq {i : ℕ} {turn : Turn} (h : turn.isTask i = true) : turn = .task i := by
  cases turn with
  | task j => exact congrArg Turn.task (of_decide_eq_true h)
  | spawn order event => cases h
  | start => cases h
  | stop => cases h
  | updateConfig config => cases h
  | setRouteManager rm => cases h

theorem begun_kept {i : ℕ} {c : Concurrent κ} {turn : Turn} (h : Begun i c) :
    Begun i (perform rt c turn) := by
  cases hturn : turn.isTask i with
  | true =>
    rw [isTask_eq hturn]
    exact (own_turn rt h).1
  | false => exact (other_turn rt hturn h).1

/- A handler that has begun is over once it has had the turns that it needs. -/
theorem begun_ends {i : ℕ} {c : Concurrent κ} (h : Begun i c) (turns : List Turn)
    (hturns : leftOf i c ≤ turns.countP (Turn.isTask i)) :
    (run (perform rt) c turns).tasks[i]? = some .finished := by
  have hspent : leftOf i (run (perform rt) c turns) ≤
      leftOf i c - turns.countP (Turn.isTask i) := by
    refine run_exhausts (perform rt) (Turn.isTask i) (leftOf i) (Begun i)
      (fun _ _ hb => begun_kept rt hb) (fun s turn hb hturn => ?_) (fun s turn hb hturn => ?_)
      c turns h
    · rw [isTask_eq hturn]
      exact (own_turn rt hb).2
    · exact le_of_eq (other_turn rt hturn hb).2
  obtain ⟨task, hi, hb⟩ := run_preserves (perform rt) (Begun i) (fun _ _ hb => begun_kept rt hb)
    c turns h
  rw [leftOf_of hi] at hspent
  rw [hi, finished_of_turnsLeft hb (by omega)]

theorem first_turn {i : ℕ} {c : Concurrent κ} {order : RouteOrder} {event : NetworkEvent}
    (h : c.tasks[i]? = some (.spawned order event)) :
    Begun i (perform rt c (.task i)) ∧
      leftOf i (perform rt c (.task i)) ≤ 4 * c.dispatcher.config.allRules.length := by
  have hadv := advance_turns (eventWork order event c.dispatcher).1
    (eventWork order event c.dispatcher).2
  have htask : (perform rt c (.task i)).tasks[i]? = some (advance _ _).1 := task_resumed rt h rfl
  refine ⟨⟨_, htask, hadv.1⟩, ?_⟩
  rw [leftOf_of htask]
  exact hadv.2.trans (Nat.mul_le_mul_left 4 (length_eventWork order event c.dispatcher))

/- Whatever comes between its turns and whatever the kernel answers, a handler is over after its
first turn and four more for each rule that is configured then. -/
theorem handler_ends {i : ℕ} {c : Concurrent κ} {order : RouteOrder} {event : NetworkEvent}
    (h : c.tasks[i]? = some (.spawned order event)) (turns : List Turn)
    (hturns : 4 * c.dispatcher.config.allRules.length ≤ turns.countP (Turn.isTask i)) :
    (run (perform rt) c (.task i :: turns)).tasks[i]? = some .finished := by
  obtain ⟨hb, hle⟩ := first_turn rt h
  exact begun_ends rt hb turns (hle.trans hturns)

/- The route of eth0 is in force over a connection, and a handler is about to take it down. -/
def takingDown : Concurrent Unit :=
  let d := ((EventDispatcher.new LinkState.twoLinks connected).withInterfaces LinkState.bothUp).start
  ⟨{ d with executor := d.executor.trackActiveRoute "lan" "eth0" 101 }, (),
    [.spawned .asListed (.interfaceChanged "eth0" .down)]⟩

/- The policy rule is deleted, and the handler waits for the answer about the route. -/
example : ∃ message, (run (perform grantAll) takingDown [.task 0, .task 0]).tasks =
    [.calling (.remove LinkState.toEth0 101) (.delRoute message) []] := ⟨_, rfl⟩

/- The dispatcher is stopped before the answer comes. -/
theorem handler_ends_taking_down :
    (run (perform grantAll) takingDown [.task 0, .task 0, .stop, .task 0, .task 0, .task 0]).tasks[0]? =
      some .finished :=
  handler_ends grantAll rfl [.task 0, .stop, .task 0, .task 0, .task 0] (by decide)

end NicAutoswitch.Engine.Interleavings
