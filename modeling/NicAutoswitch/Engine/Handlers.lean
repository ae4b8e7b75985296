import NicAutoswitch.Engine.ActiveRoutes
import NicAutoswitch.Engine.ExecutorInvariant

/-!
# The handlers as runs of executor calls

The loops of the dispatcher go on whatever a call answers. What a handler does to the
system is therefore a run of calls, one for each rule, over any kernel.
-/

namespace NicAutoswitch.Engine
open HashMaps Schema Monitor Router StateProg Transition

variable {κ : Type} (rt : Rtnetlink κ)

/- The record of SSIDs that the reaction to the event starts with. -/
def EventDispatcher.noting (d : EventDispatcher) : NetworkEvent → EventDispatcher
  | .wifiConnected i ssid => d.recordSsid i ssid
  | .wifiDisconnected i _ => d.forgetSsid i
  | .interfaceChanged _ _ | .addressChanged _ _ _ | .routeChanged _ _ _ _ => d

theorem noting_fixed (d : EventDispatcher) (event : NetworkEvent) :
    (d.noting event).networkState = d.networkState ∧ (d.noting event).state = d.state := by
  cases event <;> exact ⟨rfl, rfl⟩

/-! ### Calls -/

/- The executor after the call of `apply_rule`, whatever comes of it. -/
def attempted (index t : ℕ) (s : ExecutorState κ) (rule : RouteRule) : ExecutorState κ :=
  after (RuleExecutor.applyRule rt rule index t) s

/- Whether the call of `apply_rule` succeeds. -/
def succeeds (index t : ℕ) (s : ExecutorState κ) (rule : RouteRule) : Bool :=
  match RuleExecutor.applyRule rt rule index t s with
  | .ok _ _ => true
  | .error _ _ => false

theorem attempted_of_ok {index t : ℕ} {s s' : ExecutorState κ} {rule : RouteRule} {u : Unit}
    (h : RuleExecutor.applyRule rt rule index t s = .ok u s') :
    succeeds rt index t s rule = true ∧ attempted rt index t s rule = s' := by
  unfold succeeds
  rw [h]
  exact ⟨rfl, after_ok h⟩

theorem attempted_of_error {index t : ℕ} {s s' : ExecutorState κ} {rule : RouteRule}
    {e : NicAutoSwitchError} (h : RuleExecutor.applyRule rt rule index t s = .error e s') :
    succeeds rt index t s rule = false ∧ attempted rt index t s rule = s' := by
  unfold succeeds
  rw [h]
  exact ⟨rfl, after_error h⟩

/- A call of `apply_rule` is noted, and records the rule if it succeeds. -/
theorem attempted_eq (index t : ℕ) (s : ExecutorState κ) (rule : RouteRule) :
    ∃ k, attempted rt index t s rule =
      { executor :=
          if succeeds rt index t s rule then
            s.executor.trackActiveRoute rule.name rule.routeVia.interface t
          else s.executor
        kernel := k
        history := ⟨.applyRule rule t, s.executor, s.kernel, succeeds rt index t s rule⟩ ::
          s.history } := by
  cases hv : RuleOperator.validateRule rule with
  | error e =>
    obtain ⟨hs, ha⟩ := attempted_of_error rt (RuleExecutor.applyRule_invalid rt index t s hv)
    rw [hs, ha]
    exact ⟨_, rfl⟩
  | ok u =>
    cases hk : RuleOperator.applyRule rt s.executor.routeManager rule index t s.kernel with
    | ok u' k =>
      obtain ⟨hs, ha⟩ := attempted_of_ok rt (RuleExecutor.applyRule_ok hv hk)
      rw [hs, ha]
      exact ⟨_, rfl⟩
    | error e k =>
      obtain ⟨hs, ha⟩ := attempted_of_error rt (RuleExecutor.applyRule_error hv hk)
      rw [hs, ha]
      exact ⟨_, rfl⟩

theorem applyRule_cases (rule : RouteRule) (t : ℕ) (s : ExecutorState κ) :
    ∃ e k ok, after (RuleExecutor.applyRule rt rule 0 t) s =
        { executor := e
          kernel := k
          history := ⟨.applyRule rule t, s.executor, s.kernel, ok⟩ :: s.history } ∧
      (e = s.executor ∨ e = s.executor.trackActiveRoute rule.name rule.routeVia.interface t) := by
  obtain ⟨k, h⟩ := attempted_eq rt 0 t s rule
  refine ⟨_, k, _, h, ?_⟩
  split_ifs
  · exact Or.inr rfl
  · exact Or.inl rfl

theorem removeRule_cases (rule : RouteRule) (t : ℕ) (s : ExecutorState κ) :
    ∃ e k ok, after (RuleExecutor.removeRule rt rule t) s =
        { executor := e
          kernel := k
          history := ⟨.removeRule rule t, s.executor, s.kernel, ok⟩ :: s.history } ∧
      (e = s.executor ∨ e = s.executor.untrackActiveRoute rule.name) := by
  cases hk : RuleOperator.removeRule rt s.executor.routeManager rule t s.kernel with
  | ok u k => exact ⟨_, _, _, after_ok (RuleExecutor.removeRule_ok hk), Or.inr rfl⟩
  | error err k => exact ⟨_, _, _, after_error (RuleExecutor.removeRule_error hk), Or.inl rfl⟩

theorem sweep_flushed {s : ExecutorState κ} {k : κ}
    (hk : Dispatch.flushTables rt s.executor.routeManager
      (Dispatch.staleTables (s.executor.routeManager.tableIdV4 0)) s.kernel = .ok () k) :
    Dispatch.sweepStaleTables rt s = .ok ()
      { s with
        kernel := k
        history := ⟨.cleanup, s.executor, s.kernel, true⟩ :: s.history } := by
  unfold Dispatch.sweepStaleTables
  rw [recorded_ok ((bind_ok (RuleExecutor.readExecutor_ok s)).trans (onKernel_ok hk))]

theorem sweep_ok (s : ExecutorState κ) :
    ∃ k, Dispatch.sweepStaleTables rt s = .ok ()
      { s with
        kernel := k
        history := ⟨.cleanup, s.executor, s.kernel, true⟩ :: s.history } := by
  obtain ⟨k, hk⟩ := flushTables_returns rt s.executor.routeManager
    (Dispatch.staleTables (s.executor.routeManager.tableIdV4 0)) s.kernel
  exact ⟨k, sweep_flushed rt hk⟩

/-! ### Loops -/

/- One rule of a loop that applies rules. -/
def applied (t : ℕ) (s : System κ) (rule : RouteRule) : System κ :=
  System.withExec (after (RuleExecutor.applyRule rt rule 0 t) s.execState) s

def appliedUnlessActive (t : ℕ) (s : System κ) (rule : RouteRule) : System κ :=
  if s.dispatcher.executor.isRouteActive rule.name then s else applied rt t s rule

theorem applyDefaultLoop_ok (t : ℕ) (rules : List RouteRule) (s : System κ) :
    Dispatch.applyDefaultLoop rt t rules s = .ok () (run (appliedUnlessActive rt t) s rules) := by
  induction rules generalizing s with
  | nil => rfl
  | cons rule rest ih =>
    refine (bind_ok (readDispatcher_ok s)).trans ?_
    rw [run_cons]
    unfold appliedUnlessActive
    split_ifs with ha
    · exact ih s
    · rw [attempt_bind, onExecutor, after_zoom]
      exact ih _

/- The loop counts the rules whose own call succeeds. -/
theorem applyRules_ok (index t : ℕ) (rules : List RouteRule) (n : ℕ) (s : ExecutorState κ) :
    RuleExecutor.applyRules rt index t rules n s =
      .ok (n + (accepted (attempted rt index t) (succeeds rt index t) s rules).length)
        (run (attempted rt index t) s rules) := by
  induction rules generalizing s n with
  | nil => rfl
  | cons rule rest ih =>
    rw [run_cons, accepted, RuleExecutor.applyRules]
    cases hx : RuleExecutor.applyRule rt rule index t s with
    | ok u s' =>
      obtain ⟨hs, ha⟩ := attempted_of_ok rt hx
      rw [bind_ok (attempt_ok hx), if_pos hs, ha, List.length_cons, ← Nat.add_assoc,
        Nat.add_right_comm]
      exact ih (n + 1) s'
    | error e s' =>
      obtain ⟨hs, ha⟩ := attempted_of_error rt hx
      rw [bind_ok (attempt_error hx), hs, ha]
      exact ih n s'

/- The loop over the system is the loop over its executor. -/
theorem run_applied (t : ℕ) (rules : List RouteRule) (s : System κ) :
    run (applied rt t) s rules =
      System.withExec (run (attempted rt 0 t) s.execState rules) s :=
  (run_simulates (attempted rt 0 t) (applied rt t) (System.withExec · s) (fun _ => True)
    (fun _ _ h => h) (fun _ _ _ => rfl) s.execState rules trivial).symm

/- The interface has an index. -/
def indexed (i : String) (s : System κ) : System κ :=
  { s with dispatcher := (s.dispatcher.getTableIdForInterface i).2 }

/- The index that the interface has, or is about to be given. -/
def indexOf (d : EventDispatcher) (i : String) : ℕ :=
  (EventDispatcher.indexForInterface d.interfaceIndices i).1

/- The table that the rules applied for an interface go to. -/
abbrev tableOf (s : System κ) (i : String) : ℕ := (s.dispatcher.getTableIdForInterface i).1

/- The default rules applied for an interface. -/
def appliedDefaults (s : System κ) (i : String) : System κ :=
  if s.dispatcher.config.routing.defaultRules.isEmpty then s
  else run (appliedUnlessActive rt (s.dispatcher.getTableIdForInterface i).1) (indexed i s)
    s.dispatcher.config.routing.defaultRules

def appliedRules (s : System κ) (i : String) (ssid : Option String) : System κ :=
  match ssid.bind s.dispatcher.config.wifiProfiles.lookup with
  | some profile =>
    run (applied rt (s.dispatcher.getTableIdForInterface i).1) (indexed i s) profile.rules
  | none => appliedDefaults rt s i

theorem applyDefaultRules_ok (i : String) (s : System κ) :
    Dispatch.applyDefaultRules rt i s = .ok () (appliedDefaults rt s i) := by
  refine (bind_ok (readDispatcher_ok s)).trans ?_
  unfold appliedDefaults
  by_cases he : s.dispatcher.config.routing.defaultRules.isEmpty = true
  · simp only [if_pos he]
    rfl
  · simp only [if_neg he]
    exact (bind_ok (tableIdFor_ok i s)).trans (applyDefaultLoop_ok rt _ _ (indexed i s))

theorem applyDefaultRules_after (i : String) (s : System κ) :
    after (Dispatch.applyDefaultRules rt i) s = appliedDefaults rt s i :=
  after_ok (applyDefaultRules_ok rt i s)

theorem applyRulesForInterface_after (i : String) (ssid : Option String) (s : System κ) :
    after (Dispatch.applyRulesForInterface rt i ssid) s = appliedRules rt s i ssid := by
  rw [Dispatch.applyRulesForInterface, after_bind_ok (readDispatcher_ok s)]
  unfold appliedRules
  cases ssid.bind s.dispatcher.config.wifiProfiles.lookup with
  | none => exact applyDefaultRules_after rt i s
  | some profile =>
    have hloop := applyRules_ok rt 0 (s.dispatcher.getTableIdForInterface i).1 profile.rules 0
      (indexed i s).execState
    refine (after_bind_ok (tableIdFor_ok i s)).trans (Eq.trans ?_ (run_applied rt _ _ _).symm)
    exact after_ok (bind_ok (zoom_ok hloop))

theorem applyInitialLoop_after (names : List String) (s : System κ) :
    after (Dispatch.applyInitialLoop rt names) s = run (appliedDefaults rt) s names := by
  induction names generalizing s with
  | nil => rfl
  | cons name rest ih =>
    rw [run_cons, Dispatch.applyInitialLoop, after_attempt_bind, applyDefaultRules_after]
    exact ih _

/- What the loop of `handle_interface_down` does for one active route. -/
def removeOne (rules : HashMap String RouteRule) (s : System κ) (e : String × ℕ) : System κ :=
  match rules.lookup e.1 with
  | some rule => System.withExec (after (RuleExecutor.removeRule rt rule e.2) s.execState) s
  | none => s

theorem removeLoop_after (rules : HashMap String RouteRule) (todo : List (String × ℕ))
    (s : System κ) : after (Dispatch.removeLoop rt rules todo) s = run (removeOne rt rules) s todo := by
  induction todo generalizing s with
  | nil => rfl
  | cons e rest ih =>
    rw [Dispatch.removeLoop, run_cons]
    unfold removeOne
    cases rules.lookup e.1 with
    | none => exact ih s
    | some rule =>
      show after (attempt (onExecutor _) >>= fun _ => _) s = _
      rw [after_attempt_bind, onExecutor, after_zoom]
      exact ih _

theorem handleInterfaceDown_after (order : RouteOrder) (i : String) (s : System κ) :
    after (Dispatch.handleInterfaceDown rt order i) s =
      run (removeOne rt (EventDispatcher.rulesMap s.dispatcher.config)) s
        (EventDispatcher.dependentRoutes order s.dispatcher.executor.activeRoutes i) := by
  rw [← removeLoop_after, Dispatch.handleInterfaceDown, after_bind_ok (readDispatcher_ok s)]
  dsimp only
  split_ifs with he
  · rw [List.isEmpty_iff.mp he]
    rfl
  · rfl

/- What the reaction to the event makes of the system. -/
def reacted (order : RouteOrder) (s : System κ) : NetworkEvent → System κ
  | .interfaceChanged i .down | .interfaceChanged i .removed =>
    run (removeOne rt (EventDispatcher.rulesMap s.dispatcher.config)) s
      (EventDispatcher.dependentRoutes order s.dispatcher.executor.activeRoutes i)
  | .interfaceChanged i .up => if s.dispatcher.shouldApply i then appliedDefaults rt s i else s
  | .interfaceChanged _ .added => s
  | .wifiConnected i ssid =>
    appliedRules rt { s with dispatcher := s.dispatcher.recordSsid i ssid } i (some ssid)
  | .wifiDisconnected i _ =>
    appliedDefaults rt { s with dispatcher := s.dispatcher.forgetSsid i } i
  | .addressChanged i _ _ => appliedRules rt s i (s.dispatcher.currentSsid i)
  | .routeChanged _ _ _ _ => s

theorem react_after (order : RouteOrder) (event : NetworkEvent) (s : System κ) :
    after (Dispatch.react rt order event) s = reacted rt order s event := by
  cases event with
  | interfaceChanged i change =>
    cases change with
    | up =>
      show after (readDispatcher >>= fun _ => _) s = _
      rw [after_bind_ok (readDispatcher_ok s)]
      simp only [reacted]
      split_ifs
      · exact applyDefaultRules_after rt i s
      · rfl
    | down => exact handleInterfaceDown_after rt order i s
    | added => rfl
    | removed => exact handleInterfaceDown_after rt order i s
  | wifiConnected i ssid =>
    show after (modifyDispatcher _ >>= fun _ => _) s = _
    rw [after_bind_ok (modifyDispatcher_ok _ s)]
    exact applyRulesForInterface_after rt i (some ssid) _
  | wifiDisconnected i last =>
    show after (modifyDispatcher _ >>= fun _ => _) s = _
    rw [after_bind_ok (modifyDispatcher_ok _ s)]
    exact applyDefaultRules_after rt i _
  | addressChanged i added removed =>
    show after (readDispatcher >>= fun _ => _) s = _
    rw [after_bind_ok (readDispatcher_ok s)]
    exact applyRulesForInterface_after rt i _ s
  | routeChanged i destination gateway added => rfl

/-! ### What the loops leave alone -/

theorem applied_manager (t : ℕ) (s : System κ) (rule : RouteRule) :
    (applied rt t s rule).dispatcher.executor.routeManager =
      s.dispatcher.executor.routeManager := by
  obtain ⟨e, k, ok, he, hexec⟩ := applyRule_cases rt rule t s.execState
  unfold applied
  rw [he]
  rcases hexec with rfl | rfl <;> rfl

theorem appliedUnlessActive_view (t : ℕ) (s : System κ) (rule : RouteRule) :
    EventDispatcher.SameView s.dispatcher (appliedUnlessActive rt t s rule).dispatcher := by
  unfold appliedUnlessActive
  split_ifs <;> exact ⟨rfl, rfl, rfl, rfl⟩

theorem appliedDefaults_view (s : System κ) (i : String) :
    EventDispatcher.SameView s.dispatcher (appliedDefaults rt s i).dispatcher := by
  unfold appliedDefaults
  split_ifs
  · exact .refl _
  · exact run_preserves (appliedUnlessActive rt _)
      (fun s' => EventDispatcher.SameView s.dispatcher s'.dispatcher)
      (fun s' rule h => h.trans (appliedUnlessActive_view rt _ s' rule)) (indexed i s) _
      ⟨rfl, rfl, rfl, rfl⟩

theorem applied_view (t : ℕ) (s : System κ) (rule : RouteRule) :
    EventDispatcher.SameView s.dispatcher (applied rt t s rule).dispatcher := ⟨rfl, rfl, rfl, rfl⟩

theorem appliedRules_view (s : System κ) (i : String) (ssid : Option String) :
    EventDispatcher.SameView s.dispatcher (appliedRules rt s i ssid).dispatcher := by
  unfold appliedRules
  split
  · exact run_preserves (applied rt _)
      (fun s' => EventDispatcher.SameView s.dispatcher s'.dispatcher)
      (fun s' rule h => h.trans (applied_view rt _ s' rule)) (indexed i s) _ ⟨rfl, rfl, rfl, rfl⟩
  · exact appliedDefaults_view rt s i

theorem removeOne_view (rules : HashMap String RouteRule) (s : System κ) (e : String × ℕ) :
    EventDispatcher.SameView s.dispatcher (removeOne rt rules s e).dispatcher := by
  unfold removeOne
  cases rules.lookup e.1 <;> exact ⟨rfl, rfl, rfl, rfl⟩

/- Whatever the kernel answers, a reaction changes the record of SSIDs as the event says, and
else only the indices and the executor. -/
theorem reacted_view (order : RouteOrder) (s : System κ) (event : NetworkEvent) :
    EventDispatcher.SameView (s.dispatcher.noting event) (reacted rt order s event).dispatcher := by
  have hremoves : ∀ rules todo, EventDispatcher.SameView s.dispatcher
      (run (removeOne rt rules) s todo).dispatcher := fun rules todo =>
    run_preserves (removeOne rt rules)
      (fun s' => EventDispatcher.SameView s.dispatcher s'.dispatcher)
      (fun s' e h => h.trans (removeOne_view rt rules s' e)) s todo (.refl _)
  cases event with
  | interfaceChanged i change =>
    cases change with
    | down => exact hremoves _ _
    | removed => exact hremoves _ _
    | added => exact .refl _
    | up =>
      simp only [reacted]
      split_ifs
      · exact appliedDefaults_view rt s i
      · exact .refl _
  | wifiConnected i ssid =>
    exact appliedRules_view rt { s with dispatcher := s.dispatcher.recordSsid i ssid } i _
  | wifiDisconnected i last =>
    exact appliedDefaults_view rt { s with dispatcher := s.dispatcher.forgetSsid i } i
  | addressChanged i added removed => exact appliedRules_view rt s i _
  | routeChanged i destination gateway added => exact .refl _

/-! ### Operations -/

/- The system once the network state has taken in the event. -/
def observed (event : NetworkEvent) (s : System κ) : System κ :=
  { s with dispatcher := s.dispatcher.observing event }

theorem handleEvent_after (order : RouteOrder) (event : NetworkEvent) {s : System κ}
    (hr : s.dispatcher.state = .running) :
    after (Dispatch.handleEvent rt order event) s = reacted rt order (observed event s) event := by
  rw [Dispatch.handleEvent, after_bind_ok (readDispatcher_ok s), if_neg (not_not.mpr hr),
    NetworkState.applyEvent_observe, ← react_after]
  exact after_bind_ok (modifyDispatcher_ok _ s)

theorem handleEvent_idle (order : RouteOrder) (event : NetworkEvent) {s : System κ}
    (hr : s.dispatcher.state ≠ .running) :
    after (Dispatch.handleEvent rt order event) s = s := by
  rw [Dispatch.handleEvent, after_bind_ok (readDispatcher_ok s), if_pos hr]
  rfl

theorem handleEvent_view (order : RouteOrder) (event : NetworkEvent) {s : System κ}
    (hr : s.dispatcher.state = .running) :
    EventDispatcher.SameView ((s.dispatcher.observing event).noting event)
      (after (Dispatch.handleEvent rt order event) s).dispatcher := by
  rw [handleEvent_after rt order event hr]
  exact reacted_view rt order (observed event s) event

/- The system once the interfaces are known and the stale tables have been flushed. -/
def swept (interfaces : List InterfaceInfo) (s : System κ) : System κ :=
  System.withExec (after (Dispatch.sweepStaleTables rt) s.execState)
    { s with dispatcher := s.dispatcher.withInterfaces interfaces }

theorem applyInitialState_after (interfaces : List InterfaceInfo) (s : System κ) :
    after (Dispatch.applyInitialState rt interfaces) s =
      run (appliedDefaults rt) (swept rt interfaces s) (s.dispatcher.upNames interfaces) := by
  obtain ⟨k, hk⟩ := sweep_ok rt s.execState
  have hclean : Dispatch.cleanupStaleTables rt
      { s with dispatcher := s.dispatcher.withInterfaces interfaces } =
        .ok () (swept rt interfaces s) := by
    rw [swept, after_ok hk]
    exact zoom_ok hk
  rw [Dispatch.applyInitialState, after_bind_ok (modifyDispatcher_ok _ s)]
  refine (after_bind_ok hclean).trans ((after_bind_ok (readDispatcher_ok _)).trans ?_)
  exact applyInitialLoop_after rt _ (swept rt interfaces s)

theorem applyInitialState_view (interfaces : List InterfaceInfo) (s : System κ) :
    EventDispatcher.SameView (s.dispatcher.withInterfaces interfaces)
      (after (Dispatch.applyInitialState rt interfaces) s).dispatcher := by
  rw [applyInitialState_after]
  exact run_preserves (appliedDefaults rt)
    (fun s' => EventDispatcher.SameView (s.dispatcher.withInterfaces interfaces) s'.dispatcher)
    (fun s' i h => h.trans (appliedDefaults_view rt s' i)) (swept rt interfaces s)
    (s.dispatcher.upNames interfaces) ⟨rfl, rfl, rfl, rfl⟩

end NicAutoswitch.Engine
