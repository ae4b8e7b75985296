import NicAutoswitch.Engine.Dispatcher
import NicAutoswitch.Lib.Run
import NicAutoswitch.Router.Granted

/-!
# The dispatcher when every request is granted

Without failures the dispatcher's own state evolves independently of the kernel.
`granted` is that evolution as a pure function of the dispatcher, and
`perform_granted` is the refinement: the daemon's operations carry it out, for
every kernel that grants all requests.
-/

namespace NicAutoswitch.Engine
open HashMaps Schema Monitor Router StateProg

namespace RuleExecutor

/- An installable rule is recorded, any other is passed over. -/
def grant (e : RuleExecutor) (rule : RouteRule) (tableId : ℕ) : RuleExecutor :=
  if RuleOperator.Installable rule then
    e.trackActiveRoute rule.name rule.routeVia.interface tableId
  else e

def grantRules (tableId : ℕ) (rules : List RouteRule) (e : RuleExecutor) : RuleExecutor :=
  rules.foldl (fun e rule => e.grant rule tableId) e

/- Rules that are already recorded are skipped. -/
def grantDefaults (tableId : ℕ) : List RouteRule → RuleExecutor → RuleExecutor
  | [], e => e
  | rule :: rest, e =>
    grantDefaults tableId rest
      (if e.isRouteActive rule.name then e else e.grant rule tableId)

theorem grantDefaults_active {e : RuleExecutor} {rule : RouteRule} (t : ℕ)
    (rest : List RouteRule) (h : e.isRouteActive rule.name = true) :
    grantDefaults t (rule :: rest) e = grantDefaults t rest e := by
  rw [grantDefaults, if_pos h]

theorem grantDefaults_fresh {e : RuleExecutor} {rule : RouteRule} (t : ℕ)
    (rest : List RouteRule) (h : ¬ e.isRouteActive rule.name = true) :
    grantDefaults t (rule :: rest) e = grantDefaults t rest (e.grant rule t) := by
  rw [grantDefaults, if_neg h]

def withdraw (e : RuleExecutor) (rule : RouteRule) (tableId : ℕ) : RuleExecutor :=
  if (RuleOperator.target? rule).isSome ∧ e.routeManager.Withdrawable tableId then
    e.untrackActiveRoute rule.name
  else e

def withdrawAll (rules : HashMap String RouteRule) : List (String × ℕ) → RuleExecutor →
    RuleExecutor
  | [], e => e
  | (ruleName, tableId) :: rest, e =>
    withdrawAll rules rest
      (match rules.lookup ruleName with
        | some rule => e.withdraw rule tableId
        | none => e)

end RuleExecutor

namespace EventDispatcher

def mapExecutor (d : EventDispatcher) (f : RuleExecutor → RuleExecutor) : EventDispatcher :=
  { d with executor := f d.executor }

@[simp] theorem mapExecutor_executor (d : EventDispatcher) (f : RuleExecutor → RuleExecutor) :
    (d.mapExecutor f).executor = f d.executor := rfl

def grantedDefaults (d : EventDispatcher) (interface : String) : EventDispatcher :=
  if d.config.routing.defaultRules.isEmpty then d
  else
    let (tableId, d') := d.getTableIdForInterface interface
    d'.mapExecutor (RuleExecutor.grantDefaults tableId d.config.routing.defaultRules)

def grantedRulesFor (d : EventDispatcher) (interface : String) (ssid : Option String) :
    EventDispatcher :=
  match ssid.bind d.config.wifiProfiles.lookup with
  | some profile =>
    let (tableId, d') := d.getTableIdForInterface interface
    d'.mapExecutor (RuleExecutor.grantRules tableId profile.rules)
  | none => d.grantedDefaults interface

def grantedDown (d : EventDispatcher) (order : RouteOrder) (interface : String) :
    EventDispatcher :=
  d.mapExecutor (RuleExecutor.withdrawAll (rulesMap d.config)
    (dependentRoutes order d.executor.activeRoutes interface))

def grantedUp (d : EventDispatcher) (interface : String) : EventDispatcher :=
  if d.shouldApply interface then d.grantedDefaults interface else d

def recordSsid (d : EventDispatcher) (interface ssid : String) : EventDispatcher :=
  { d with currentSsids := d.currentSsids.insert interface ssid }

def forgetSsid (d : EventDispatcher) (interface : String) : EventDispatcher :=
  { d with currentSsids := d.currentSsids.erase interface }

def grantedReaction (d : EventDispatcher) (order : RouteOrder) : NetworkEvent → EventDispatcher
  | .interfaceChanged interface .down => d.grantedDown order interface
  | .interfaceChanged interface .removed => d.grantedDown order interface
  | .interfaceChanged interface .up => d.grantedUp interface
  | .interfaceChanged _ .added => d
  | .wifiConnected interface ssid =>
    (d.recordSsid interface ssid).grantedRulesFor interface (some ssid)
  | .wifiDisconnected interface _ => (d.forgetSsid interface).grantedDefaults interface
  | .addressChanged interface _ _ => d.grantedRulesFor interface (d.currentSsid interface)
  | .routeChanged _ _ _ _ => d

def observing (d : EventDispatcher) (event : NetworkEvent) : EventDispatcher :=
  { d with networkState := d.networkState.observe event }

def grantedEvent (d : EventDispatcher) (order : RouteOrder) (event : NetworkEvent) :
    EventDispatcher :=
  if d.state ≠ .running then d
  else (d.observing event).grantedReaction order event

def withInterfaces (d : EventDispatcher) (interfaces : List InterfaceInfo) : EventDispatcher :=
  { d with networkState := interfaces.foldl NetworkState.updateInterface d.networkState }

/- The configured interfaces that are up. -/
def upNames (d : EventDispatcher) (interfaces : List InterfaceInfo) : List String :=
  (interfaces.filter fun info => info.isUp && decide (info.name ∈ d.config.interfaces)).map
    (·.name)

def grantedInitialState (d : EventDispatcher) (interfaces : List InterfaceInfo) :
    EventDispatcher :=
  (d.upNames interfaces).foldl grantedDefaults (d.withInterfaces interfaces)

def granted (d : EventDispatcher) : Dispatch.Op → EventDispatcher
  | .start => d.start
  | .stop => d.stop
  | .applyInitialState interfaces => d.grantedInitialState interfaces
  | .handleEvent order event => d.grantedEvent order event
  | .updateConfig config => d.updateConfig config

end EventDispatcher

/-! ### The executor carries it out -/

section Executor

variable {κ : Type} {rt : Rtnetlink κ}

theorem returns_recorded (call : ExecutorCall) {α : Type} {x : Exec κ α} {s : ExecutorState κ}
    {e : RuleExecutor} (h : Returns x s fun _ s' => s'.executor = e) :
    Returns (recorded call x) s fun _ s' => s'.executor = e := by
  obtain ⟨a, s', hx, he⟩ := h
  exact ⟨a, _, recorded_ok hx, he⟩

theorem applyRule_granted (rule : RouteRule) (index t : ℕ)
    (s : ExecutorState κ) (hr : s.executor.routeManager.Served rt) :
    (after (RuleExecutor.applyRule rt rule index t) s).executor = s.executor.grant rule t := by
  unfold RuleExecutor.grant
  cases hv : RuleOperator.validateRule rule with
  | error e =>
    have hn : ¬ RuleOperator.Installable rule := fun h => by rw [h.1] at hv; cases hv
    rw [after_error (RuleExecutor.applyRule_invalid rt index t s hv), if_neg hn]
  | ok u =>
    cases ht : RuleOperator.target? rule with
    | none =>
      have hn : ¬ RuleOperator.Installable rule := fun h => by
        have h2 := h.2
        rw [ht] at h2
        cases h2
      obtain ⟨e, he⟩ := RuleOperator.applyRule_rejected rt s.executor.routeManager rule index t
        s.kernel ht
      rw [after_error (RuleExecutor.applyRule_error hv he), if_neg hn]
    | some d =>
      have hs : (RuleOperator.target? rule).isSome := by rw [ht]; rfl
      have hi : RuleOperator.Installable rule := ⟨hv, hs⟩
      obtain ⟨k, hk⟩ := RuleOperator.applyRule_granted hr rule index t s.kernel hs
      rw [after_ok (RuleExecutor.applyRule_ok hv hk), if_pos hi]

theorem removeRule_granted (rule : RouteRule) (t : ℕ)
    (s : ExecutorState κ) (hr : s.executor.routeManager.Served rt) :
    (after (RuleExecutor.removeRule rt rule t) s).executor = s.executor.withdraw rule t := by
  unfold RuleExecutor.withdraw
  split_ifs with hw
  · obtain ⟨k, hk⟩ := RuleOperator.removeRule_granted hr rule s.kernel hw.1 hw.2
    rw [after_ok (RuleExecutor.removeRule_ok hk)]
  · obtain ⟨e, he⟩ := RuleOperator.removeRule_rejected rt hr.ready rule s.kernel hw
    rw [after_error (RuleExecutor.removeRule_error he)]

end Executor

/-! ### The manager stays as it is -/

namespace RuleExecutor

@[simp] theorem grant_routeManager (e : RuleExecutor) (rule : RouteRule) (t : ℕ) :
    (e.grant rule t).routeManager = e.routeManager := by
  unfold grant
  split <;> rfl

@[simp] theorem withdraw_routeManager (e : RuleExecutor) (rule : RouteRule) (t : ℕ) :
    (e.withdraw rule t).routeManager = e.routeManager := by
  unfold withdraw
  split <;> rfl

@[simp] theorem grantRules_routeManager (t : ℕ) (rules : List RouteRule) (e : RuleExecutor) :
    (grantRules t rules e).routeManager = e.routeManager := by
  unfold grantRules
  induction rules generalizing e with
  | nil => rfl
  | cons rule rest ih => rw [List.foldl_cons, ih, grant_routeManager]

@[simp] theorem grantDefaults_routeManager (t : ℕ) (rules : List RouteRule)
    (e : RuleExecutor) : (grantDefaults t rules e).routeManager = e.routeManager := by
  induction rules generalizing e with
  | nil => rfl
  | cons rule rest ih =>
    rw [grantDefaults, ih]
    split
    · rfl
    · exact grant_routeManager e rule t

@[simp] theorem withdrawAll_routeManager (rules : HashMap String RouteRule)
    (todo : List (String × ℕ)) (e : RuleExecutor) :
    (withdrawAll rules todo e).routeManager = e.routeManager := by
  induction todo generalizing e with
  | nil => rfl
  | cons entry rest ih =>
    rw [withdrawAll, ih]
    cases rules.lookup entry.1 with
    | none => rfl
    | some rule => exact withdraw_routeManager e rule entry.2

end RuleExecutor

namespace EventDispatcher

@[simp] theorem grantedDefaults_routeManager (d : EventDispatcher) (interface : String) :
    (d.grantedDefaults interface).executor.routeManager = d.executor.routeManager := by
  unfold grantedDefaults
  split
  · rfl
  · exact RuleExecutor.grantDefaults_routeManager _ _ d.executor

@[simp] theorem grantedRulesFor_routeManager (d : EventDispatcher) (interface : String)
    (ssid : Option String) :
    (d.grantedRulesFor interface ssid).executor.routeManager = d.executor.routeManager := by
  unfold grantedRulesFor
  split
  · exact RuleExecutor.grantRules_routeManager _ _ d.executor
  · exact grantedDefaults_routeManager d interface

theorem grantedUp_routeManager (d : EventDispatcher) (interface : String) :
    (d.grantedUp interface).executor.routeManager = d.executor.routeManager := by
  unfold grantedUp
  split
  · exact grantedDefaults_routeManager d interface
  · rfl

theorem grantedReaction_routeManager (d : EventDispatcher) (order : RouteOrder)
    (event : NetworkEvent) :
    (d.grantedReaction order event).executor.routeManager = d.executor.routeManager := by
  unfold grantedReaction
  split
  · exact RuleExecutor.withdrawAll_routeManager _ _ _
  · exact RuleExecutor.withdrawAll_routeManager _ _ _
  · exact grantedUp_routeManager d _
  · rfl
  · exact grantedRulesFor_routeManager _ _ _
  · exact grantedDefaults_routeManager _ _
  · exact grantedRulesFor_routeManager d _ _
  · rfl

theorem foldl_grantedDefaults_routeManager (names : List String) (d : EventDispatcher) :
    (names.foldl grantedDefaults d).executor.routeManager = d.executor.routeManager := by
  induction names generalizing d with
  | nil => rfl
  | cons name rest ih => rw [List.foldl_cons, ih, grantedDefaults_routeManager]

theorem granted_routeManager (d : EventDispatcher) (op : Dispatch.Op) :
    (d.granted op).executor.routeManager = d.executor.routeManager := by
  cases op with
  | start =>
    simp only [granted, start]
    split <;> rfl
  | stop => rfl
  | updateConfig config => rfl
  | applyInitialState interfaces => exact foldl_grantedDefaults_routeManager _ _
  | handleEvent order event =>
    simp only [granted, grantedEvent]
    split
    · rfl
    · exact grantedReaction_routeManager _ order event

end EventDispatcher

/-! ### The dispatcher carries it out -/

section Daemon

variable {κ : Type} {rt : Rtnetlink κ}

/- `x` succeeds and turns the dispatcher into `d`. -/
abbrev Becomes {α : Type} (x : Daemon κ α) (s : System κ) (d : EventDispatcher) : Prop :=
  Returns x s fun _ s' => s'.dispatcher = d

theorem readDispatcher_ok (s : System κ) : readDispatcher s = .ok s.dispatcher s := rfl

theorem attempt_onExecutor {α : Type} {x : Exec κ α} {s : System κ} {e : RuleExecutor}
    (h : (after x s.execState).executor = e) :
    Becomes (attempt (onExecutor x)) s (s.dispatcher.mapExecutor fun _ => e) := by
  have hz : (after (onExecutor x) s).dispatcher = s.dispatcher.mapExecutor fun _ => e := by
    rw [onExecutor, after_zoom, ← h]
    rfl
  exact returns_attempt (P := fun s' : System κ => s'.dispatcher = _) hz

theorem onExecutor_returns {α : Type} {x : Exec κ α} {s : System κ} {e : RuleExecutor}
    (h : Returns x s.execState fun _ s' => s'.executor = e) :
    Becomes (onExecutor x) s (s.dispatcher.mapExecutor fun _ => e) := by
  obtain ⟨a, s', hx, he⟩ := h
  refine ⟨a, System.withExec s' s, zoom_ok hx, ?_⟩
  subst he
  rfl

theorem applyDefaultLoop_granted (t : ℕ) (rules : List RouteRule)
    (s : System κ) (hr : s.dispatcher.executor.routeManager.Served rt) :
    Becomes (Dispatch.applyDefaultLoop rt t rules) s
      (s.dispatcher.mapExecutor (RuleExecutor.grantDefaults t rules)) := by
  induction rules generalizing s with
  | nil => exact returns_pure rfl
  | cons rule rest ih =>
    rw [Dispatch.applyDefaultLoop]
    refine returns_bind_ok (readDispatcher_ok s) ?_
    by_cases ha : s.dispatcher.executor.isRouteActive rule.name = true
    · have h1 := ih s hr
      rw [if_pos ha, EventDispatcher.mapExecutor, RuleExecutor.grantDefaults_active t rest ha]
      exact h1
    · have h1 := attempt_onExecutor (applyRule_granted rule 0 t s.execState hr)
      rw [if_neg ha, EventDispatcher.mapExecutor, RuleExecutor.grantDefaults_fresh t rest ha]
      refine h1.bind fun _ s' hs' => ?_
      have hr' : s'.dispatcher.executor.routeManager.Served rt := by
        rw [hs', EventDispatcher.mapExecutor_executor, RuleExecutor.grant_routeManager]
        exact hr
      have h2 := ih s' hr'
      rw [hs'] at h2
      exact h2

theorem tableIdFor_ok (interface : String) (s : System κ) :
    tableIdFor interface s = .ok (s.dispatcher.getTableIdForInterface interface).1
      { s with dispatcher := (s.dispatcher.getTableIdForInterface interface).2 } := rfl

theorem applyDefaultRules_granted (interface : String) (s : System κ)
    (hr : s.dispatcher.executor.routeManager.Served rt) :
    Becomes (Dispatch.applyDefaultRules rt interface) s
      (s.dispatcher.grantedDefaults interface) := by
  rw [Dispatch.applyDefaultRules]
  refine returns_bind_ok (readDispatcher_ok s) ?_
  unfold EventDispatcher.grantedDefaults
  by_cases he : s.dispatcher.config.routing.defaultRules.isEmpty = true
  · simp only [if_pos he]
    exact returns_pure rfl
  · simp only [if_neg he]
    refine returns_bind_ok (tableIdFor_ok interface s) ?_
    exact applyDefaultLoop_granted _ _ _ hr

theorem applyRules_granted (index t : ℕ) (rules : List RouteRule) (n : ℕ)
    (s : ExecutorState κ) (hr : s.executor.routeManager.Served rt) :
    Returns (RuleExecutor.applyRules rt index t rules n) s fun _ s' =>
      s'.executor = RuleExecutor.grantRules t rules s.executor := by
  induction rules generalizing s n with
  | nil => exact returns_pure rfl
  | cons rule rest ih =>
    rw [RuleExecutor.applyRules]
    have h1 := returns_attempt (P := fun s' : ExecutorState κ => s'.executor = _)
      (applyRule_granted rule index t s hr)
    refine h1.bind fun r s' hs' => ?_
    have hr' : s'.executor.routeManager.Served rt := by
      rw [hs', RuleExecutor.grant_routeManager]
      exact hr
    cases r with
    | ok u =>
      have h2 := ih (n + 1) s' hr'
      rw [hs'] at h2
      exact h2
    | error e =>
      have h2 := ih n s' hr'
      rw [hs'] at h2
      exact h2

theorem applyRulesForInterface_granted (interface : String)
    (ssid : Option String) (s : System κ) (hr : s.dispatcher.executor.routeManager.Served rt) :
    Becomes (Dispatch.applyRulesForInterface rt interface ssid) s
      (s.dispatcher.grantedRulesFor interface ssid) := by
  rw [Dispatch.applyRulesForInterface]
  refine returns_bind_ok (readDispatcher_ok s) ?_
  unfold EventDispatcher.grantedRulesFor
  cases ssid.bind s.dispatcher.config.wifiProfiles.lookup with
  | none => exact applyDefaultRules_granted interface s hr
  | some profile =>
    refine returns_bind_ok (tableIdFor_ok interface s) ?_
    have h1 := applyRules_granted 0 (s.dispatcher.getTableIdForInterface interface).1
      profile.rules 0 ⟨s.dispatcher.executor, s.kernel, s.history⟩ hr
    have h2 := onExecutor_returns
      (s := ⟨(s.dispatcher.getTableIdForInterface interface).2, s.kernel, s.history⟩) h1
    refine Returns.bind h2 fun _ s' hs' => ?_
    exact returns_pure hs'

theorem removeLoop_granted (rules : HashMap String RouteRule)
    (todo : List (String × ℕ)) (s : System κ)
    (hr : s.dispatcher.executor.routeManager.Served rt) :
    Becomes (Dispatch.removeLoop rt rules todo) s
      (s.dispatcher.mapExecutor (RuleExecutor.withdrawAll rules todo)) := by
  induction todo generalizing s with
  | nil => exact returns_pure rfl
  | cons entry rest ih =>
    obtain ⟨ruleName, t⟩ := entry
    rw [Dispatch.removeLoop, EventDispatcher.mapExecutor, RuleExecutor.withdrawAll]
    cases rules.lookup ruleName with
    | none => exact ih s hr
    | some rule =>
      have h1 := attempt_onExecutor (removeRule_granted rule t s.execState hr)
      refine h1.bind fun _ s' hs' => ?_
      have hr' : s'.dispatcher.executor.routeManager.Served rt := by
        rw [hs', EventDispatcher.mapExecutor_executor, RuleExecutor.withdraw_routeManager]
        exact hr
      have h2 := ih s' hr'
      rw [hs'] at h2
      exact h2

theorem handleInterfaceDown_granted (order : RouteOrder) (interface : String)
    (s : System κ) (hr : s.dispatcher.executor.routeManager.Served rt) :
    Becomes (Dispatch.handleInterfaceDown rt order interface) s
      (s.dispatcher.grantedDown order interface) := by
  rw [Dispatch.handleInterfaceDown]
  refine returns_bind_ok (readDispatcher_ok s) ?_
  unfold EventDispatcher.grantedDown
  cases hd : EventDispatcher.dependentRoutes order s.dispatcher.executor.activeRoutes interface with
  | nil => exact returns_pure rfl
  | cons entry rest => exact removeLoop_granted _ _ s hr

theorem modifyDispatcher_ok (f : EventDispatcher → EventDispatcher) (s : System κ) :
    modifyDispatcher f s = .ok () { s with dispatcher := f s.dispatcher } := rfl

theorem react_granted (order : RouteOrder) (event : NetworkEvent)
    (s : System κ) (hr : s.dispatcher.executor.routeManager.Served rt) :
    Becomes (Dispatch.react rt order event) s (s.dispatcher.grantedReaction order event) := by
  cases event with
  | interfaceChanged interface change =>
    cases change with
    | down => exact handleInterfaceDown_granted order interface s hr
    | removed => exact handleInterfaceDown_granted order interface s hr
    | added => exact returns_pure rfl
    | up =>
      refine returns_bind_ok (readDispatcher_ok s) ?_
      unfold EventDispatcher.grantedReaction EventDispatcher.grantedUp
      by_cases ha : s.dispatcher.shouldApply interface = true
      · simp only [if_pos ha]
        exact applyDefaultRules_granted interface s hr
      · simp only [if_neg ha]
        exact returns_pure rfl
  | wifiConnected interface ssid =>
    refine returns_bind_ok (modifyDispatcher_ok _ s) ?_
    exact applyRulesForInterface_granted interface (some ssid) _ hr
  | wifiDisconnected interface lastSsid =>
    refine returns_bind_ok (modifyDispatcher_ok _ s) ?_
    exact applyDefaultRules_granted interface _ hr
  | addressChanged interface added removed =>
    refine returns_bind_ok (readDispatcher_ok s) ?_
    exact applyRulesForInterface_granted interface _ s hr
  | routeChanged interface destination gateway added => exact returns_pure rfl

theorem handleEvent_granted (order : RouteOrder) (event : NetworkEvent)
    (s : System κ) (hr : s.dispatcher.executor.routeManager.Served rt) :
    Becomes (Dispatch.handleEvent rt order event) s (s.dispatcher.grantedEvent order event) := by
  rw [Dispatch.handleEvent]
  refine returns_bind_ok (readDispatcher_ok s) ?_
  unfold EventDispatcher.grantedEvent
  split
  · exact returns_pure rfl
  · rw [NetworkState.applyEvent_observe]
    exact returns_bind_ok (modifyDispatcher_ok _ s) (react_granted order event _ hr)

/- Flushing tables is never reported as a failure, whatever the kernel answers. -/
theorem flushTables_returns (rt : Rtnetlink κ) (rm : RouteManager) (tables : List ℕ) (k : κ) :
    ∃ k', Dispatch.flushTables rt rm tables k = .ok () k' := by
  induction tables generalizing k with
  | nil => exact ⟨k, rfl⟩
  | cons t rest ih =>
    rw [Dispatch.flushTables]
    cases h : rm.flushTableComplete rt t k with
    | ok n k1 =>
      rw [bind_ok (attempt_ok h)]
      exact ih k1
    | error e k1 =>
      rw [bind_ok (attempt_error h)]
      exact ih k1

theorem cleanupStaleTables_keeps (s : System κ) :
    Becomes (Dispatch.cleanupStaleTables rt) s s.dispatcher := by
  have hread : (RuleExecutor.readExecutor : Exec κ RuleExecutor) s.execState =
    .ok s.dispatcher.executor s.execState := rfl
  obtain ⟨k, hk⟩ := flushTables_returns rt s.dispatcher.executor.routeManager
    (Dispatch.staleTables (s.dispatcher.executor.routeManager.tableIdV4 0)) s.kernel
  refine onExecutor_returns (returns_recorded .cleanup ?_)
  exact returns_bind_ok hread (returns_of_ok (onKernel_ok hk) rfl)

theorem applyInitialLoop_granted (names : List String) (s : System κ)
    (hr : s.dispatcher.executor.routeManager.Served rt) :
    Becomes (Dispatch.applyInitialLoop rt names) s
      (names.foldl EventDispatcher.grantedDefaults s.dispatcher) := by
  induction names generalizing s with
  | nil => exact returns_pure rfl
  | cons name rest ih =>
    rw [Dispatch.applyInitialLoop]
    have h1 := (applyDefaultRules_granted name s hr).after
    have h2 := returns_attempt (P := fun s' : System κ => s'.dispatcher = _) h1
    refine h2.bind fun _ s' hs' => ?_
    have hr' : s'.dispatcher.executor.routeManager.Served rt := by
      rw [hs', EventDispatcher.grantedDefaults_routeManager]
      exact hr
    have h3 := ih s' hr'
    rw [hs'] at h3
    exact h3

theorem applyInitialState_granted (interfaces : List InterfaceInfo)
    (s : System κ) (hr : s.dispatcher.executor.routeManager.Served rt) :
    Becomes (Dispatch.applyInitialState rt interfaces) s
      (s.dispatcher.grantedInitialState interfaces) := by
  rw [Dispatch.applyInitialState]
  refine returns_bind_ok (modifyDispatcher_ok _ s) ?_
  refine (cleanupStaleTables_keeps _).bind fun _ s' hs' => ?_
  refine returns_bind_ok (readDispatcher_ok s') ?_
  have hr' : s'.dispatcher.executor.routeManager.Served rt := by
    rw [hs']
    exact hr
  have h1 := applyInitialLoop_granted (s'.dispatcher.upNames interfaces) s' hr'
  rw [hs'] at h1 ⊢
  exact h1

/- The refinement: an operation of the daemon does to the dispatcher what `granted`
says. -/
theorem perform_served (s : System κ) (op : Dispatch.Op)
    (hr : s.dispatcher.executor.routeManager.Served rt) :
    (Dispatch.perform rt s op).dispatcher = s.dispatcher.granted op := by
  cases op with
  | start => rfl
  | stop => rfl
  | updateConfig config => rfl
  | applyInitialState interfaces => exact (applyInitialState_granted interfaces s hr).after
  | handleEvent order event => exact (handleEvent_granted order event s hr).after

theorem perform_granted (hg : rt.Grants) (s : System κ) (op : Dispatch.Op)
    (hr : s.dispatcher.executor.routeManager.Ready) :
    (Dispatch.perform rt s op).dispatcher = s.dispatcher.granted op :=
  perform_served s op (hr.served hg)

end Daemon

end NicAutoswitch.Engine
