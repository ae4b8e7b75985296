import NicAutoswitch.Engine.Handlers

/-!
# Concurrent handlers

A handler gives up control at the requests of the route manager. It is a task: between
two requests it works on the dispatcher alone, and while it waits the kernel, or another
task, makes the next step. A task that has its answer may have to wait for its turn.
-/

namespace NicAutoswitch.Engine.Tasks
open HashMaps Schema Monitor Router StateProg Transition

/- One turn of a handler's loop: the loop of `apply_default_rules`, that of
`apply_wifi_profile`, and that of `handle_interface_down`. -/
inductive Work where
  | applyDefault (rule : RouteRule) (tableId : ℕ)
  | applyProfile (rule : RouteRule) (tableId : ℕ)
  | remove (rule : RouteRule) (tableId : ℕ)
  deriving Repr, DecidableEq

/- The request that a call has sent, or how the call has ended. -/
inductive Stage where
  | addRule (destination : IpNetwork)
  | getLink (destination : IpNetwork)
  | addRoute (destination : IpNetwork) (index : ℕ)
  | delRule (destination : IpNetwork) (message : RuleMessage)
  | delRoute (message : RouteMessage)
  | ended (ok : Bool)
  deriving Repr, DecidableEq

inductive Task where
  | spawned (order : RouteOrder) (event : NetworkEvent)
  | calling (work : Work) (stage : Stage) (rest : List Work)
  | finished

namespace Work

/- A default rule that is active is passed over. -/
def skipped (e : RuleExecutor) : Work → Bool
  | applyDefault rule _ => e.isRouteActive rule.name
  | applyProfile _ _ => false
  | remove _ _ => false

/- The part of `add_policy_rule` before its request. -/
def openApply (rm : RouteManager) (rule : RouteRule) : Stage :=
  match RuleOperator.validateRule rule with
  | .error _ => .ended false
  | .ok () =>
    match RuleOperator.getDestination rule with
    | .error _ => .ended false
    | .ok destination =>
      if rm.dryRun then .ended true
      else if rm.handle.isNone then .ended false
      else .addRule destination

/- The part of `remove_policy_rule` before its request. -/
def openRemove (rm : RouteManager) (rule : RouteRule) (tableId : ℕ) : Stage :=
  match RuleOperator.getDestination rule with
  | .error _ => .ended false
  | .ok destination =>
    if rm.dryRun then .ended true
    else if rm.handle.isNone then .ended false
    else
      match buildRuleMessage (some destination) none tableId rule.priority
          (RouteManager.ruleIsIpv4 (some destination) none) with
      | .error _ => .ended false
      | .ok message => .delRule destination message

def opening (rm : RouteManager) : Work → Stage
  | applyDefault rule _ => openApply rm rule
  | applyProfile rule _ => openApply rm rule
  | remove rule tableId => openRemove rm rule tableId

/- What the executor records when the call returns. -/
def complete (e : RuleExecutor) (ok : Bool) : Work → RuleExecutor
  | applyDefault rule tableId =>
    if ok then e.trackActiveRoute rule.name rule.routeVia.interface tableId else e
  | applyProfile rule tableId =>
    if ok then e.trackActiveRoute rule.name rule.routeVia.interface tableId else e
  | remove rule _ => if ok then e.untrackActiveRoute rule.name else e

def rule : Work → RouteRule
  | applyDefault rule _ => rule
  | applyProfile rule _ => rule
  | remove rule _ => rule

def tableId : Work → ℕ
  | applyDefault _ tableId => tableId
  | applyProfile _ tableId => tableId
  | remove _ tableId => tableId

end Work

/-! ### Requests -/

section Requests

variable {κ : Type} (rt : Rtnetlink κ)

/- The answer to a request that settles: the call goes on, or ends with an error. -/
def settled (tolerated : RtError → Bool) (next : Stage) (answer : Except RtError Unit × κ) :
    Stage × κ :=
  match answer with
  | (.ok (), k) => (next, k)
  | (.error e, k) => (if tolerated e then next else .ended false, k)

/- The kernel answers the request, and the call goes on to its next one. -/
def serve (w : Work) (stage : Stage) (k : κ) : Stage × κ :=
  match stage with
  | .addRule d =>
    settled isAlreadyExists (.getLink d)
      (rt.ruleAdd (policyRuleRequest (some d) none w.tableId w.rule.priority
        (RouteManager.ruleIsIpv4 (some d) none)) k)
  | .getLink d =>
    match rt.linkGet w.rule.routeVia.interface k with
    | (.ok (some index), k') => (.addRoute d index, k')
    | (_, k') => (.ended false, k')
  | .addRoute d index =>
    settled isAlreadyExists (.ended true)
      (rt.routeAdd (routeRequest d none index w.tableId w.rule.priority) k)
  | .delRule d message =>
    let next := match removeRouteMessage d w.tableId with
      | .error _ => .ended false
      | .ok message => .delRoute message
    settled isNoSuchEntry next (rt.ruleDel message k)
  | .delRoute message => settled isNoSuchEntry (.ended true) (rt.routeDel message k)
  | .ended ok => (.ended ok, k)

end Requests

/-! ### Handlers -/

/- Go on to the next call that waits for an answer. -/
def advance : List Work → EventDispatcher → Task × EventDispatcher
  | [], d => (.finished, d)
  | w :: rest, d =>
    if w.skipped d.executor then advance rest d
    else
      match w.opening d.executor.routeManager with
      | .ended ok => advance rest { d with executor := w.complete d.executor ok }
      | stage => (.calling w stage rest, d)

def defaultsWork (interface : String) (d : EventDispatcher) : List Work × EventDispatcher :=
  if d.config.routing.defaultRules.isEmpty then ([], d)
  else
    let (tableId, d') := d.getTableIdForInterface interface
    (d.config.routing.defaultRules.map (Work.applyDefault · tableId), d')

def rulesWork (interface : String) (ssid : Option String) (d : EventDispatcher) :
    List Work × EventDispatcher :=
  match ssid.bind d.config.wifiProfiles.lookup with
  | some profile =>
    let (tableId, d') := d.getTableIdForInterface interface
    (profile.rules.map (Work.applyProfile · tableId), d')
  | none => defaultsWork interface d

def downWork (order : RouteOrder) (interface : String) (d : EventDispatcher) :
    List Work × EventDispatcher :=
  ((EventDispatcher.dependentRoutes order d.executor.activeRoutes interface).filterMap fun entry =>
    ((EventDispatcher.rulesMap d.config).lookup entry.1).map (Work.remove · entry.2), d)

def reactWork (order : RouteOrder) (event : NetworkEvent) (d : EventDispatcher) :
    List Work × EventDispatcher :=
  match event with
  | .interfaceChanged interface .down => downWork order interface d
  | .interfaceChanged interface .removed => downWork order interface d
  | .interfaceChanged interface .up =>
    if d.shouldApply interface then defaultsWork interface d else ([], d)
  | .interfaceChanged _ .added => ([], d)
  | .wifiConnected interface ssid =>
    rulesWork interface (some ssid) { d with currentSsids := d.currentSsids.insert interface ssid }
  | .wifiDisconnected interface _ =>
    defaultsWork interface { d with currentSsids := d.currentSsids.erase interface }
  | .addressChanged interface _ _ => rulesWork interface (d.currentSsid interface) d
  | .routeChanged _ _ _ _ => ([], d)

/- The part of `handle_event` before its loop. -/
def eventWork (order : RouteOrder) (event : NetworkEvent) (d : EventDispatcher) :
    List Work × EventDispatcher :=
  if d.state ≠ .running then ([], d)
  else
    match d.networkState.applyEvent event with
    | .error _ => ([], d)
    | .ok networkState => reactWork order event { d with networkState := networkState }

/- The interface that the reaction to the event may apply rules for. -/
def appliesFor : NetworkEvent → Option String
  | .interfaceChanged i .up => some i
  | .interfaceChanged _ _ => none
  | .wifiConnected i _ => some i
  | .wifiDisconnected i _ => some i
  | .addressChanged i _ _ => some i
  | .routeChanged _ _ _ _ => none

/- The second dispatcher differs in what it knows of the network at most. -/
structure Heard (d d' : EventDispatcher) : Prop where
  config : d'.config = d.config
  executor : d'.executor = d.executor
  interfaceIndices : d'.interfaceIndices = d.interfaceIndices

/- An event asks for nothing, or for one of the three kinds of work. -/
theorem eventWork_rec {P : List Work × EventDispatcher → Prop} (order : RouteOrder)
    (event : NetworkEvent) (d : EventDispatcher) (nothing : ∀ d', Heard d d' → P ([], d'))
    (defaults : ∀ i d', appliesFor event = some i → Heard d d' → P (defaultsWork i d'))
    (rules : ∀ i ssid d', appliesFor event = some i → Heard d d' → P (rulesWork i ssid d'))
    (down : ∀ i d', Heard d d' → P (downWork order i d')) : P (eventWork order event d) := by
  simp only [eventWork, NetworkState.applyEvent_observe]
  split_ifs
  · exact nothing d ⟨rfl, rfl, rfl⟩
  · cases event with
    | interfaceChanged i change =>
      cases change with
      | up =>
        simp only [reactWork]
        split_ifs
        · exact defaults i _ rfl ⟨rfl, rfl, rfl⟩
        · exact nothing _ ⟨rfl, rfl, rfl⟩
      | down => exact down i _ ⟨rfl, rfl, rfl⟩
      | added => exact nothing _ ⟨rfl, rfl, rfl⟩
      | removed => exact down i _ ⟨rfl, rfl, rfl⟩
    | wifiConnected i ssid => exact rules i _ _ rfl ⟨rfl, rfl, rfl⟩
    | wifiDisconnected i last => exact defaults i _ rfl ⟨rfl, rfl, rfl⟩
    | addressChanged i added removed => exact rules i _ _ rfl ⟨rfl, rfl, rfl⟩
    | routeChanged i destination gateway added => exact nothing _ ⟨rfl, rfl, rfl⟩

/-! ### Tasks on one dispatcher -/

structure Concurrent (κ : Type) where
  dispatcher : EventDispatcher
  kernel : κ
  tasks : List Task

variable {κ : Type} (rt : Rtnetlink κ)

/- What the task does on the dispatcher when it has the control. -/
def resume (d : EventDispatcher) : Task → Option (Task × EventDispatcher)
  | .spawned order event =>
    let (work, d') := eventWork order event d
    some (advance work d')
  | .calling w (.ended ok) rest =>
    some (advance rest { d with executor := w.complete d.executor ok })
  | .calling _ _ _ => none
  | .finished => none

/- A step of one task: it goes on, or else the kernel answers its request. -/
def step (c : Concurrent κ) (i : ℕ) : Concurrent κ :=
  match c.tasks[i]? with
  | none => c
  | some task =>
    match resume c.dispatcher task with
    | some (task', d) => { c with dispatcher := d, tasks := c.tasks.set i task' }
    | none =>
      match task with
      | .calling w stage rest =>
        let (stage', k) := serve rt w stage c.kernel
        { c with kernel := k, tasks := c.tasks.set i (.calling w stage' rest) }
      | _ => c

/-! ### How a call begins -/

/- What `apply_rule` finds before its first request, and what it does then. -/
inductive ApplyOpens (rm : RouteManager) (rule : RouteRule) : Stage → Prop
  | invalid {e : NicAutoSwitchError} (hv : RuleOperator.validateRule rule = .error e) :
      ApplyOpens rm rule (.ended false)
  | aimless {e : NicAutoSwitchError} (hv : RuleOperator.validateRule rule = .ok ())
      (hd : RuleOperator.getDestination rule = .error e) : ApplyOpens rm rule (.ended false)
  | dry {d : IpNetwork} (hv : RuleOperator.validateRule rule = .ok ())
      (hd : RuleOperator.getDestination rule = .ok d) (hdry : rm.dryRun = true) :
      ApplyOpens rm rule (.ended true)
  | unconnected {d : IpNetwork} (hv : RuleOperator.validateRule rule = .ok ())
      (hd : RuleOperator.getDestination rule = .ok d) (hdry : ¬ rm.dryRun = true)
      (hn : rm.handle.isNone) : ApplyOpens rm rule (.ended false)
  | request {d : IpNetwork} (hv : RuleOperator.validateRule rule = .ok ())
      (hd : RuleOperator.getDestination rule = .ok d) (hdry : ¬ rm.dryRun = true)
      (hc : rm.handle.isSome) : ApplyOpens rm rule (.addRule d)

/- What `remove_rule` finds before its first request, and what it does then. -/
inductive RemoveOpens (rm : RouteManager) (rule : RouteRule) (tableId : ℕ) : Stage → Prop
  | aimless {e : NicAutoSwitchError} (hd : RuleOperator.getDestination rule = .error e) :
      RemoveOpens rm rule tableId (.ended false)
  | dry {d : IpNetwork} (hd : RuleOperator.getDestination rule = .ok d)
      (hdry : rm.dryRun = true) : RemoveOpens rm rule tableId (.ended true)
  | unconnected {d : IpNetwork} (hd : RuleOperator.getDestination rule = .ok d)
      (hdry : ¬ rm.dryRun = true) (hn : rm.handle.isNone) :
      RemoveOpens rm rule tableId (.ended false)
  | unsendable {d : IpNetwork} {e : NicAutoSwitchError}
      (hd : RuleOperator.getDestination rule = .ok d) (hdry : ¬ rm.dryRun = true)
      (hc : rm.handle.isSome) (hm : buildRuleMessage (some d) none tableId rule.priority
        (RouteManager.ruleIsIpv4 (some d) none) = .error e) :
      RemoveOpens rm rule tableId (.ended false)
  | request {d : IpNetwork} {message : RuleMessage}
      (hd : RuleOperator.getDestination rule = .ok d) (hdry : ¬ rm.dryRun = true)
      (hc : rm.handle.isSome) (hm : buildRuleMessage (some d) none tableId rule.priority
        (RouteManager.ruleIsIpv4 (some d) none) = .ok message) :
      RemoveOpens rm rule tableId (.delRule d message)

theorem isSome_of_not_isNone {α : Type} {o : Option α} (h : ¬ o.isNone = true) : o.isSome := by
  rw [← Option.not_isNone]
  simp only [h, Bool.not_false]

theorem applyOpens (rm : RouteManager) (rule : RouteRule) :
    ApplyOpens rm rule (Work.openApply rm rule) := by
  simp only [Work.openApply]
  cases hv : RuleOperator.validateRule rule with
  | error e => exact .invalid hv
  | ok u =>
    cases hd : RuleOperator.getDestination rule with
    | error e => exact .aimless hv hd
    | ok d =>
      dsimp only
      split_ifs with hdry hn
      · exact .dry hv hd hdry
      · exact .unconnected hv hd hdry hn
      · exact .request hv hd hdry (isSome_of_not_isNone hn)

theorem removeOpens (rm : RouteManager) (rule : RouteRule) (tableId : ℕ) :
    RemoveOpens rm rule tableId (Work.openRemove rm rule tableId) := by
  simp only [Work.openRemove]
  cases hd : RuleOperator.getDestination rule with
  | error e => exact .aimless hd
  | ok d =>
    dsimp only
    split_ifs with hdry hn
    · exact .dry hd hdry
    · exact .unconnected hd hdry hn
    · cases hm : buildRuleMessage (some d) none tableId rule.priority
          (RouteManager.ruleIsIpv4 (some d) none) with
      | error e => exact .unsendable hd hdry (isSome_of_not_isNone hn) hm
      | ok message => exact .request hd hdry (isSome_of_not_isNone hn) hm

end NicAutoswitch.Engine.Tasks
