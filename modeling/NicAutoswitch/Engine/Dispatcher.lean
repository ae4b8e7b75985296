import NicAutoswitch.Engine.Executor
import NicAutoswitch.Monitor.State

/-!
# Event dispatcher (engine/dispatcher.rs)

Table indices are `u8` values, held as natural numbers below 256. The iteration
over the active routes, a map that the dispatcher has modified, meets them in an
arbitrary order; the maps of the configuration are met in their own order.
-/

namespace NicAutoswitch.Engine
open HashMaps Schema Monitor Router StateProg

inductive DispatcherState where
  | initializing
  | running
  | stopping
  | stopped
  deriving Repr, DecidableEq

structure EventDispatcher where
  config : Config
  networkState : NetworkState := .new
  executor : RuleExecutor
  currentSsids : HashMap String String := ∅
  interfaceIndices : HashMap String ℕ
  state : DispatcherState := .initializing

/-- `u8::MAX` -/
def u8Max : ℕ := 255

abbrev RouteOrder := IterOrder (Σ _ : String, ActiveRoute)

namespace EventDispatcher

/- The loop of `new` over the enumerated names. -/
def preassign : ℕ → List String → HashMap String ℕ → HashMap String ℕ
  | _, [], indices => indices
  | idx, name :: names, indices =>
    preassign (idx + 1) names (if idx < u8Max then indices.insert name idx else indices)

def new (config : Config) (routeManager : RouteManager) : EventDispatcher where
  config := config
  executor := .new routeManager
  interfaceIndices := preassign 0 config.interfaces.keys ∅

def start (d : EventDispatcher) : EventDispatcher :=
  if d.state = .running then d else { d with state := .running }

def stop (d : EventDispatcher) : EventDispatcher :=
  { d with executor := d.executor.clearActiveRoutes, state := .stopped }

/- The index of an interface, with `len() as u8` for a new one. -/
def indexForInterface (indices : HashMap String ℕ) (interface : String) :
    ℕ × HashMap String ℕ :=
  match indices.lookup interface with
  | some idx => (idx, indices)
  | none =>
    let idx := indices.entries.length % 256
    (idx, indices.insert interface idx)

def getTableIdForInterface (d : EventDispatcher) (interface : String) : ℕ × EventDispatcher :=
  let (index, indices) := indexForInterface d.interfaceIndices interface
  (d.executor.routeManager.tableIdV4 index, { d with interfaceIndices := indices })

/- The loop of `update_config`: names that have an index keep it, the others are
given `next_idx` while it is below `u8::MAX`. -/
def rebuildIndices (existing : HashMap String ℕ) :
    List String → ℕ → HashMap String ℕ → HashMap String ℕ
  | [], _, indices => indices
  | name :: names, nextIdx, indices =>
    match existing.lookup name with
    | some idx => rebuildIndices existing names nextIdx (indices.insert name idx)
    | none =>
      if nextIdx < u8Max then
        rebuildIndices existing names (nextIdx + 1) (indices.insert name nextIdx)
      else rebuildIndices existing names nextIdx indices

def updateConfig (d : EventDispatcher) (config : Config) : EventDispatcher :=
  let existing := d.interfaceIndices
  { d with
    interfaceIndices :=
      rebuildIndices existing config.interfaces.keys (existing.entries.length % 256) ∅
    config := config }

def setRouteManager (d : EventDispatcher) (rm : RouteManager) : EventDispatcher :=
  { d with executor := d.executor.setRouteManager rm }

def currentSsid (d : EventDispatcher) (interface : String) : Option String :=
  d.currentSsids.lookup interface

/- The rules by name: the defaults, overwritten by each profile's rules in turn. -/
def rulesMap (config : Config) : HashMap String RouteRule :=
  config.allRules.foldl (fun map r => map.insert r.name r) ∅

/- The active routes via an interface, as `(name, table_id)`. -/
def dependentRoutes (order : RouteOrder) (active : HashMap String ActiveRoute)
    (interface : String) : List (String × ℕ) :=
  ((order.arrange active.entries).filter fun e => e.2.interface == interface).map
    fun e => (e.1, e.2.tableId)

/- Whether an Up event on the interface applies the default rules. -/
def shouldApply (d : EventDispatcher) (interface : String) : Bool :=
  match d.networkState.getInterface interface with
  | some info => info.isUp && !decide (interface ∈ d.currentSsids)
  | none => false

end EventDispatcher

/-- The dispatcher, the kernel it works on, and the history of its executor. -/
structure System (κ : Type) where
  dispatcher : EventDispatcher
  kernel : κ
  history : List (CallRecord κ) := []

abbrev Daemon (κ α : Type) := EStateM NicAutoSwitchError (System κ) α

variable {κ α : Type}

def System.execState (s : System κ) : ExecutorState κ :=
  ⟨s.dispatcher.executor, s.kernel, s.history⟩

def System.withExec (e : ExecutorState κ) (s : System κ) : System κ :=
  ⟨{ s.dispatcher with executor := e.executor }, e.kernel, e.history⟩

def onExecutor (x : Exec κ α) : Daemon κ α := zoom System.execState System.withExec x

def readDispatcher : Daemon κ EventDispatcher := fun s => .ok s.dispatcher s

def modifyDispatcher (f : EventDispatcher → EventDispatcher) : Daemon κ Unit := fun s =>
  .ok () { s with dispatcher := f s.dispatcher }

def tableIdFor (interface : String) : Daemon κ ℕ := fun s =>
  let (tableId, d) := s.dispatcher.getTableIdForInterface interface
  .ok tableId { s with dispatcher := d }

namespace Dispatch

variable (rt : Rtnetlink κ)

/- The loop of `apply_default_rules`. -/
def applyDefaultLoop (tableId : ℕ) : List RouteRule → Daemon κ Unit
  | [] => pure ()
  | rule :: rest => do
    let d ← readDispatcher
    if d.executor.isRouteActive rule.name then applyDefaultLoop tableId rest
    else
      let _ ← attempt (onExecutor (RuleExecutor.applyRule rt rule 0 tableId))
      applyDefaultLoop tableId rest

def applyDefaultRules (interface : String) : Daemon κ Unit := do
  let d ← readDispatcher
  let rules := d.config.routing.defaultRules
  if rules.isEmpty then pure ()
  else
    let tableId ← tableIdFor interface
    applyDefaultLoop rt tableId rules

def applyRulesForInterface (interface : String) (ssid : Option String) : Daemon κ Unit := do
  let d ← readDispatcher
  match ssid.bind d.config.wifiProfiles.lookup with
  | some profile =>
    let tableId ← tableIdFor interface
    let _ ← onExecutor (RuleExecutor.applyWifiProfile rt profile 0 tableId)
    pure ()
  | none => applyDefaultRules rt interface

/- The loop of `handle_interface_down`; a failed removal is only logged. -/
def removeLoop (rules : HashMap String RouteRule) : List (String × ℕ) → Daemon κ Unit
  | [] => pure ()
  | (ruleName, tableId) :: rest => do
    match rules.lookup ruleName with
    | some rule =>
      let _ ← attempt (onExecutor (RuleExecutor.removeRule rt rule tableId))
      removeLoop rules rest
    | none => removeLoop rules rest

def handleInterfaceDown (order : RouteOrder) (interface : String) : Daemon κ Unit := do
  let d ← readDispatcher
  let toRemove := EventDispatcher.dependentRoutes order d.executor.activeRoutes interface
  if toRemove.isEmpty then pure ()
  else removeLoop rt (EventDispatcher.rulesMap d.config) toRemove

def handleInterfaceChange (order : RouteOrder) (interface : String) :
    InterfaceChange → Daemon κ Unit
  | .down => handleInterfaceDown rt order interface
  | .removed => handleInterfaceDown rt order interface
  | .up => do
    let d ← readDispatcher
    if d.shouldApply interface then applyDefaultRules rt interface else pure ()
  | .added => pure ()

def handleWifiConnected (interface ssid : String) : Daemon κ Unit := do
  modifyDispatcher fun d => { d with currentSsids := d.currentSsids.insert interface ssid }
  applyRulesForInterface rt interface (some ssid)

def handleWifiDisconnected (interface : String) (_lastSsid : Option String) : Daemon κ Unit := do
  modifyDispatcher fun d => { d with currentSsids := d.currentSsids.erase interface }
  applyDefaultRules rt interface

def handleAddressChange (interface : String) : Daemon κ Unit := do
  let d ← readDispatcher
  applyRulesForInterface rt interface (d.currentSsid interface)

def react (order : RouteOrder) : NetworkEvent → Daemon κ Unit
  | .interfaceChanged interface change => handleInterfaceChange rt order interface change
  | .wifiConnected interface ssid => handleWifiConnected rt interface ssid
  | .wifiDisconnected interface lastSsid => handleWifiDisconnected rt interface lastSsid
  | .addressChanged interface _ _ => handleAddressChange rt interface
  | .routeChanged _ _ _ _ => pure ()

def handleEvent (order : RouteOrder) (event : NetworkEvent) : Daemon κ Unit := do
  let d ← readDispatcher
  if d.state ≠ .running then pure ()
  else
    match d.networkState.applyEvent event with
    | .error e => throw e
    | .ok networkState => do
      modifyDispatcher fun d => { d with networkState := networkState }
      react rt order event

def maxInterfaces : ℕ := 32

/- The tables of `cleanup_stale_tables`, in the order of its two loops. -/
def staleTables (base : ℕ) : List ℕ :=
  (List.range maxInterfaces).flatMap fun idx => [base + idx, 200 + idx]

/- A table that cannot be flushed is only logged. -/
def flushTables (rm : RouteManager) : List ℕ → Net κ Unit
  | [] => pure ()
  | tableId :: rest => do
    let _ ← attempt (rm.flushTableComplete rt tableId)
    flushTables rm rest

def sweepStaleTables : Exec κ Unit :=
  recorded .cleanup do
    let e ← RuleExecutor.readExecutor
    onKernel (flushTables rt e.routeManager (staleTables (e.routeManager.tableIdV4 0)))

def cleanupStaleTables : Daemon κ Unit := onExecutor (sweepStaleTables rt)

def applyInitialLoop : List String → Daemon κ Unit
  | [] => pure ()
  | name :: rest => do
    let _ ← attempt (applyDefaultRules rt name)
    applyInitialLoop rest

def applyInitialState (interfaces : List InterfaceInfo) : Daemon κ Unit := do
  modifyDispatcher fun d =>
    { d with networkState := interfaces.foldl NetworkState.updateInterface d.networkState }
  cleanupStaleTables rt
  let d ← readDispatcher
  let names := (interfaces.filter fun info =>
    info.isUp && decide (info.name ∈ d.config.interfaces)).map (·.name)
  applyInitialLoop rt names

/- The operations of a dispatcher. Handling an event may meet the active routes in
any order. -/
inductive Op where
  | start
  | stop
  | applyInitialState (interfaces : List InterfaceInfo)
  | handleEvent (order : RouteOrder) (event : NetworkEvent)
  | updateConfig (config : Config)

def perform (s : System κ) : Op → System κ
  | .start => { s with dispatcher := s.dispatcher.start }
  | .stop => { s with dispatcher := s.dispatcher.stop }
  | .applyInitialState interfaces => after (applyInitialState rt interfaces) s
  | .handleEvent order event => after (handleEvent rt order event) s
  | .updateConfig config => { s with dispatcher := s.dispatcher.updateConfig config }

/- A fresh dispatcher, started. -/
def launch (config : Config) (rm : RouteManager) (kernel : κ) : System κ :=
  ⟨(EventDispatcher.new config rm).start, kernel, []⟩

end Dispatch

end NicAutoswitch.Engine
