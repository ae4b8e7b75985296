import NicAutoswitch.Error
import NicAutoswitch.Lib.StateProg
import NicAutoswitch.Router.Rtnetlink

/-!
# Route table management (router/manager.rs)
-/

namespace NicAutoswitch.Router
open StateProg

/-! ### Errors of a request -/

def netlinkErrno : RtError → Option ℕ
  | .netlinkError code _ => code.map Int.natAbs
  | .other _ => none

def isAlreadyExists (err : RtError) : Bool := netlinkErrno err == some 17

def isNoSuchEntry (err : RtError) : Bool :=
  netlinkErrno err == some 2 || netlinkErrno err == some 6

/-! ### Table ids -/

def ipv4TableStart : ℕ := 100
def ipv4TableEnd : ℕ := 199
def ipv6TableStart : ℕ := 200
def ipv6TableEnd : ℕ := 299
def maxTableId : ℕ := 255

def tableIdToU8 (tableId : ℕ) : Except NicAutoSwitchError ℕ :=
  if maxTableId < tableId then
    .error (.route s!"table_id {tableId} exceeds maximum {maxTableId} (netlink header is u8)")
  else .ok tableId

theorem tableIdToU8_ok {t : ℕ} (h : t ≤ 255) : tableIdToU8 t = .ok t := by
  have hm : ¬ maxTableId < t := by unfold maxTableId; omega
  simp only [tableIdToU8, hm, if_false]

theorem tableIdToU8_error {t : ℕ} (h : ¬ t ≤ 255) : ∃ e, tableIdToU8 t = .error e := by
  have hm : maxTableId < t := by unfold maxTableId; omega
  exact ⟨_, by simp only [tableIdToU8, hm, if_true]; rfl⟩

/-! ### Messages -/

def buildRuleMessage (destination source : Option IpNetwork) (tableId priority : ℕ)
    (isIpv4 : Bool) : Except NicAutoSwitchError RuleMessage := do
  let table ← tableIdToU8 tableId
  -- a network of the other family is left out of the message
  let ofFamily (n : Option IpNetwork) : Option IpNetwork := n.filter fun n => n.isIpv4 == isIpv4
  let dst := ofFamily destination
  let src := ofFamily source
  return {
    table
    action := .toTable
    family := if isIpv4 then .inet else .inet6
    dstLen := (dst.map IpNetwork.prefixLen).getD 0
    srcLen := (src.map IpNetwork.prefixLen).getD 0
    attributes := (dst.map fun n => RuleAttribute.destination n.ip).toList ++
      (src.map fun n => RuleAttribute.source n.ip).toList ++ [.priority priority] }

/- The builder calls of `add_policy_rule`. -/
def policyRuleRequest (destination source : Option IpNetwork) (tableId priority : ℕ)
    (isIpv4 : Bool) : RuleAddRequest :=
  let ofFamily (n : Option IpNetwork) : Option (IpAddr × ℕ) :=
    (n.filter fun n => n.isIpv4 == isIpv4).map fun n => (n.ip, n.prefixLen)
  { version := if isIpv4 then .v4 else .v6
    action := .toTable
    destination := ofFamily destination
    source := ofFamily source
    tableId
    priority }

/- The builder calls of `add_route`, which are the same in its two branches. -/
def routeRequest (destination : IpNetwork) (gateway : Option IpAddr)
    (ifIndex tableId metric : ℕ) : RouteAddRequest where
  version := destination.version
  destination := destination.ip
  prefixLen := destination.prefixLen
  outputInterface := ifIndex
  tableId := tableId
  protocol := .static
  scope := .universe
  kind := .unicast
  gateway := gateway.filter fun gw => gw.version = destination.version
  pushed := [.priority metric]

/- The message that `remove_route` fills in; the address family keeps its default. -/
def removeRouteMessage (destination : IpNetwork) (tableId : ℕ) :
    Except NicAutoSwitchError RouteMessage := do
  let table ← tableIdToU8 tableId
  return {
    table
    protocol := .static
    scope := .universe
    kind := .unicast
    destinationPrefixLength := destination.prefixLen
    attributes := [.destination destination.ip] }

/-! ### The manager -/

/-- Every constructor of the manager checks the range of the base table id. -/
structure RouteManager where
  baseTableId : ℕ
  dryRun : Bool
  handle : Option Handle
  base_mem : ipv4TableStart ≤ baseTableId ∧ baseTableId ≤ ipv4TableEnd
  deriving Repr, DecidableEq

abbrev Net (κ α : Type) := EStateM NicAutoSwitchError κ α

variable {κ α : Type}

/- Send a request and hand its answer on. -/
def send (req : κ → α × κ) : Net κ α := fun k => .ok (req k).1 (req k).2

/- `match req.execute().await { Ok(()) => {}, Err(e) if tolerated(&e) => {},
Err(e) => return Err(Route(message)) }` -/
def settle (tolerated : RtError → Bool) (message : RtError → String)
    (req : κ → Except RtError Unit × κ) : Net κ Unit := fun k =>
  match req k with
  | (.ok (), k') => .ok () k'
  | (.error e, k') => if tolerated e then .ok () k' else .error (.route (message e)) k'

def noConnection : String := "No rtnetlink connection (check CAP_NET_ADMIN or dry-run mode)"

/- The loops of the flush operations: delete the listed items that `sel` selects, and
count the deletes that go well. A failed delete is only logged, an error among the
listed items ends the loop. -/
def flushLoop {ι : Type} (sel : ι → Bool) (message : RtError → String)
    (del : ι → κ → Except RtError Unit × κ) : List (Except RtError ι) → ℕ → Net κ ℕ
  | [], count => pure count
  | .error e :: _, _ => throw (.route (message e))
  | .ok item :: rest, count => do
    if sel item then
      match ← send (del item) with
      | .error _ => flushLoop sel message del rest count
      | .ok () => flushLoop sel message del rest (count + 1)
    else flushLoop sel message del rest count

namespace RouteManager

/- `rtnetlink::new_connection()` yields a handle or the text of its error. -/
def withConnection (newConnection : Except String Handle) (baseTableId : ℕ) (dryRun : Bool) :
    Except NicAutoSwitchError RouteManager :=
  if h : ipv4TableStart ≤ baseTableId ∧ baseTableId ≤ ipv4TableEnd then
    if dryRun then .ok ⟨baseTableId, dryRun, none, h⟩
    else
      match newConnection with
      | .ok handle => .ok ⟨baseTableId, dryRun, some handle, h⟩
      | .error e => .error (.network s!"Failed to create rtnetlink connection: {e}")
  else
    .error (.invalidInput
      s!"base_table_id must be between {ipv4TableStart} and {ipv4TableEnd}")

theorem withConnection_ok {newConnection : Except String Handle} {baseTableId : ℕ} {dryRun : Bool}
    {rm : RouteManager} (h : withConnection newConnection baseTableId dryRun = .ok rm) :
    rm.baseTableId = baseTableId ∧ rm.dryRun = dryRun := by
  unfold withConnection at h
  split_ifs at h with hbase hdry
  · cases h
    exact ⟨rfl, rfl⟩
  · cases newConnection with
    | error e => cases h
    | ok handle =>
      cases h
      exact ⟨rfl, rfl⟩

def default : RouteManager := ⟨ipv4TableStart, true, none, by decide⟩

theorem base100_mem : ipv4TableStart ≤ 100 ∧ 100 ≤ ipv4TableEnd := by decide

/- The index is a `u8`, so the sum stays far below the range of `u32`. -/
def tableIdV4 (rm : RouteManager) (index : ℕ) : ℕ := rm.baseTableId + index

/- `self.handle.as_ref().ok_or_else(..)?` -/
def withHandle (rm : RouteManager) (message : String) (x : Net κ α) : Net κ α :=
  match rm.handle with
  | none => throw (.route message)
  | some _ => x

variable (rt : Rtnetlink κ)

def resolveInterfaceIndex (rm : RouteManager) (name : String) : Net κ ℕ :=
  rm.withHandle noConnection do
    match ← send (rt.linkGet name) with
    | .ok (some index) => pure index
    | .ok none => throw (.route s!"Interface '{name}' not found")
    | .error e => throw (.route s!"Failed to query interface '{name}': {e}")

def addRoute (rm : RouteManager) (destination : IpNetwork) (gateway : Option IpAddr)
    (interface : String) (tableId metric : ℕ) : Net κ Unit :=
  if rm.dryRun then pure ()
  else
    rm.withHandle ("No rtnetlink connection (daemon may not have CAP_NET_ADMIN " ++
        "or is in dry-run mode)") do
      let ifIndex ← rm.resolveInterfaceIndex rt interface
      let kind := if destination.isIpv4 then "route" else "IPv6 route"
      settle isAlreadyExists
        (fun e => s!"Failed to add {kind} {destination} dev {interface} table {tableId}: {e}")
        (rt.routeAdd (routeRequest destination gateway ifIndex tableId metric))

def removeRoute (rm : RouteManager) (destination : IpNetwork) (tableId : ℕ) : Net κ Unit :=
  if rm.dryRun then pure ()
  else
    rm.withHandle noConnection <|
      match removeRouteMessage destination tableId with
      | .error e => throw e
      | .ok msg =>
        settle isNoSuchEntry
          (fun e => s!"Failed to remove route {destination} from table {tableId}: {e}")
          (rt.routeDel msg)

/- The loop of `flush_table`; its second counter, of failed deletes, is only logged. -/
def flushTableLoop (tableId : ℕ) : List (Except RtError RouteMessage) → ℕ → Net κ ℕ :=
  flushLoop (fun _ => true) (fun e => s!"Failed to list routes in table {tableId}: {e}")
    rt.routeDel

def flushTable (rm : RouteManager) (tableId : ℕ) : Net κ ℕ :=
  if rm.dryRun then pure 0
  else
    rm.withHandle noConnection <|
      match tableIdToU8 tableId with
      | .error e => throw e
      | .ok table => do
        let routes ← send (rt.routeGet .v4 table)
        flushTableLoop rt tableId routes 0

/- One of the two loops of `flush_table_policy_rules`. -/
def flushPolicyRulesLoop (kind : String) (tableId table : ℕ) :
    List (Except RtError RuleMessage) → ℕ → Net κ ℕ :=
  flushLoop (fun rule => decide (rule.table = table))
    (fun e => s!"Failed to list {kind} for table {tableId}: {e}") rt.ruleDel

def flushTablePolicyRules (rm : RouteManager) (tableId : ℕ) : Net κ ℕ :=
  if rm.dryRun then pure 0
  else
    rm.withHandle noConnection <|
      match tableIdToU8 tableId with
      | .error e => throw e
      | .ok table => do
        let rules ← send (rt.ruleGet .v4)
        let count ← flushPolicyRulesLoop rt "policy rules" tableId table rules 0
        let rules6 ← send (rt.ruleGet .v6)
        flushPolicyRulesLoop rt "IPv6 policy rules" tableId table rules6 count

def flushTableComplete (rm : RouteManager) (tableId : ℕ) : Net κ ℕ := do
  let routeCount ← rm.flushTable rt tableId
  let ruleCount ← rm.flushTablePolicyRules rt tableId
  return routeCount + ruleCount

/- The family is that of the destination, else of the source, else IPv4. -/
def ruleIsIpv4 (destination source : Option IpNetwork) : Bool :=
  ((destination.map IpNetwork.isIpv4).or (source.map IpNetwork.isIpv4)).getD true

def addPolicyRule (rm : RouteManager) (destination source : Option IpNetwork)
    (tableId priority : ℕ) : Net κ Unit :=
  if rm.dryRun then pure ()
  else
    rm.withHandle noConnection <|
      let isIpv4 := ruleIsIpv4 destination source
      let ipVer := if isIpv4 then "IPv4" else "IPv6"
      settle isAlreadyExists
        (fun e => s!"Failed to add {ipVer} policy rule (table {tableId}, priority {priority}): {e}")
        (rt.ruleAdd (policyRuleRequest destination source tableId priority isIpv4))

def removePolicyRule (rm : RouteManager) (destination source : Option IpNetwork)
    (tableId priority : ℕ) : Net κ Unit :=
  if rm.dryRun then pure ()
  else
    rm.withHandle noConnection <|
      let isIpv4 := ruleIsIpv4 destination source
      let ipVer := if isIpv4 then "IPv4" else "IPv6"
      match buildRuleMessage destination source tableId priority isIpv4 with
      | .error e => throw e
      | .ok ruleMsg =>
        settle isNoSuchEntry
          (fun e => s!"Failed to remove {ipVer} policy rule " ++
            s!"(table {tableId}, priority {priority}): {e}")
          (rt.ruleDel ruleMsg)

/- The loop of `flush_interface_routes`. -/
def flushInterfaceLoop (interface : String) (tableId ifIndex : ℕ) :
    List (Except RtError RouteMessage) → ℕ → Net κ ℕ :=
  flushLoop (fun route => route.attributes.any fun attr => attr == .oif ifIndex)
    (fun e => s!"Failed to list routes for interface {interface} in table {tableId}: {e}")
    rt.routeDel

def flushInterfaceRoutes (rm : RouteManager) (interface : String) (tableId : ℕ) : Net κ ℕ :=
  if rm.dryRun then pure 0
  else
    rm.withHandle noConnection do
      let ifIndex ← rm.resolveInterfaceIndex rt interface
      match tableIdToU8 tableId with
      | .error e => throw e
      | .ok table => do
        let routes ← send (rt.routeGet .v4 table)
        flushInterfaceLoop rt interface tableId ifIndex routes 0

end RouteManager

/- A manager with a connection, and the default base. -/
def connected : RouteManager := ⟨ipv4TableStart, false, some {}, RouteManager.base100_mem⟩

end NicAutoswitch.Router
