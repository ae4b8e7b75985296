import NicAutoswitch.Ip
import NicAutoswitch.Error
import NicAutoswitch.Lib.HashMaps

/-!
# Configuration data and its validation (config/schema.rs)

Numbers of the configuration (`u32`, `u64`) are natural numbers: they are only
compared. A map of the configuration is never modified after loading, so its
list is the order in which every iteration meets it.
-/

namespace NicAutoswitch.Schema
open HashMaps

def maxTableIdStart : ℕ := 252

structure GlobalConfig where
  monitorInterval : ℕ := 5
  logLevel : String := "info"
  dryRun : Bool := false
  tableIdStart : ℕ := 100
  deriving Repr, DecidableEq

inductive InterfaceType where
  | lan
  | wlan
  | vpn
  deriving Repr, DecidableEq

inductive MatchBy where
  | name (name : String)
  | pattern (pattern : String)
  | mac (mac : String)
  deriving Repr, DecidableEq

structure InterfaceConfig where
  interfaceType : InterfaceType
  matchBy : MatchBy
  priority : ℕ := 100
  deriving Repr, DecidableEq

inductive MatchOn where
  | cidr (cidr : IpNetwork)
  | ip (ip : IpAddr)
  | domain (domain : String)
  | domainPattern (domainPattern : String)
  deriving Repr, DecidableEq

structure RouteVia where
  interface : String
  deriving Repr, DecidableEq

structure RouteRule where
  name : String
  matchOn : MatchOn
  routeVia : RouteVia
  priority : ℕ
  deriving Repr, DecidableEq

structure WifiProfile where
  interface : String
  rules : List RouteRule := []
  deriving Repr, DecidableEq

structure RoutingConfig where
  defaultRules : List RouteRule := []
  deriving Repr, DecidableEq

structure Config where
  global : GlobalConfig := {}
  interfaces : HashMap String InterfaceConfig := ∅
  wifiProfiles : HashMap String WifiProfile := ∅
  routing : RoutingConfig := {}

def validLogLevels : List String := ["trace", "debug", "info", "warn", "error"]

def GlobalConfig.validate (g : GlobalConfig) : Except NicAutoSwitchError Unit :=
  if g.monitorInterval = 0 then .error (.config "monitor_interval must be greater than 0")
  -- no character outside ASCII has one of the levels' letters as its lower case
  else if g.logLevel.map Char.toLower ∉ validLogLevels then
    .error (.config (s!"Invalid log_level '{g.logLevel}'. Must be one of: " ++
      "[\"trace\", \"debug\", \"info\", \"warn\", \"error\"]"))
  else if g.tableIdStart < 100 ∨ maxTableIdStart < g.tableIdStart then
    .error (.config s!"table_id_start must be between 100 and {maxTableIdStart}")
  else .ok ()

def InterfaceConfig.validate (i : InterfaceConfig) : Except NicAutoSwitchError Unit :=
  match i.matchBy with
  | .name name => if name = "" then .error (.config "interface name cannot be empty") else .ok ()
  | .pattern pattern =>
    if pattern = "" then .error (.config "interface pattern cannot be empty") else .ok ()
  | .mac mac => if mac = "" then .error (.config "MAC address cannot be empty") else .ok ()

def ensureNoInnerStar (rest : List Char) (original : String) : Except NicAutoSwitchError Unit :=
  if '*' ∈ rest then
    .error (.config (s!"domain_pattern '{original}' contains '*' in an unsupported position; " ++
      "only a single leading or trailing '*' is allowed"))
  else .ok ()

def validateDomainPattern (pattern : String) : Except NicAutoSwitchError Unit :=
  if pattern = "*" then .ok ()
  else if pattern.toList.head? = some '*' then ensureNoInnerStar pattern.toList.tail pattern
  else if pattern.toList.getLast? = some '*' then
    ensureNoInnerStar pattern.toList.dropLast pattern
  else
    .error (.config (s!"domain_pattern '{pattern}' must contain '*' as prefix or suffix " ++
      "(e.g. '*.example.com' or 'heals-*')"))

def RouteRule.validate (r : RouteRule) : Except NicAutoSwitchError Unit :=
  if r.name = "" then .error (.config "rule name cannot be empty")
  else
    match r.matchOn with
    | .domainPattern pattern => validateDomainPattern pattern
    | _ => .ok ()

/- The loops `for x in xs { check(x)?; }`. -/
def forAll {α : Type} (check : α → Except NicAutoSwitchError Unit) :
    List α → Except NicAutoSwitchError Unit
  | [] => .ok ()
  | x :: xs =>
    match check x with
    | .ok () => forAll check xs
    | .error e => .error e

def WifiProfile.validate (p : WifiProfile) : Except NicAutoSwitchError Unit :=
  if p.interface = "" then .error (.config "interface cannot be empty")
  else forAll RouteRule.validate p.rules

def RoutingConfig.validate (r : RoutingConfig) : Except NicAutoSwitchError Unit :=
  forAll RouteRule.validate r.defaultRules

/- `map_err(|e| Config(format!("{kind} '{name}': {e}")))`. -/
def named (kind name : String) (x : Except NicAutoSwitchError Unit) :
    Except NicAutoSwitchError Unit :=
  match x with
  | .ok () => .ok ()
  | .error e => .error (.config s!"{kind} '{name}': {e}")

def Config.validate (c : Config) : Except NicAutoSwitchError Unit := do
  c.global.validate
  if c.interfaces.entries.isEmpty then
    .error (.config "At least one interface must be configured")
  else
    forAll (fun e => named "interface" e.1 e.2.validate) c.interfaces.entries
    forAll (fun e => named "wifi_profile" e.1 e.2.validate) c.wifiProfiles.entries
    c.routing.validate

/- Every rule of the configuration: the defaults, then each profile's rules. -/
def Config.allRules (c : Config) : List RouteRule :=
  c.routing.defaultRules ++ (values c.wifiProfiles).flatMap (·.rules)

theorem Config.mem_allRules (c : Config) (r : RouteRule) :
    r ∈ c.allRules ↔ r ∈ c.routing.defaultRules ∨
      ∃ ssid profile, c.wifiProfiles.lookup ssid = some profile ∧ r ∈ profile.rules := by
  simp only [allRules, List.mem_append, List.mem_flatMap, mem_values_iff]
  refine or_congr Iff.rfl ⟨?_, ?_⟩
  · intro h
    obtain ⟨p, ⟨ssid, hp⟩, hr⟩ := h
    exact ⟨ssid, p, hp, hr⟩
  · intro h
    obtain ⟨ssid, p, hp, hr⟩ := h
    exact ⟨p, ⟨ssid, hp⟩, hr⟩

/- Rules are tracked and looked up by name alone. -/
def Config.DistinctNames (c : Config) : Prop := (c.allRules.map RouteRule.name).Nodup

theorem Config.rule_eq_of_name (c : Config) (h : c.DistinctNames) {r r' : RouteRule}
    (hr : r ∈ c.allRules) (hr' : r' ∈ c.allRules) (hn : r.name = r'.name) : r = r' :=
  List.inj_on_of_nodup_map h hr hr' hn

end NicAutoswitch.Schema
