import NicAutoswitch.Config.Schema
import NicAutoswitch.Router.Manager

/-!
# Route rule operations (router/rules.rs)
-/

namespace NicAutoswitch.Router.RuleOperator
open Schema StateProg

/- For a single address the source prints it, appends its full length and parses
the text as a network; printing and parsing an address loses nothing. -/
def getDestination (rule : RouteRule) : Except NicAutoSwitchError IpNetwork :=
  match rule.matchOn with
  | .cidr cidr => .ok cidr
  | .ip ip =>
    match IpNetwork.new? ip (if ip.isIpv4 then 32 else 128) with
    | some network => .ok network
    | none => .error (.invalidInput "Invalid IP address")
  | .domain domain => .error (.invalidInput s!"Domain '{domain}' needs DNS resolution first")
  | .domainPattern pattern =>
    .error (.invalidInput s!"Domain pattern '{pattern}' needs DNS resolution first")

def getGateway (_ : RouteRule) : Except NicAutoSwitchError (Option IpAddr) := .ok none

def validateRule (rule : RouteRule) : Except NicAutoSwitchError Unit := do
  rule.validate
  if rule.name = "" then .error (.invalidInput "Rule name cannot be empty")
  else if rule.routeVia.interface = "" then .error (.invalidInput "Interface cannot be empty")
  else .ok ()

variable {κ : Type} (rt : Rtnetlink κ)

def applyRule (rm : RouteManager) (rule : RouteRule) (_interfaceIndex tableId : ℕ) :
    Net κ Unit :=
  match getDestination rule, getGateway rule with
  | .error e, _ => throw e
  | _, .error e => throw e
  | .ok destination, .ok gateway => do
    rm.addPolicyRule rt (some destination) none tableId rule.priority
    rm.addRoute rt destination gateway rule.routeVia.interface tableId rule.priority

def removeRule (rm : RouteManager) (rule : RouteRule) (tableId : ℕ) : Net κ Unit :=
  match getDestination rule with
  | .error e => throw e
  | .ok destination => do
    rm.removePolicyRule rt (some destination) none tableId rule.priority
    rm.removeRoute rt destination tableId

/- The destination of a rule that can be installed at all. -/
def target? (rule : RouteRule) : Option IpNetwork :=
  match getDestination rule with
  | .ok destination => some destination
  | .error _ => none

theorem getDestination_ok {rule : RouteRule} {d : IpNetwork} :
    getDestination rule = .ok d ↔ target? rule = some d := by
  unfold target?
  cases getDestination rule <;> simp

theorem getDestination_error {rule : RouteRule} (h : target? rule = none) :
    ∃ e, getDestination rule = .error e := by
  unfold target? at h
  cases hd : getDestination rule with
  | ok d => rw [hd] at h; cases h
  | error e => exact ⟨e, rfl⟩

/- What `apply_rule` asks of a rule before it sends a request. -/
def Installable (rule : RouteRule) : Prop :=
  validateRule rule = .ok () ∧ (target? rule).isSome

instance (rule : RouteRule) : Decidable (Installable rule) := by
  unfold Installable
  exact inferInstanceAs (Decidable (_ ∧ _))

end NicAutoswitch.Router.RuleOperator
