import Mathlib.Data.List.MinMax
import NicAutoswitch.Kernel.Plain

/-!
# The Linux kernel

How Linux reads the requests. The family in the header says who answers, and nobody
answers a route request without one. A prefix of no bits leaves the address of a policy
rule out of every comparison. IPv4 refuses a route with host bits, IPv6 cuts them off and
takes a metric of zero for 1024. Requests for table 0 and policy rules by source address,
neither of which the daemon asks for, are not treated.
-/

namespace NicAutoswitch.Kernel.Linux
open Router

/-! ### Networks -/

def versionOf : AddressFamily → Option IpVersion
  | .unspec => none
  | .inet => some .v4
  | .inet6 => some .v6

def zeroAddress : IpVersion → IpAddr
  | .v4 => .v4 0
  | .v6 => .v6 0

/- All addresses of the version. -/
def everywhere : IpVersion → IpNetwork
  | .v4 => .v4 ⟨0, 0, len0_v4⟩
  | .v6 => .v6 ⟨0, 0, len0_v6⟩

/- The destination that a policy rule is kept with. -/
def ruleNetwork (d : IpNetwork) : IpNetwork := if d.prefixLen = 0 then everywhere d.version else d

def masked {w : ℕ} (n : IpNet w) : IpNet w :=
  { n with ip := (n.ip >>> (w - n.prefixLen)) <<< (w - n.prefixLen) }

/- The destination that a route is kept with. -/
def routeNetwork? : IpNetwork → Option IpNetwork
  | .v4 n => if masked n = n then some (.v4 n) else none
  | .v6 n => some (.v6 (masked n))

/- The metric that a route is kept with. -/
def routeMetric (version : IpVersion) (metric : ℕ) : ℕ :=
  if version = .v6 ∧ metric = 0 then 1024 else metric

@[simp] theorem versionOf_familyOf (v : IpVersion) : versionOf (familyOf v) = some v := by
  cases v <;> rfl

@[simp] theorem everywhere_version (v : IpVersion) : (everywhere v).version = v := by
  cases v <;> rfl

@[simp] theorem everywhere_prefixLen (v : IpVersion) : (everywhere v).prefixLen = 0 := by
  cases v <;> rfl

@[simp] theorem ruleNetwork_version (d : IpNetwork) : (ruleNetwork d).version = d.version := by
  unfold ruleNetwork
  split_ifs
  · exact everywhere_version d.version
  · rfl

@[simp] theorem ruleNetwork_prefixLen (d : IpNetwork) :
    (ruleNetwork d).prefixLen = d.prefixLen := by
  unfold ruleNetwork
  split_ifs with h
  · rw [everywhere_prefixLen, h]
  · rfl

theorem ruleNetwork_self {d : IpNetwork} (h : d.prefixLen ≠ 0) : ruleNetwork d = d := if_neg h

/- No bits of an address are left by a shift over all of them. -/
theorem shifted_out {w : ℕ} (a : BitVec w) : a >>> w = 0#w :=
  BitVec.ushiftRight_eq_zero le_rfl

/- The address of a network of no bits does not matter for what the network contains. -/
theorem ruleNetwork_contains (d : IpNetwork) (a : IpAddr) :
    (ruleNetwork d).contains a = d.contains a := by
  unfold ruleNetwork
  split_ifs with h
  · cases d with
    | v4 n =>
      have hn : n.prefixLen = 0 := h
      cases a <;> simp [IpNetwork.contains, IpNetwork.version, IpNetwork.ip, IpNetwork.prefixLen,
        everywhere, IpAddr.agree, hn, shifted_out]
    | v6 n =>
      have hn : n.prefixLen = 0 := h
      cases a <;> simp [IpNetwork.contains, IpNetwork.version, IpNetwork.ip, IpNetwork.prefixLen,
        everywhere, IpAddr.agree, hn, shifted_out]
  · rfl

theorem routeNetwork?_version {d d' : IpNetwork} (h : routeNetwork? d = some d') :
    d'.version = d.version ∧ d'.prefixLen = d.prefixLen := by
  cases d with
  | v4 n =>
    have hn : (if masked n = n then some (IpNetwork.v4 n) else none) = some d' := h
    split_ifs at hn
    cases hn
    exact ⟨rfl, rfl⟩
  | v6 n =>
    cases h
    exact ⟨rfl, rfl⟩

/- Nor do its host bits. -/
theorem masked_agree {w : ℕ} (n : IpNet w) :
    (masked n).ip >>> (w - n.prefixLen) = n.ip >>> (w - n.prefixLen) := by
  ext i hi
  simp only [masked, BitVec.getElem_ushiftRight, BitVec.getLsbD_shiftLeft, BitVec.getLsbD_ushiftRight,
    Nat.not_lt.mpr (Nat.le_add_right _ _), Nat.add_sub_cancel_left, decide_false, Bool.not_false,
    Bool.and_true, Bool.and_eq_right_iff_imp, decide_eq_true_eq]
  exact BitVec.lt_of_getLsbD

theorem masked_eq {w : ℕ} {n m : IpNet w} {a : BitVec w} (hl : n.prefixLen = m.prefixLen)
    (hn : n.ip >>> (w - n.prefixLen) = a >>> (w - n.prefixLen))
    (hm : m.ip >>> (w - m.prefixLen) = a >>> (w - m.prefixLen)) : masked n = masked m := by
  obtain ⟨ip, len, hle⟩ := n
  obtain ⟨ip', len', hle'⟩ := m
  dsimp only at hl hn hm
  subst hl
  unfold masked
  rw [hn, hm]

theorem routeNetwork?_contains {d d' : IpNetwork} (h : routeNetwork? d = some d') (a : IpAddr) :
    d'.contains a = d.contains a := by
  cases d with
  | v4 n =>
    have hn : (if masked n = n then some (IpNetwork.v4 n) else none) = some d' := h
    split_ifs at hn
    cases hn
    rfl
  | v6 n =>
    cases h
    cases a with
    | v4 b => rfl
    | v6 b => exact congrArg (· == b >>> (128 - n.prefixLen)) (masked_agree n)

/- Of one length, two networks that have an address in common are kept as one. -/
theorem routeNetwork?_eq_of_contains {d1 d2 n1 n2 : IpNetwork} (h1 : routeNetwork? d1 = some n1)
    (h2 : routeNetwork? d2 = some n2) (hl : d1.prefixLen = d2.prefixLen) {a : IpAddr}
    (ha1 : d1.contains a = true) (ha2 : d2.contains a = true) : n1 = n2 := by
  cases d1 with
  | v4 x =>
    cases d2 with
    | v4 y =>
      have hx : (if masked x = x then some (IpNetwork.v4 x) else none) = some n1 := h1
      have hy : (if masked y = y then some (IpNetwork.v4 y) else none) = some n2 := h2
      split_ifs at hx hy with hmx hmy
      cases hx
      cases hy
      cases a with
      | v4 b => rw [← hmx, ← hmy, masked_eq hl (eq_of_beq ha1) (eq_of_beq ha2)]
      | v6 b => cases ha1
    | v6 y => cases a <;> first | cases ha1 | cases ha2
  | v6 x =>
    cases d2 with
    | v4 y => cases a <;> first | cases ha1 | cases ha2
    | v6 y =>
      cases h1
      cases h2
      cases a with
      | v4 b => cases ha1
      | v6 b => rw [masked_eq hl (eq_of_beq ha1) (eq_of_beq ha2)]

/-! ### Requests -/

/- The network of an address and a length that a request of the version carries. -/
def network? (version : IpVersion) (addr : IpAddr) (len : ℕ) : Option IpNetwork :=
  (IpNetwork.new? addr len).filter fun d => d.version = version

/- The policy rule that is asked for. -/
def requestedRule (q : RuleAddRequest) : Option PolicyRule :=
  match q.source with
  | some _ => none
  | none =>
    let destination := match q.destination with
      | some (addr, len) => network? q.version addr len
      | none => some (everywhere q.version)
    destination.map fun d => ⟨ruleNetwork d, q.tableId, q.priority⟩

/- Linux takes the second rule for the first one. -/
def SameRule (p r : PolicyRule) : Prop :=
  r.destination.version = p.destination.version ∧ r.table = p.table ∧ r.priority = p.priority ∧
    (p.destination.prefixLen = 0 ∨ r.destination = p.destination)

instance (p r : PolicyRule) : Decidable (SameRule p r) := inferInstanceAs (Decidable (_ ∧ _))

/- One of the rules is taken for this one. -/
def Duplicated (rules : List PolicyRule) (p : PolicyRule) : Prop := ∃ r ∈ rules, SameRule p r

instance (rules : List PolicyRule) (p : PolicyRule) : Decidable (Duplicated rules p) :=
  inferInstanceAs (Decidable (∃ r ∈ rules, _))

/- Whether a delete request names the rule. What the request leaves out, a table of zero and
a prefix of no bits are not compared. -/
def NamesRule (version : IpVersion) (m : RuleMessage) (r : PolicyRule) : Prop :=
  r.destination.version = version ∧ (m.tableId = 0 ∨ r.table = m.tableId) ∧
    r.priority = m.priority?.getD r.priority ∧
      (m.dstLen = 0 ∨ r.destination.prefixLen = m.dstLen ∧ m.destination? = some r.destination.ip)

instance (version : IpVersion) (m : RuleMessage) (r : PolicyRule) :
    Decidable (NamesRule version m r) := inferInstanceAs (Decidable (_ ∧ _))

/- The rule that a delete request deletes: of those it names, one of least priority, and of
these the one that was added first. The state lists what was added last at its head. -/
def pickRule (rules : List PolicyRule) (version : IpVersion) (m : RuleMessage) :
    Option PolicyRule :=
  (rules.reverse.filter fun r => NamesRule version m r).argmin PolicyRule.priority

/- The route that is asked for. -/
def requestedRoute (q : RouteAddRequest) : Option Route :=
  ((network? q.version q.destination q.prefixLen).bind routeNetwork?).map fun d =>
    { table := q.tableId
      destination := d
      metric := routeMetric q.version ((q.pushed.findSome? fun
        | .priority metric => some metric
        | _ => none).getD 0)
      oif := q.outputInterface }

/- One of the routes has the table, the destination and the metric of this one. -/
def Taken (routes : List Route) (r : Route) : Prop :=
  ∃ r' ∈ routes, r'.table = r.table ∧ r'.destination = r.destination ∧ r'.metric = r.metric

instance (routes : List Route) (r : Route) : Decidable (Taken routes r) :=
  inferInstanceAs (Decidable (∃ r' ∈ routes, _))

/- The destination that a delete request names. -/
def namedNetwork (version : IpVersion) (m : RouteMessage) : Option IpNetwork :=
  (network? version (m.destination?.getD (zeroAddress version)) m.destinationPrefixLength).bind
    routeNetwork?

/- Whether a delete request names the route. A metric or an interface of zero is not
compared. -/
def NamesRoute (m : RouteMessage) (d : IpNetwork) (r : Route) : Prop :=
  r.table = m.tableId ∧ r.destination = d ∧
    (m.metric?.getD 0 = 0 ∨ m.metric? = some r.metric) ∧
      (m.oif?.getD 0 = 0 ∨ m.oif? = some r.oif)

instance (m : RouteMessage) (d : IpNetwork) (r : Route) : Decidable (NamesRoute m d r) :=
  inferInstanceAs (Decidable (_ ∧ _))

/- The route that a delete request deletes: of those it names, one of lowest metric. -/
def pickRoute (routes : List Route) (m : RouteMessage) (d : IpNetwork) : Option Route :=
  (routes.filter fun r => NamesRoute m d r).argmin Route.metric

/-! ### Answers -/

def notSupported : RtError := errno 95 "Operation not supported (os error 95)"
def noFamily : RtError := errno 97 "Address family not supported by protocol (os error 97)"

def ruleAdd (q : RuleAddRequest) (k : KernelState) : Except RtError Unit × KernelState :=
  match requestedRule q with
  | none => (.error invalidArgument, k)
  | some p => if Duplicated k.rules p then (.error fileExists, k) else (.ok (), k.addRule p)

def ruleDel (m : RuleMessage) (k : KernelState) : Except RtError Unit × KernelState :=
  match versionOf m.family with
  | none => (.error noFamily, k)
  | some version =>
    match pickRule k.rules version m with
    | some p => (.ok (), k.dropRule p)
    | none => (.error noEntry, k)

def routeAdd (q : RouteAddRequest) (k : KernelState) : Except RtError Unit × KernelState :=
  match requestedRoute q with
  | none => (.error invalidArgument, k)
  | some r => if Taken k.routes r then (.error fileExists, k) else (.ok (), k.addRoute r)

def routeDel (m : RouteMessage) (k : KernelState) : Except RtError Unit × KernelState :=
  match versionOf m.addressFamily with
  | none => (.error notSupported, k)
  | some version =>
    match namedNetwork version m with
    | none => (.error invalidArgument, k)
    | some d =>
      match pickRoute k.routes m d with
      | some r => (.ok (), k.dropRoute r)
      | none => (.error noProcess, k)

/- A dump leaves out the address of a prefix of no bits, and a metric or a priority of zero. -/
def routeMessage (r : Route) : RouteMessage where
  addressFamily := familyOf r.destination.version
  destinationPrefixLength := r.destination.prefixLen
  table := headerTable r.table
  protocol := .static
  scope := .universe
  kind := .unicast
  attributes := .table r.table ::
    ((if r.destination.prefixLen = 0 then [] else [.destination r.destination.ip]) ++
      (if r.metric = 0 then [] else [.priority r.metric]) ++ [.oif r.oif])

def ruleMessage (p : PolicyRule) : RuleMessage where
  family := familyOf p.destination.version
  dstLen := p.destination.prefixLen
  table := headerTable p.table
  action := .toTable
  attributes := .table p.table ::
    ((if p.destination.prefixLen = 0 then [] else [.destination p.destination.ip]) ++
      (if p.priority = 0 then [] else [.priority p.priority]))

end NicAutoswitch.Kernel.Linux

namespace NicAutoswitch.Kernel
open Router

/- The requests as Linux reads them. -/
def Env.linux (env : Env) : Rtnetlink KernelState where
  routeAdd q := env.request (Linux.routeAdd q)
  routeDel m := env.request (Linux.routeDel m)
  routeGet v t := env.dump (fun k => env.routeDump k v t) Linux.routeMessage
  ruleAdd q := env.request (Linux.ruleAdd q)
  ruleDel m := env.request (Linux.ruleDel m)
  ruleGet v := env.dump (fun k => env.ruleDump k v) Linux.ruleMessage
  linkGet name := env.request (env.linkGet name)

end NicAutoswitch.Kernel
