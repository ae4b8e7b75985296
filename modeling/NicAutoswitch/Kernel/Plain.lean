import Mathlib.Data.List.MinMax
import NicAutoswitch.Router.Rtnetlink

/-!
# A plain kernel

The kernel is a set of policy rules and a set of routes. A request names an entry by all
that it says of it, whatever the family in its header. The clock counts the requests, so
that an environment can let any of them fail; a failed request changes nothing. What a
dump lists is up to the environment too, as long as it lists existing entries of the
requested IP version. `Kernel.Linux` reads the requests on the same state as Linux does,
and `Kernel.Agreement` says where that makes no difference.
-/

namespace NicAutoswitch.Kernel
open Router

structure PolicyRule where
  destination : IpNetwork
  table : ℕ
  priority : ℕ
  deriving Repr, DecidableEq

structure Route where
  table : ℕ
  destination : IpNetwork
  metric : ℕ
  oif : ℕ
  deriving Repr, DecidableEq

structure KernelState where
  rules : List PolicyRule := []
  routes : List Route := []
  clock : ℕ := 0
  rules_nodup : rules.Nodup := by decide
  routes_nodup : routes.Nodup := by decide

namespace KernelState

def empty : KernelState := {}

def tick (k : KernelState) : KernelState := { k with clock := k.clock + 1 }

def addRule (k : KernelState) (p : PolicyRule) : KernelState :=
  if h : p ∈ k.rules then k
  else { k with rules := p :: k.rules, rules_nodup := List.nodup_cons.mpr ⟨h, k.rules_nodup⟩ }

def dropRule (k : KernelState) (p : PolicyRule) : KernelState :=
  { k with rules := k.rules.erase p, rules_nodup := k.rules_nodup.erase p }

def addRoute (k : KernelState) (r : Route) : KernelState :=
  if h : r ∈ k.routes then k
  else { k with routes := r :: k.routes, routes_nodup := List.nodup_cons.mpr ⟨h, k.routes_nodup⟩ }

def dropRoute (k : KernelState) (r : Route) : KernelState :=
  { k with routes := k.routes.erase r, routes_nodup := k.routes_nodup.erase r }

@[simp] theorem tick_rules (k : KernelState) : k.tick.rules = k.rules := rfl
@[simp] theorem tick_routes (k : KernelState) : k.tick.routes = k.routes := rfl
@[simp] theorem tick_clock (k : KernelState) : k.tick.clock = k.clock + 1 := rfl
@[simp] theorem dropRule_routes (k : KernelState) (p : PolicyRule) :
    (k.dropRule p).routes = k.routes := rfl
@[simp] theorem dropRule_clock (k : KernelState) (p : PolicyRule) :
    (k.dropRule p).clock = k.clock := rfl
@[simp] theorem dropRoute_rules (k : KernelState) (r : Route) :
    (k.dropRoute r).rules = k.rules := rfl
@[simp] theorem dropRoute_clock (k : KernelState) (r : Route) :
    (k.dropRoute r).clock = k.clock := rfl

@[simp] theorem addRule_routes (k : KernelState) (p : PolicyRule) :
    (k.addRule p).routes = k.routes := by
  unfold addRule
  split <;> rfl

@[simp] theorem addRule_clock (k : KernelState) (p : PolicyRule) :
    (k.addRule p).clock = k.clock := by
  unfold addRule
  split <;> rfl

@[simp] theorem addRoute_rules (k : KernelState) (r : Route) :
    (k.addRoute r).rules = k.rules := by
  unfold addRoute
  split <;> rfl

@[simp] theorem mem_addRule (k : KernelState) (p q : PolicyRule) :
    q ∈ (k.addRule p).rules ↔ q = p ∨ q ∈ k.rules := by
  unfold addRule
  split
  · next h => exact ⟨Or.inr, fun hq => hq.elim (fun he => he ▸ h) id⟩
  · exact List.mem_cons

@[simp] theorem mem_addRoute (k : KernelState) (r q : Route) :
    q ∈ (k.addRoute r).routes ↔ q = r ∨ q ∈ k.routes := by
  unfold addRoute
  split
  · next h => exact ⟨Or.inr, fun hq => hq.elim (fun he => he ▸ h) id⟩
  · exact List.mem_cons

@[simp] theorem mem_dropRule (k : KernelState) (p q : PolicyRule) :
    q ∈ (k.dropRule p).rules ↔ q ≠ p ∧ q ∈ k.rules := k.rules_nodup.mem_erase_iff

@[simp] theorem mem_dropRoute (k : KernelState) (r q : Route) :
    q ∈ (k.dropRoute r).routes ↔ q ≠ r ∧ q ∈ k.routes := k.routes_nodup.mem_erase_iff

/- Whether a delete request names the route: its table, its destination, and the metric
and the interface where the request has them. -/
def Named (t : ℕ) (d : IpNetwork) (metric oif : Option ℕ) (r : Route) : Prop :=
  r.table = t ∧ r.destination = d ∧ r.metric = metric.getD r.metric ∧ r.oif = oif.getD r.oif

instance (t : ℕ) (d : IpNetwork) (metric oif : Option ℕ) (r : Route) :
    Decidable (Named t d metric oif r) := inferInstanceAs (Decidable (_ ∧ _))

/- The route that a delete request deletes: of those it names, one of lowest metric. -/
def pick (k : KernelState) (t : ℕ) (d : IpNetwork) (metric oif : Option ℕ) : Option Route :=
  (k.routes.filter fun r => Named t d metric oif r).argmin Route.metric

theorem pick_some {k : KernelState} {t : ℕ} {d : IpNetwork} {metric oif : Option ℕ} {r : Route}
    (h : k.pick t d metric oif = some r) : r ∈ k.routes ∧ Named t d metric oif r := by
  have hm := List.argmin_mem h
  rw [List.mem_filter, decide_eq_true_iff] at hm
  exact hm

theorem pick_none {k : KernelState} {t : ℕ} {d : IpNetwork} {metric oif : Option ℕ} :
    k.pick t d metric oif = none ↔ ∀ r ∈ k.routes, ¬ Named t d metric oif r := by
  unfold pick
  rw [List.argmin_eq_none, List.filter_eq_nil_iff]
  simp only [decide_eq_true_eq]

/- A request that names a route in full deletes that route. -/
theorem pick_exact {k : KernelState} {r : Route} (h : r ∈ k.routes) :
    k.pick r.table r.destination (some r.metric) (some r.oif) = some r := by
  cases hp : k.pick r.table r.destination (some r.metric) (some r.oif) with
  | none => exact absurd ⟨rfl, rfl, rfl, rfl⟩ (pick_none.mp hp r h)
  | some q =>
    obtain ⟨_, ht, hd, hm, ho⟩ := pick_some hp
    obtain ⟨qt, qd, qm, qo⟩ := q
    simp only [Option.getD_some] at ht hd hm ho
    subst ht hd hm ho
    rfl

end KernelState

/-! ### Messages -/

/- The header holds a table id of one byte; larger ids are in the attribute alone. -/
def headerTable (t : ℕ) : ℕ := if t < 256 then t else 252

/- A route as a dump lists it. -/
def Route.message (r : Route) : RouteMessage where
  addressFamily := familyOf r.destination.version
  destinationPrefixLength := r.destination.prefixLen
  table := headerTable r.table
  protocol := .static
  scope := .universe
  kind := .unicast
  attributes := [.table r.table, .destination r.destination.ip, .priority r.metric, .oif r.oif]

/- A policy rule as a dump lists it. -/
def PolicyRule.message (p : PolicyRule) : RuleMessage where
  family := familyOf p.destination.version
  dstLen := p.destination.prefixLen
  table := headerTable p.table
  action := .toTable
  attributes := [.table p.table, .destination p.destination.ip, .priority p.priority]

def requestedRule (q : RuleAddRequest) : Option PolicyRule :=
  match q.destination, q.source with
  | some (addr, len), none => (IpNetwork.new? addr len).map fun d => ⟨d, q.tableId, q.priority⟩
  | _, _ => none

def requestedRoute (q : RouteAddRequest) : Option Route :=
  (IpNetwork.new? q.destination q.prefixLen).map fun d =>
    { table := q.tableId
      destination := d
      metric := (q.pushed.findSome? fun
        | .priority metric => some metric
        | _ => none).getD 0
      oif := q.outputInterface }

def namedRule (m : RuleMessage) : Option PolicyRule :=
  match m.destination?, m.priority? with
  | some addr, some priority => (IpNetwork.new? addr m.dstLen).map fun d => ⟨d, m.tableId, priority⟩
  | _, _ => none

/- The destination says the family; the family of the header is not looked at. -/
def namedDestination (m : RouteMessage) : Option IpNetwork :=
  m.destination?.bind fun addr => IpNetwork.new? addr m.destinationPrefixLength

/-! ### Answers -/

/- An answer of the kernel; the text is that of the operating system. -/
def errno (code : ℤ) (text : String) : RtError := .netlinkError (some (-code)) text

def noEntry : RtError := errno 2 "No such file or directory (os error 2)"
def noProcess : RtError := errno 3 "No such process (os error 3)"
def fileExists : RtError := errno 17 "File exists (os error 17)"
def noDevice : RtError := errno 19 "No such device (os error 19)"
def invalidArgument : RtError := errno 22 "Invalid argument (os error 22)"

/- The parts of the world that the daemon does not decide: the links, which requests
fail, and what the dumps list. -/
structure Env where
  ifindex : String → Option ℕ
  ifindex_inj : ∀ x y i, ifindex x = some i → ifindex y = some i → x = y
  fault : ℕ → Option RtError
  routeDump : KernelState → IpVersion → ℕ → List (Except RtError Route)
  ruleDump : KernelState → IpVersion → List (Except RtError PolicyRule)
  routeDump_mem : ∀ k v t r, .ok r ∈ routeDump k v t → r ∈ k.routes ∧ r.destination.version = v
  ruleDump_mem : ∀ k v p, .ok p ∈ ruleDump k v → p ∈ k.rules ∧ p.destination.version = v

namespace Env

variable (env : Env)

/- A request takes one tick of the clock, and fails where the environment says so. -/
def request {α : Type} (f : KernelState → Except RtError α × KernelState) (k : KernelState) :
    Except RtError α × KernelState :=
  match env.fault k.clock with
  | some e => (.error e, k.tick)
  | none => ((f k).1, (f k).2.tick)

def ruleAdd (q : RuleAddRequest) (k : KernelState) : Except RtError Unit × KernelState :=
  match requestedRule q with
  | none => (.error invalidArgument, k)
  | some p => if p ∈ k.rules then (.error fileExists, k) else (.ok (), k.addRule p)

def ruleDel (m : RuleMessage) (k : KernelState) : Except RtError Unit × KernelState :=
  match namedRule m with
  | none => (.error invalidArgument, k)
  | some p => if p ∈ k.rules then (.ok (), k.dropRule p) else (.error noEntry, k)

/- A second route to a destination needs another metric. -/
def routeAdd (q : RouteAddRequest) (k : KernelState) : Except RtError Unit × KernelState :=
  match requestedRoute q with
  | none => (.error invalidArgument, k)
  | some r =>
    if ∃ r' ∈ k.routes, r'.table = r.table ∧ r'.destination = r.destination ∧
        r'.metric = r.metric then (.error fileExists, k)
    else (.ok (), k.addRoute r)

def routeDel (m : RouteMessage) (k : KernelState) : Except RtError Unit × KernelState :=
  match namedDestination m with
  | none => (.error invalidArgument, k)
  | some d =>
    match k.pick m.tableId d m.metric? m.oif? with
    | some r => (.ok (), k.dropRoute r)
    | none => (.error noProcess, k)

def linkGet (name : String) (k : KernelState) : Except RtError (Option ℕ) × KernelState :=
  match env.ifindex name with
  | some i => (.ok (some i), k)
  | none => (.error noDevice, k)

/- A dump that fails yields its error alone. -/
def dump {α β : Type} (list : KernelState → List (Except RtError α)) (message : α → β)
    (k : KernelState) : List (Except RtError β) × KernelState :=
  match env.fault k.clock with
  | some e => ([.error e], k.tick)
  | none => ((list k).map (Except.map message), k.tick)

/- Each request is compared with the entries as it is sent. -/
def plain : Rtnetlink KernelState where
  routeAdd q := env.request (routeAdd q)
  routeDel m := env.request (routeDel m)
  routeGet v t := env.dump (fun k => env.routeDump k v t) Route.message
  ruleAdd q := env.request (ruleAdd q)
  ruleDel m := env.request (ruleDel m)
  ruleGet v := env.dump (fun k => env.ruleDump k v) PolicyRule.message
  linkGet name := env.request (env.linkGet name)

/- A host with two links. Its dumps list all entries of the requested IP version; the table
that a route dump names is not looked at. -/
def twoLinks (fault : ℕ → Option RtError) : Env where
  ifindex name := if name = "eth0" then some 2 else if name = "wlan0" then some 3 else none
  ifindex_inj x y i hx hy := by
    split_ifs at hx hy with h1 h2 h3 h4 h5 h6 <;> cases hx <;> cases hy
    · exact h1.trans h2.symm
    · exact h4.trans h6.symm
  fault := fault
  routeDump k v _ := (k.routes.filter fun r => r.destination.version = v).map .ok
  ruleDump k v := (k.rules.filter fun p => p.destination.version = v).map .ok
  routeDump_mem k v t r h := by
    obtain ⟨q, hq, he⟩ := List.mem_map.mp h
    cases he
    rw [List.mem_filter, decide_eq_true_iff] at hq
    exact hq
  ruleDump_mem k v p h := by
    obtain ⟨q, hq, he⟩ := List.mem_map.mp h
    cases he
    rw [List.mem_filter, decide_eq_true_iff] at hq
    exact hq

end Env

def noFault : Env := Env.twoLinks fun _ => none

/-! ### What the messages name -/

theorem new?_self (d : IpNetwork) : IpNetwork.new? d.ip d.prefixLen = some d := by
  cases d with
  | v4 n => simp [IpNetwork.new?, IpNetwork.ip, IpNetwork.prefixLen, n.prefixLen_le]
  | v6 n => simp [IpNetwork.new?, IpNetwork.ip, IpNetwork.prefixLen, n.prefixLen_le]

theorem namedRule_message (p : PolicyRule) : namedRule p.message = some p := by
  show (IpNetwork.new? p.destination.ip p.destination.prefixLen).map _ = _
  rw [new?_self]
  rfl

theorem namedDestination_message (r : Route) : namedDestination r.message = some r.destination :=
  new?_self r.destination

end NicAutoswitch.Kernel
