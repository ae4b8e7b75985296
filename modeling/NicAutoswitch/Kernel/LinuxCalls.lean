import NicAutoswitch.Kernel.Calls
import NicAutoswitch.Kernel.Linux

/-!
# The executor's calls on Linux

A call of `apply_rule` adds what Linux keeps of the policy rule and of the route. A call of
`remove_rule` deletes a policy rule at most: its request for the route is sent without a
family, nobody answers it, and the error is not among those that are tolerated.
-/

namespace NicAutoswitch.Kernel.Linux
open Schema Router StateProg Engine

variable {env : Env} {rm : RouteManager}

/-! ### What a rule asks for -/

/- What Linux keeps of the policy rule that a rule asks for. -/
def ruleOf (d : IpNetwork) (t priority : ℕ) : PolicyRule := ⟨ruleNetwork d, t, priority⟩

/- What Linux keeps of the route that a rule asks for. -/
def routeOf? (d : IpNetwork) (t metric oif : ℕ) : Option Route :=
  (routeNetwork? d).map fun d' => ⟨t, d', routeMetric d.version metric, oif⟩

/- The kernel after it has been asked for the policy rule, and for the route. -/
def withRule (k : KernelState) (p : PolicyRule) : KernelState :=
  if Duplicated k.rules p then k else k.addRule p

def withRoute (k : KernelState) (r : Route) : KernelState :=
  if Taken k.routes r then k else k.addRoute r

/- The policy rule that the delete request for a rule takes. -/
def pickOwn (rules : List PolicyRule) (d : IpNetwork) (t priority : ℕ) : Option PolicyRule :=
  pickRule rules d.version (ruleDelMessage d t priority)

/- The entries that are there after the request. -/
def rulesWith (p : PolicyRule) (rules : List PolicyRule) : List PolicyRule :=
  if Duplicated rules p then rules else p :: rules

def routesWith (r : Route) (routes : List Route) : List Route :=
  if Taken routes r then routes else r :: routes

@[simp] theorem withRule_rules (k : KernelState) (p : PolicyRule) :
    (withRule k p).rules = rulesWith p k.rules := by
  unfold withRule rulesWith
  split_ifs with h
  · rfl
  · unfold KernelState.addRule
    rw [dif_neg fun hp => h ⟨p, hp, rfl, rfl, rfl, Or.inr rfl⟩]

@[simp] theorem withRule_routes (k : KernelState) (p : PolicyRule) :
    (withRule k p).routes = k.routes := by
  unfold withRule
  split_ifs
  · rfl
  · exact KernelState.addRule_routes k p

@[simp] theorem withRoute_routes (k : KernelState) (r : Route) :
    (withRoute k r).routes = routesWith r k.routes := by
  unfold withRoute routesWith
  split_ifs with h
  · rfl
  · unfold KernelState.addRoute
    rw [dif_neg fun hr => h ⟨r, hr, rfl, rfl, rfl⟩]

@[simp] theorem withRoute_rules (k : KernelState) (r : Route) :
    (withRoute k r).rules = k.rules := by
  unfold withRoute
  split_ifs
  · rfl
  · exact KernelState.addRoute_rules k r

theorem network?_self (d : IpNetwork) : network? d.version d.ip d.prefixLen = some d := by
  unfold network?
  rw [new?_self, Option.filter_some, decide_eq_true rfl, if_pos rfl]

theorem ruleAdd_own (d : IpNetwork) (t priority : ℕ) (k : KernelState) :
    ruleAdd (policyRuleRequest (some d) none t priority
        (RouteManager.ruleIsIpv4 (some d) none)) k =
      if Duplicated k.rules (ruleOf d t priority) then (.error fileExists, k)
      else (.ok (), k.addRule (ruleOf d t priority)) := by
  have hr : requestedRule (policyRuleRequest (some d) none t priority
      (RouteManager.ruleIsIpv4 (some d) none)) = some (ruleOf d t priority) := by
    unfold requestedRule
    rw [policyRuleRequest_destination, policyRuleRequest_version]
    dsimp only
    rw [network?_self]
    rfl
  unfold ruleAdd
  rw [hr]

theorem routeAdd_own (d : IpNetwork) (i t metric : ℕ) (k : KernelState) :
    routeAdd (routeRequest d none i t metric) k =
      match routeOf? d t metric i with
      | none => (.error invalidArgument, k)
      | some r => if Taken k.routes r then (.error fileExists, k) else (.ok (), k.addRoute r) := by
  have hr : requestedRoute (routeRequest d none i t metric) = routeOf? d t metric i := by
    unfold requestedRoute
    show ((network? d.version d.ip d.prefixLen).bind routeNetwork?).map _ = _
    rw [network?_self]
    rfl
  unfold routeAdd
  generalize requestedRoute (routeRequest d none i t metric) = requested at hr ⊢
  subst hr
  rfl

theorem ruleDel_own (d : IpNetwork) (t priority : ℕ) (k : KernelState) :
    ruleDel (ruleDelMessage d t priority) k =
      match pickOwn k.rules d t priority with
      | some p => (.ok (), k.dropRule p)
      | none => (.error noEntry, k) := by
  have hv : versionOf (ruleDelMessage d t priority).family = some d.version :=
    versionOf_familyOf d.version
  unfold ruleDel
  rw [hv]
  rfl

/- The message has no family. -/
theorem routeDel_own (d : IpNetwork) (t : ℕ) (k : KernelState) :
    routeDel (routeDelMessage d t) k = (.error notSupported, k) := rfl

/-! ### The four requests -/

theorem addPolicyRule_passes (hl : Live rm) (d : IpNetwork) (t priority : ℕ) {k : KernelState}
    (hp : env.Passes k.clock) :
    rm.addPolicyRule env.linux (some d) none t priority k =
      .ok () (withRule k (ruleOf d t priority)).tick := by
  obtain ⟨message, hs⟩ := addPolicyRule_settles env.linux hl.not_dry hl.connected (some d) none t
    priority
  have ha := ruleAdd_own d t priority k
  unfold withRule
  rw [hs]
  split_ifs at ha ⊢ with hm
  · exact settle_answer hp ha (by decide)
  · exact settle_passes hp ha

theorem resolveInterfaceIndex_passes (hl : Live rm) {name : String} {i : ℕ} {k : KernelState}
    (hp : env.Passes k.clock) (hi : env.ifindex name = some i) :
    rm.resolveInterfaceIndex env.linux name k = .ok i k.tick :=
  Kernel.resolveInterfaceIndex_passes hl hp hi

/- A route with host bits is refused in IPv4. -/
theorem addRoute_passes (hl : Live rm) (d : IpNetwork) {name : String} {i : ℕ} (t metric : ℕ)
    {k : KernelState} (hp : env.Passes k.clock) (hi : env.ifindex name = some i)
    (hp' : env.Passes (k.clock + 1)) :
    match routeOf? d t metric i with
    | none => ∃ err, rm.addRoute env.linux d none name t metric k = .error err k.tick.tick
    | some r => rm.addRoute env.linux d none name t metric k = .ok () (withRoute k.tick r).tick := by
  obtain ⟨message, hs⟩ := addRoute_settles env.linux hl.not_dry hl.connected d none t metric
    (resolveInterfaceIndex_passes hl hp hi)
  have ha := routeAdd_own d i t metric k.tick
  cases hr : routeOf? d t metric i with
  | none =>
    rw [hr] at ha
    dsimp only
    rw [hs]
    exact settle_refused (k := k.tick) hp' ha (by decide)
  | some r =>
    rw [hr] at ha
    dsimp only at ha ⊢
    unfold withRoute
    rw [hs]
    split_ifs at ha ⊢ with ho
    · exact settle_answer (k := k.tick) hp' ha (by decide)
    · exact settle_passes (k := k.tick) hp' ha

theorem addRoute_unresolved (hl : Live rm) (d : IpNetwork) {name : String} (t metric : ℕ)
    {k : KernelState} (hi : env.ifindex name = none) :
    ∃ err, rm.addRoute env.linux d none name t metric k = .error err k.tick := by
  refine addRoute_linkless env.linux hl.not_dry hl.connected d none t metric ?_
  refine Kernel.resolveInterfaceIndex_fails hl ?_
  rintro ⟨_, i, h⟩
  rw [hi] at h
  cases h

theorem removePolicyRule_passes (hl : Live rm) (d : IpNetwork) {t : ℕ} (priority : ℕ)
    {k : KernelState} (ht : t ≤ 255) (hp : env.Passes k.clock) :
    rm.removePolicyRule env.linux (some d) none t priority k =
      .ok () ((pickOwn k.rules d t priority).elim k k.dropRule).tick := by
  obtain ⟨message, hs⟩ := removePolicyRule_settles env.linux hl.not_dry hl.connected
    (buildRuleMessage_eq d priority ht)
  have ha := ruleDel_own d t priority k
  rw [hs]
  cases hx : pickOwn k.rules d t priority with
  | some p =>
    rw [hx] at ha
    exact settle_passes hp ha
  | none =>
    rw [hx] at ha
    exact settle_answer hp ha (by decide)

/-! ### Requests that may fail -/

/- No request is answered with ENOENT or ENXIO of itself. -/
def Steady (env : Env) : Prop := ∀ c, ¬ env.Excused isNoSuchEntry c

theorem quiet_steady (hq : Quiet env) : Steady env := fun c he => he.not_passes (hq c)

/- The removal of a route fails, whatever is in the table. -/
theorem removeRoute_fails (hs : Steady env) (hl : Live rm) (d : IpNetwork) (t : ℕ)
    (k : KernelState) : ∃ err k', rm.removeRoute env.linux d t k = .error err k' ∧
      k'.rules = k.rules ∧ k'.routes = k.routes := by
  by_cases ht : t ≤ 255
  · obtain ⟨message, hsettles⟩ := removeRoute_settles env.linux hl.not_dry hl.connected
      (removeRouteMessage_eq d ht)
    have hsettled : ∃ err, settle isNoSuchEntry message
        (env.request (routeDel (routeDelMessage d t))) k = .error err k.tick := by
      by_cases hp : env.Passes k.clock
      · exact settle_refused hp (routeDel_own d t k) (by decide)
      · exact settle_fails _ hp (hs k.clock)
    obtain ⟨err, he⟩ := hsettled
    exact ⟨err, _, (congrFun hsettles k).trans he, rfl, rfl⟩
  · obtain ⟨e, he⟩ := tableIdToU8_error ht
    have hm : removeRouteMessage d t = .error e := by
      unfold removeRouteMessage
      rw [he]
      rfl
    refine ⟨e, k, ?_, rfl, rfl⟩
    unfold RouteManager.removeRoute
    rw [if_neg hl.not_dry, withHandle_some hl.connected, hm]
    rfl

/-! ### Applying and removing a rule -/

/- The route that Linux keeps for the rule, where it knows the interface and takes the network. -/
def route? (env : Env) (rule : RouteRule) (d : IpNetwork) (t : ℕ) : Option Route :=
  (env.ifindex rule.routeVia.interface).bind (routeOf? d t rule.priority)

theorem route?_some {rule : RouteRule} {d : IpNetwork} {t : ℕ} {r : Route}
    (h : route? env rule d t = some r) : ∃ i d', env.ifindex rule.routeVia.interface = some i ∧
      routeNetwork? d = some d' ∧ r = ⟨t, d', routeMetric d.version rule.priority, i⟩ := by
  obtain ⟨i, hi, hroute⟩ := Option.bind_eq_some_iff.mp h
  obtain ⟨d', hd, rfl⟩ := Option.map_eq_some_iff.mp hroute
  exact ⟨i, d', hi, hd, rfl⟩

/- Without failures, a call adds the policy rule, and returns where it adds the route. -/
theorem operator_apply (hq : Quiet env) (hl : Live rm) {rule : RouteRule} {d : IpNetwork} (t : ℕ)
    (k : KernelState) (hd : RuleOperator.target? rule = some d) :
    ∃ k', k'.rules = rulesWith (ruleOf d t rule.priority) k.rules ∧
      match route? env rule d t with
      | some r => RuleOperator.applyRule env.linux rm rule 0 t k = .ok () k' ∧
          k'.routes = routesWith r k.routes
      | none => (∃ e, RuleOperator.applyRule env.linux rm rule 0 t k = .error e k') ∧
          k'.routes = k.routes := by
  have h1 := addPolicyRule_passes hl d t rule.priority (hq k.clock)
  have hrules := withRule_rules k (ruleOf d t rule.priority)
  have hroutes := withRule_routes k (ruleOf d t rule.priority)
  generalize withRule k (ruleOf d t rule.priority) = k1 at h1 hrules hroutes
  rw [RuleOperator.applyRule, RuleOperator.getDestination_ok.mpr hd]
  unfold route?
  cases hi : env.ifindex rule.routeVia.interface with
  | none =>
    obtain ⟨err, h2⟩ := addRoute_unresolved (k := k1.tick) hl d t rule.priority hi
    exact ⟨k1.tick.tick, hrules, ⟨err, (bind_ok h1).trans h2⟩, hroutes⟩
  | some i =>
    have h2 := addRoute_passes hl d t rule.priority (hq k1.tick.clock) hi (hq _)
    rw [Option.bind_some]
    cases hr : routeOf? d t rule.priority i with
    | none =>
      rw [hr] at h2
      obtain ⟨err, h2⟩ := h2
      exact ⟨k1.tick.tick.tick, hrules, ⟨err, (bind_ok h1).trans h2⟩, hroutes⟩
    | some r =>
      rw [hr] at h2
      refine ⟨(withRoute k1.tick.tick r).tick, ?_, (bind_ok h1).trans h2, ?_⟩
      · rw [KernelState.tick_rules, withRoute_rules]
        exact hrules
      · rw [KernelState.tick_routes, withRoute_routes, KernelState.tick_routes,
          KernelState.tick_routes, hroutes]

/- Outside dry-run mode a removal fails, as its request for the route does. -/
theorem operator_remove_fails (hs : Steady env) (hw : ¬ rm.dryRun = true) (rule : RouteRule)
    (t : ℕ) (k : KernelState) :
    ∃ err k', RuleOperator.removeRule env.linux rm rule t k = .error err k' := by
  cases hd : RuleOperator.target? rule with
  | none =>
    obtain ⟨e, he⟩ := RuleOperator.removeRule_targetless env.linux rm rule t k hd
    exact ⟨e, k, he⟩
  | some d =>
    have hdest := RuleOperator.getDestination_ok.mpr hd
    by_cases hc : rm.handle.isSome
    · have hl : Live rm := ⟨Bool.eq_false_iff.mpr hw, hc⟩
      rw [RuleOperator.removeRule, hdest]
      cases h1 : rm.removePolicyRule env.linux (some d) none t rule.priority k with
      | error e k' => exact ⟨e, k', bind_error h1⟩
      | ok u k' =>
        obtain ⟨err, k'', he, _⟩ := removeRoute_fails hs hl d t k'
        exact ⟨err, k'', (bind_ok h1).trans he⟩
    · have hn : rm.handle.isNone := by
        rw [Option.isNone_iff_eq_none]
        exact Option.not_isSome_iff_eq_none.mp hc
      obtain ⟨e, he⟩ := RuleOperator.removeRule_unconnected env.linux hdest t k hw hn
      exact ⟨e, k, he⟩

/- The policy rule that a removal deletes before it fails. -/
def pickFor (rule : RouteRule) (t : ℕ) (rules : List PolicyRule) : Option PolicyRule :=
  if t ≤ 255 then (RuleOperator.target? rule).bind fun d => pickOwn rules d t rule.priority
  else none

/- The policy rules that a removal leaves. -/
def leftBy (rule : RouteRule) (t : ℕ) (rules : List PolicyRule) : List PolicyRule :=
  (pickFor rule t rules).elim rules rules.erase

/- Without failures, a removal has deleted the policy rule before it fails. -/
theorem operator_remove (hq : Quiet env) (hl : Live rm) (rule : RouteRule) (t : ℕ)
    (k : KernelState) :
    ∃ err k', RuleOperator.removeRule env.linux rm rule t k = .error err k' ∧
      k'.rules = leftBy rule t k.rules ∧ k'.routes = k.routes := by
  unfold leftBy pickFor
  cases hd : RuleOperator.target? rule with
  | none =>
    obtain ⟨e, he⟩ := RuleOperator.removeRule_targetless env.linux rm rule t k hd
    refine ⟨e, k, he, ?_, rfl⟩
    split_ifs <;> rfl
  | some d =>
    split_ifs with ht
    · have h1 := removePolicyRule_passes hl d rule.priority ht (hq k.clock)
      obtain ⟨err, k', he, hrules, hroutes⟩ := removeRoute_fails (quiet_steady hq) hl d t
        ((pickOwn k.rules d t rule.priority).elim k k.dropRule).tick
      refine ⟨err, k', ?_, ?_, ?_⟩
      · rw [RuleOperator.removeRule, RuleOperator.getDestination_ok.mpr hd]
        exact (bind_ok h1).trans he
      · rw [hrules, Option.bind_some]
        cases pickOwn k.rules d t rule.priority <;> rfl
      · rw [hroutes]
        cases pickOwn k.rules d t rule.priority <;> rfl
    · have hw : ¬ ((RuleOperator.target? rule).isSome ∧ rm.Withdrawable t) :=
        fun hx => ht (hx.2.resolve_left hl.not_dry)
      obtain ⟨e, he⟩ := RuleOperator.removeRule_rejected env.linux hl.ready rule k hw
      exact ⟨e, k, he, rfl, rfl⟩

/-! ### The executor -/

variable {s : ExecutorState KernelState}

/- A removal untracks nothing. -/
theorem remove_fails (hs : Steady env) (hw : ¬ s.executor.routeManager.dryRun = true)
    (rule : RouteRule) (t : ℕ) :
    ∃ err k', RuleExecutor.removeRule env.linux rule t s = .error err
      { executor := s.executor
        kernel := k'
        history := ⟨.removeRule rule t, s.executor, s.kernel, false⟩ :: s.history } := by
  obtain ⟨err, k', he⟩ := operator_remove_fails hs hw rule t s.kernel
  exact ⟨err, k', RuleExecutor.removeRule_error he⟩

theorem remove_quiet (hq : Quiet env) (hl : Live s.executor.routeManager) (rule : RouteRule)
    (t : ℕ) : ∃ err k', RuleExecutor.removeRule env.linux rule t s = .error err
        { executor := s.executor
          kernel := k'
          history := ⟨.removeRule rule t, s.executor, s.kernel, false⟩ :: s.history } ∧
      k'.rules = leftBy rule t s.kernel.rules ∧ k'.routes = s.kernel.routes := by
  obtain ⟨err, k', he, hrules, hroutes⟩ := operator_remove hq hl rule t s.kernel
  exact ⟨err, k', RuleExecutor.removeRule_error he, hrules, hroutes⟩

/-! ### What a removal deletes -/

theorem pickRule_some {rules : List PolicyRule} {v : IpVersion} {m : RuleMessage} {p : PolicyRule}
    (h : pickRule rules v m = some p) : p ∈ rules ∧ NamesRule v m p := by
  have hm := List.argmin_mem h
  rw [List.mem_filter, List.mem_reverse, decide_eq_true_iff] at hm
  exact hm

theorem pickRoute_some {routes : List Route} {m : RouteMessage} {d : IpNetwork} {r : Route}
    (h : pickRoute routes m d = some r) : r ∈ routes ∧ NamesRoute m d r := by
  have hm := List.argmin_mem h
  rw [List.mem_filter, decide_eq_true_iff] at hm
  exact hm

theorem pickRule_none {rules : List PolicyRule} {v : IpVersion} {m : RuleMessage} :
    pickRule rules v m = none ↔ ∀ p ∈ rules, ¬ NamesRule v m p := by
  unfold pickRule
  rw [List.argmin_eq_none, List.filter_eq_nil_iff]
  simp only [List.mem_reverse, decide_eq_true_eq]

theorem namesRule_own (d : IpNetwork) (t priority : ℕ) (r : PolicyRule) :
    NamesRule d.version (ruleDelMessage d t priority) r ↔
      r.destination.version = d.version ∧ (t = 0 ∨ r.table = t) ∧ r.priority = priority ∧
        (d.prefixLen = 0 ∨ r.destination = d) := by
  have hnet : ∀ x : IpNetwork, (x.prefixLen = d.prefixLen ∧ some d.ip = some x.ip) ↔ x = d := by
    intro x
    refine ⟨fun h => ?_, fun h => h ▸ ⟨rfl, rfl⟩⟩
    have hx := new?_self x
    rw [h.1, ← Option.some.inj h.2, new?_self] at hx
    exact (Option.some.inj hx).symm
  have hm : (ruleDelMessage d t priority).tableId = t := rfl
  have hp : (ruleDelMessage d t priority).priority? = some priority := rfl
  have hd : (ruleDelMessage d t priority).destination? = some d.ip := rfl
  have hlen : (ruleDelMessage d t priority).dstLen = d.prefixLen := rfl
  unfold NamesRule
  rw [hm, hp, hd, hlen, hnet, Option.getD_some]

end NicAutoswitch.Kernel.Linux
