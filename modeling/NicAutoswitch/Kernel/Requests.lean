import NicAutoswitch.Kernel.Plain
import NicAutoswitch.Router.Granted
import NicAutoswitch.Router.Messages

/-!
# The router layer on the Linux kernel

What each request of a connected manager does to the kernel, and when it fails.
-/

namespace NicAutoswitch.Kernel
open Router StateProg

/- The manager works on the kernel. -/
structure Live (rm : RouteManager) : Prop where
  wet : rm.dryRun = false
  connected : rm.handle.isSome

instance (rm : RouteManager) : Decidable (Live rm) :=
  decidable_of_iff (rm.dryRun = false ∧ rm.handle.isSome)
    ⟨fun h => ⟨h.1, h.2⟩, fun h => ⟨h.wet, h.connected⟩⟩

theorem Live.ready {rm : RouteManager} (h : Live rm) : rm.Ready := Or.inr h.connected

theorem Live.not_dry {rm : RouteManager} (h : Live rm) : ¬ rm.dryRun = true := by
  rw [h.wet]
  exact Bool.false_ne_true

theorem connected_live : Live connected := ⟨rfl, rfl⟩

variable {env : Env} {rm : RouteManager}

/- Nothing makes the request at this time fail. -/
def Env.Passes (env : Env) (c : ℕ) : Prop := env.fault c = none

/- No request fails of itself. -/
def Quiet (env : Env) : Prop := ∀ c, env.Passes c

/- The request at this time fails with an error that the caller tolerates. -/
def Env.Excused (env : Env) (tolerated : RtError → Bool) (c : ℕ) : Prop :=
  ∃ e, env.fault c = some e ∧ tolerated e = true

theorem request_passes {α : Type} {k : KernelState} (h : env.Passes k.clock)
    (f : KernelState → Except RtError α × KernelState) :
    env.request f k = ((f k).1, (f k).2.tick) := by
  have hf : env.fault k.clock = none := h
  simp only [Env.request, hf]

theorem request_fails {α : Type} {k : KernelState} {e : RtError} (h : env.fault k.clock = some e)
    (f : KernelState → Except RtError α × KernelState) :
    env.request f k = (.error e, k.tick) := by
  simp only [Env.request, h]

/-! ### Settling a request -/

theorem settle_passes {tolerated : RtError → Bool} {message : RtError → String}
    {f : KernelState → Except RtError Unit × KernelState} {k k' : KernelState}
    (hp : env.Passes k.clock) (h : f k = (.ok (), k')) :
    settle tolerated message (env.request f) k = .ok () k'.tick := by
  have hr := request_passes hp f
  rw [h] at hr
  simp only [settle, hr]

theorem settle_answer {tolerated : RtError → Bool} {message : RtError → String}
    {f : KernelState → Except RtError Unit × KernelState} {k : KernelState} {e : RtError}
    (hp : env.Passes k.clock) (h : f k = (.error e, k)) (ht : tolerated e = true) :
    settle tolerated message (env.request f) k = .ok () k.tick := by
  have hr := request_passes hp f
  rw [h] at hr
  simp only [settle, hr, ht, if_true]

theorem settle_refused {tolerated : RtError → Bool} {message : RtError → String}
    {f : KernelState → Except RtError Unit × KernelState} {k : KernelState} {e : RtError}
    (hp : env.Passes k.clock) (h : f k = (.error e, k)) (ht : tolerated e = false) :
    ∃ err, settle tolerated message (env.request f) k = .error err k.tick := by
  have hr := request_passes hp f
  rw [h] at hr
  exact ⟨_, by simp only [settle, hr, ht]; rfl⟩

theorem settle_excused {tolerated : RtError → Bool} {message : RtError → String}
    (f : KernelState → Except RtError Unit × KernelState) {k : KernelState}
    (h : env.Excused tolerated k.clock) :
    settle tolerated message (env.request f) k = .ok () k.tick := by
  obtain ⟨e, he, ht⟩ := h
  simp only [settle, request_fails he, ht, if_true]

theorem settle_fails {tolerated : RtError → Bool} {message : RtError → String}
    (f : KernelState → Except RtError Unit × KernelState) {k : KernelState}
    (hp : ¬ env.Passes k.clock) (h : ¬ env.Excused tolerated k.clock) :
    ∃ err, settle tolerated message (env.request f) k = .error err k.tick := by
  obtain ⟨e, he⟩ := Option.ne_none_iff_exists'.mp hp
  have ht : tolerated e = false := by
    cases hx : tolerated e with
    | false => rfl
    | true => exact absurd ⟨e, he, hx⟩ h
  exact ⟨_, by simp only [settle, request_fails he, ht]; rfl⟩

/-! ### Policy rules -/

theorem requestedRule_own (d : IpNetwork) (t priority : ℕ) :
    requestedRule (policyRuleRequest (some d) none t priority
      (RouteManager.ruleIsIpv4 (some d) none)) = some ⟨d, t, priority⟩ := by
  have hd := policyRuleRequest_destination d t priority
  unfold requestedRule
  rw [hd]
  show (IpNetwork.new? d.ip d.prefixLen).map _ = _
  rw [new?_self]
  rfl

theorem ruleAdd_own (d : IpNetwork) (t priority : ℕ) (k : KernelState) :
    Env.ruleAdd (policyRuleRequest (some d) none t priority
        (RouteManager.ruleIsIpv4 (some d) none)) k =
      if ⟨d, t, priority⟩ ∈ k.rules then (.error fileExists, k)
      else (.ok (), k.addRule ⟨d, t, priority⟩) := by
  unfold Env.ruleAdd
  rw [requestedRule_own]

theorem addRule_present {k : KernelState} {p : PolicyRule} (h : p ∈ k.rules) : k.addRule p = k := by
  unfold KernelState.addRule
  rw [dif_pos h]

theorem addPolicyRule_passes (hl : Live rm) (d : IpNetwork) (t priority : ℕ) {k : KernelState}
    (hp : env.Passes k.clock) :
    rm.addPolicyRule env.plain (some d) none t priority k =
      .ok () (k.addRule ⟨d, t, priority⟩).tick := by
  obtain ⟨message, hs⟩ := addPolicyRule_settles env.plain hl.not_dry hl.connected (some d) none t
    priority
  have ha := ruleAdd_own d t priority k
  rw [hs]
  by_cases hm : ⟨d, t, priority⟩ ∈ k.rules
  · rw [if_pos hm] at ha
    rw [addRule_present hm]
    exact settle_answer hp ha (by decide)
  · rw [if_neg hm] at ha
    exact settle_passes hp ha

theorem addPolicyRule_excused (hl : Live rm) (d : IpNetwork) (t priority : ℕ) {k : KernelState}
    (h : env.Excused isAlreadyExists k.clock) :
    rm.addPolicyRule env.plain (some d) none t priority k = .ok () k.tick := by
  obtain ⟨message, hs⟩ := addPolicyRule_settles env.plain hl.not_dry hl.connected (some d) none t
    priority
  rw [hs]
  exact settle_excused _ h

theorem addPolicyRule_fails (hl : Live rm) (d : IpNetwork) (t priority : ℕ) {k : KernelState}
    (hp : ¬ env.Passes k.clock) (h : ¬ env.Excused isAlreadyExists k.clock) :
    ∃ err, rm.addPolicyRule env.plain (some d) none t priority k = .error err k.tick := by
  obtain ⟨message, hs⟩ := addPolicyRule_settles env.plain hl.not_dry hl.connected (some d) none t
    priority
  rw [hs]
  exact settle_fails _ hp h

/- The message that removes a policy rule. -/
def ruleDelMessage (d : IpNetwork) (t priority : ℕ) : RuleMessage where
  table := t
  action := .toTable
  family := familyOf d.version
  dstLen := d.prefixLen
  attributes := [.destination d.ip, .priority priority]

theorem ruleDel_own (d : IpNetwork) (t priority : ℕ) (k : KernelState) :
    Env.ruleDel (ruleDelMessage d t priority) k =
      if ⟨d, t, priority⟩ ∈ k.rules then (.ok (), k.dropRule ⟨d, t, priority⟩)
      else (.error noEntry, k) := by
  have hn : namedRule (ruleDelMessage d t priority) = some ⟨d, t, priority⟩ := by
    show (IpNetwork.new? d.ip d.prefixLen).map _ = _
    rw [new?_self]
    rfl
  unfold Env.ruleDel
  rw [hn]

theorem dropRule_absent {k : KernelState} {p : PolicyRule} (h : p ∉ k.rules) :
    k.dropRule p = k := by
  obtain ⟨rules, routes, clock, h1, h2⟩ := k
  simp only [KernelState.dropRule, List.erase_of_not_mem h]

/- Removing a policy rule also goes well where the rule is absent. -/
theorem removePolicyRule_passes (hl : Live rm) (d : IpNetwork) {t : ℕ} (priority : ℕ)
    {k : KernelState} (ht : t ≤ 255) (hp : env.Passes k.clock) :
    rm.removePolicyRule env.plain (some d) none t priority k =
      .ok () (k.dropRule ⟨d, t, priority⟩).tick := by
  have hm := buildRuleMessage_eq d priority ht
  obtain ⟨message, hs⟩ := removePolicyRule_settles env.plain hl.not_dry hl.connected hm
  have ha := ruleDel_own d t priority k
  rw [hs]
  by_cases hk : ⟨d, t, priority⟩ ∈ k.rules
  · rw [if_pos hk] at ha
    exact settle_passes hp ha
  · rw [if_neg hk] at ha
    rw [dropRule_absent hk]
    exact settle_answer hp ha (by decide)

theorem removePolicyRule_excused (hl : Live rm) (d : IpNetwork) {t : ℕ} (priority : ℕ)
    {k : KernelState} (ht : t ≤ 255) (h : env.Excused isNoSuchEntry k.clock) :
    rm.removePolicyRule env.plain (some d) none t priority k = .ok () k.tick := by
  have hm := buildRuleMessage_eq d priority ht
  obtain ⟨message, hs⟩ := removePolicyRule_settles env.plain hl.not_dry hl.connected hm
  rw [hs]
  exact settle_excused _ h

theorem removePolicyRule_fails (hl : Live rm) (d : IpNetwork) {t : ℕ} (priority : ℕ)
    {k : KernelState} (ht : t ≤ 255) (hp : ¬ env.Passes k.clock)
    (h : ¬ env.Excused isNoSuchEntry k.clock) :
    ∃ err, rm.removePolicyRule env.plain (some d) none t priority k = .error err k.tick := by
  have hm := buildRuleMessage_eq d priority ht
  obtain ⟨message, hs⟩ := removePolicyRule_settles env.plain hl.not_dry hl.connected hm
  rw [hs]
  exact settle_fails _ hp h

/-! ### Routes -/

theorem resolveInterfaceIndex_passes (hl : Live rm) {name : String} {i : ℕ} {k : KernelState}
    (hp : env.Passes k.clock) (hi : env.ifindex name = some i) :
    rm.resolveInterfaceIndex env.plain name k = .ok i k.tick := by
  have hg : env.linkGet name k = (.ok (some i), k) := by
    unfold Env.linkGet
    rw [hi]
  have hs : env.plain.linkGet name k = (.ok (some i), k.tick) := by
    show env.request (env.linkGet name) k = _
    rw [request_passes hp, hg]
  exact resolveInterfaceIndex_found hl.connected hs

theorem resolveInterfaceIndex_fails (hl : Live rm) {name : String} {k : KernelState}
    (h : ¬ (env.Passes k.clock ∧ ∃ i, env.ifindex name = some i)) :
    ∃ err, rm.resolveInterfaceIndex env.plain name k = .error err k.tick := by
  have hs : ∃ e, env.plain.linkGet name k = (.error e, k.tick) := by
    show ∃ e, env.request (env.linkGet name) k = _
    by_cases hp : env.Passes k.clock
    · have hn : env.ifindex name = none := by
        cases hi : env.ifindex name with
        | none => rfl
        | some i => exact absurd ⟨hp, i, hi⟩ h
      have hg : env.linkGet name k = (.error noDevice, k) := by
        unfold Env.linkGet
        rw [hn]
      exact ⟨noDevice, by rw [request_passes hp, hg]⟩
    · obtain ⟨e, he⟩ := Option.ne_none_iff_exists'.mp hp
      exact ⟨e, request_fails he _⟩
  obtain ⟨e, he⟩ := hs
  exact resolveInterfaceIndex_lost hl.connected he fun i hi => by cases hi

/- Another route has the table, the destination and the metric. -/
def Occupied (k : KernelState) (t : ℕ) (d : IpNetwork) (metric : ℕ) : Prop :=
  ∃ r ∈ k.routes, r.table = t ∧ r.destination = d ∧ r.metric = metric

instance (k : KernelState) (t : ℕ) (d : IpNetwork) (metric : ℕ) :
    Decidable (Occupied k t d metric) := inferInstanceAs (Decidable (∃ r ∈ k.routes, _))

theorem routeAdd_own (d : IpNetwork) (i t metric : ℕ) (k : KernelState) :
    Env.routeAdd (routeRequest d none i t metric) k =
      if Occupied k t d metric then (.error fileExists, k)
      else (.ok (), k.addRoute ⟨t, d, metric, i⟩) := by
  have hr : requestedRoute (routeRequest d none i t metric) = some ⟨t, d, metric, i⟩ := by
    show (IpNetwork.new? d.ip d.prefixLen).map _ = _
    rw [new?_self]
    rfl
  unfold Env.routeAdd
  rw [hr]
  rfl

theorem addRoute_resolved (hl : Live rm) (d : IpNetwork) {name : String} {i : ℕ} (t metric : ℕ)
    {k : KernelState} (hp : env.Passes k.clock) (hi : env.ifindex name = some i) :
    ∃ message, rm.addRoute env.plain d none name t metric k =
      settle isAlreadyExists message
        (env.request (Env.routeAdd (routeRequest d none i t metric))) k.tick :=
  addRoute_settles env.plain hl.not_dry hl.connected d none t metric
    (resolveInterfaceIndex_passes hl hp hi)

theorem addRoute_passes (hl : Live rm) (d : IpNetwork) {name : String} {i : ℕ} (t metric : ℕ)
    {k : KernelState} (hp : env.Passes k.clock) (hi : env.ifindex name = some i)
    (hp' : env.Passes (k.clock + 1)) :
    rm.addRoute env.plain d none name t metric k =
      .ok () (if Occupied k t d metric then k.tick else k.tick.addRoute ⟨t, d, metric, i⟩).tick := by
  obtain ⟨message, h⟩ := addRoute_resolved hl d t metric hp hi
  have ha := routeAdd_own d i t metric k.tick
  have ho : Occupied k.tick t d metric ↔ Occupied k t d metric := Iff.rfl
  rw [h]
  by_cases hk : Occupied k t d metric
  · rw [if_pos (ho.mpr hk)] at ha
    rw [if_pos hk]
    exact settle_answer (k := k.tick) hp' ha (by decide)
  · rw [if_neg (fun hx => hk (ho.mp hx))] at ha
    rw [if_neg hk]
    exact settle_passes (k := k.tick) hp' ha

theorem addRoute_excused (hl : Live rm) (d : IpNetwork) {name : String} {i : ℕ} (t metric : ℕ)
    {k : KernelState} (hp : env.Passes k.clock) (hi : env.ifindex name = some i)
    (h : env.Excused isAlreadyExists (k.clock + 1)) :
    rm.addRoute env.plain d none name t metric k = .ok () k.tick.tick := by
  obtain ⟨message, hr⟩ := addRoute_resolved hl d t metric hp hi
  rw [hr]
  exact settle_excused (k := k.tick) _ h

theorem addRoute_unresolved (hl : Live rm) (d : IpNetwork) {name : String} (t metric : ℕ)
    {k : KernelState} (h : ¬ (env.Passes k.clock ∧ ∃ i, env.ifindex name = some i)) :
    ∃ err, rm.addRoute env.plain d none name t metric k = .error err k.tick :=
  addRoute_linkless env.plain hl.not_dry hl.connected d none t metric
    (resolveInterfaceIndex_fails hl h)

theorem addRoute_fails (hl : Live rm) (d : IpNetwork) {name : String} {i : ℕ} (t metric : ℕ)
    {k : KernelState} (hp : env.Passes k.clock) (hi : env.ifindex name = some i)
    (hp' : ¬ env.Passes (k.clock + 1)) (h : ¬ env.Excused isAlreadyExists (k.clock + 1)) :
    ∃ err, rm.addRoute env.plain d none name t metric k = .error err k.tick.tick := by
  obtain ⟨message, hr⟩ := addRoute_resolved hl d t metric hp hi
  rw [hr]
  exact settle_fails (k := k.tick) _ hp' h

/- The message that removes a route. -/
def routeDelMessage (d : IpNetwork) (t : ℕ) : RouteMessage where
  table := t
  protocol := .static
  scope := .universe
  kind := .unicast
  destinationPrefixLength := d.prefixLen
  attributes := [.destination d.ip]

theorem routeDel_own (d : IpNetwork) (t : ℕ) (k : KernelState) :
    Env.routeDel (routeDelMessage d t) k =
      match k.pick t d none none with
      | some r => (.ok (), k.dropRoute r)
      | none => (.error noProcess, k) := by
  have hn : namedDestination (routeDelMessage d t) = some d := new?_self d
  unfold Env.routeDel
  rw [hn]
  rfl

/- The route of lowest metric goes, whatever its interface. -/
theorem removeRoute_passes (hl : Live rm) {d : IpNetwork} {t : ℕ} {k : KernelState} {r : Route}
    (ht : t ≤ 255) (hp : env.Passes k.clock) (hr : k.pick t d none none = some r) :
    rm.removeRoute env.plain d t k = .ok () (k.dropRoute r).tick := by
  obtain ⟨message, hs⟩ := removeRoute_settles env.plain hl.not_dry hl.connected
    (removeRouteMessage_eq d ht)
  have ha := routeDel_own d t k
  rw [hr] at ha
  rw [hs]
  exact settle_passes hp ha

/- The kernel answers ESRCH, which is not among the tolerated errors. -/
theorem removeRoute_absent (hl : Live rm) {d : IpNetwork} {t : ℕ} {k : KernelState}
    (ht : t ≤ 255) (hp : env.Passes k.clock) (hr : k.pick t d none none = none) :
    ∃ err, rm.removeRoute env.plain d t k = .error err k.tick := by
  obtain ⟨message, hs⟩ := removeRoute_settles env.plain hl.not_dry hl.connected
    (removeRouteMessage_eq d ht)
  have ha := routeDel_own d t k
  rw [hr] at ha
  rw [hs]
  exact settle_refused hp ha (by decide)

theorem removeRoute_excused (hl : Live rm) {d : IpNetwork} {t : ℕ} {k : KernelState}
    (ht : t ≤ 255) (h : env.Excused isNoSuchEntry k.clock) :
    rm.removeRoute env.plain d t k = .ok () k.tick := by
  obtain ⟨message, hs⟩ := removeRoute_settles env.plain hl.not_dry hl.connected
    (removeRouteMessage_eq d ht)
  rw [hs]
  exact settle_excused _ h

theorem removeRoute_fails (hl : Live rm) {d : IpNetwork} {t : ℕ} {k : KernelState}
    (ht : t ≤ 255) (hp : ¬ env.Passes k.clock) (h : ¬ env.Excused isNoSuchEntry k.clock) :
    ∃ err, rm.removeRoute env.plain d t k = .error err k.tick := by
  obtain ⟨message, hs⟩ := removeRoute_settles env.plain hl.not_dry hl.connected
    (removeRouteMessage_eq d ht)
  rw [hs]
  exact settle_fails _ hp h

end NicAutoswitch.Kernel
