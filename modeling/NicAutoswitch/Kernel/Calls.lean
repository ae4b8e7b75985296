import NicAutoswitch.Engine.ActiveRoutes
import NicAutoswitch.Kernel.Requests

/-!
# What the executor's calls do to the kernel

Any request may fail. A call that fails midway keeps what its earlier requests have
done.
-/

namespace NicAutoswitch.Kernel
open HashMaps Schema Monitor Router StateProg Engine

variable {env : Env} {rm : RouteManager}

/- The request made at this time does not end its caller. -/
def Env.Settles (env : Env) (tolerated : RtError → Bool) (c : ℕ) : Prop :=
  env.Passes c ∨ env.Excused tolerated c

theorem Env.Excused.not_passes {tolerated : RtError → Bool} {c : ℕ}
    (h : env.Excused tolerated c) : ¬ env.Passes c := by
  obtain ⟨e, he, _⟩ := h
  intro hp
  rw [hp] at he
  cases he

/-! ### The four requests -/

theorem addPolicyRule_done (hl : Live rm) (d : IpNetwork) (t priority : ℕ) {k : KernelState}
    (h : env.Settles isAlreadyExists k.clock) :
    ∃ k', rm.addPolicyRule env.plain (some d) none t priority k = .ok () k' ∧
      k'.clock = k.clock + 1 ∧ k'.routes = k.routes ∧
      ∀ p, p ∈ k'.rules ↔ env.Passes k.clock ∧ p = ⟨d, t, priority⟩ ∨ p ∈ k.rules := by
  by_cases hp : env.Passes k.clock
  · refine ⟨_, addPolicyRule_passes hl d t priority hp, ?_, ?_, fun p => ?_⟩
    · rw [KernelState.tick_clock, KernelState.addRule_clock]
    · rw [KernelState.tick_routes, KernelState.addRule_routes]
    · rw [KernelState.tick_rules, KernelState.mem_addRule, and_iff_right hp]
  · refine ⟨_, addPolicyRule_excused hl d t priority (h.resolve_left hp), rfl, rfl, fun p => ?_⟩
    rw [KernelState.tick_rules]
    exact ⟨Or.inr, fun hx => hx.resolve_left fun hy => hp hy.1⟩

theorem addPolicyRule_stopped (hl : Live rm) (d : IpNetwork) (t priority : ℕ) {k : KernelState}
    (h : ¬ env.Settles isAlreadyExists k.clock) :
    ∃ err, rm.addPolicyRule env.plain (some d) none t priority k = .error err k.tick :=
  addPolicyRule_fails hl d t priority (fun hp => h (Or.inl hp)) (fun he => h (Or.inr he))

/- The link is found, and the request for the route does not end its caller. -/
def RouteAdded (env : Env) (name : String) (c : ℕ) : Prop :=
  env.Passes c ∧ (env.ifindex name).isSome ∧ env.Settles isAlreadyExists (c + 1)

theorem addRoute_done (hl : Live rm) (d : IpNetwork) {name : String} {l : ℕ} (t metric : ℕ)
    {k : KernelState} (hi : env.ifindex name = some l) (h : RouteAdded env name k.clock) :
    ∃ k', rm.addRoute env.plain d none name t metric k = .ok () k' ∧ k'.rules = k.rules ∧
      ∀ q, q ∈ k'.routes ↔
        (env.Passes (k.clock + 1) ∧ ¬ Occupied k t d metric) ∧ q = ⟨t, d, metric, l⟩ ∨
          q ∈ k.routes := by
  obtain ⟨hlink, _, hs⟩ := h
  by_cases hp : env.Passes (k.clock + 1)
  · refine ⟨_, addRoute_passes hl d t metric hlink hi hp, ?_, fun q => ?_⟩
    · rw [KernelState.tick_rules]
      split_ifs
      · rfl
      · rw [KernelState.addRoute_rules, KernelState.tick_rules]
    · rw [KernelState.tick_routes]
      split_ifs with ho
      · simp only [ho, not_true, and_false, false_and, false_or, KernelState.tick_routes]
      · rw [KernelState.mem_addRoute, KernelState.tick_routes, and_iff_left ho, and_iff_right hp]
  · refine ⟨_, addRoute_excused hl d t metric hlink hi (hs.resolve_left hp), rfl, fun q => ?_⟩
    simp only [hp, false_and, false_or, KernelState.tick_routes]

theorem addRoute_stopped (hl : Live rm) (d : IpNetwork) {name : String} (t metric : ℕ)
    {k : KernelState} (h : ¬ RouteAdded env name k.clock) :
    ∃ err k', rm.addRoute env.plain d none name t metric k = .error err k' ∧
      k'.rules = k.rules ∧ k'.routes = k.routes := by
  by_cases hlink : env.Passes k.clock ∧ ∃ l, env.ifindex name = some l
  · obtain ⟨hp, l, hi⟩ := hlink
    have hs : ¬ env.Settles isAlreadyExists (k.clock + 1) := by
      intro hs
      exact h ⟨hp, by rw [hi]; rfl, hs⟩
    obtain ⟨err, he⟩ := addRoute_fails hl d t metric hp hi (fun hx => hs (Or.inl hx))
      (fun hx => hs (Or.inr hx))
    exact ⟨err, _, he, rfl, rfl⟩
  · obtain ⟨err, he⟩ := addRoute_unresolved hl d t metric hlink
    exact ⟨err, _, he, rfl, rfl⟩

theorem removePolicyRule_done (hl : Live rm) (d : IpNetwork) {t : ℕ} (priority : ℕ)
    {k : KernelState} (ht : t ≤ 255) (h : env.Settles isNoSuchEntry k.clock) :
    ∃ k', rm.removePolicyRule env.plain (some d) none t priority k = .ok () k' ∧
      k'.clock = k.clock + 1 ∧ k'.routes = k.routes ∧
      ∀ p, p ∈ k'.rules ↔ p ∈ k.rules ∧ ¬ (env.Passes k.clock ∧ p = ⟨d, t, priority⟩) := by
  by_cases hp : env.Passes k.clock
  · refine ⟨_, removePolicyRule_passes hl d priority ht hp, rfl, rfl, fun p => ?_⟩
    rw [KernelState.tick_rules, KernelState.mem_dropRule, and_iff_right hp]
    exact and_comm
  · refine ⟨_, removePolicyRule_excused hl d priority ht (h.resolve_left hp), rfl, rfl,
      fun p => ?_⟩
    simp only [hp, false_and, not_false_iff, and_true, KernelState.tick_rules]

theorem removePolicyRule_stopped (hl : Live rm) (d : IpNetwork) {t : ℕ} (priority : ℕ)
    {k : KernelState} (ht : t ≤ 255) (h : ¬ env.Settles isNoSuchEntry k.clock) :
    ∃ err, rm.removePolicyRule env.plain (some d) none t priority k = .error err k.tick :=
  removePolicyRule_fails hl d priority ht (fun hp => h (Or.inl hp)) (fun he => h (Or.inr he))

/- The request for the removal of the route does not end its caller: the kernel has a
route to delete, or the answer is an error that is tolerated. -/
def RouteRemoved (env : Env) (k : KernelState) (d : IpNetwork) (t c : ℕ) : Prop :=
  env.Passes c ∧ (k.pick t d none none).isSome ∨ env.Excused isNoSuchEntry c

theorem removeRoute_done (hl : Live rm) {d : IpNetwork} {t : ℕ} {k : KernelState} (ht : t ≤ 255)
    (h : RouteRemoved env k d t k.clock) :
    ∃ k', rm.removeRoute env.plain d t k = .ok () k' ∧ k'.rules = k.rules ∧
      ∀ q, q ∈ k'.routes ↔
        q ∈ k.routes ∧ ¬ (env.Passes k.clock ∧ k.pick t d none none = some q) := by
  by_cases hp : env.Passes k.clock
  · have hs := (h.resolve_right fun he => he.not_passes hp).2
    obtain ⟨x, hx⟩ := Option.isSome_iff_exists.mp hs
    refine ⟨_, removeRoute_passes hl ht hp hx, rfl, fun q => ?_⟩
    rw [KernelState.tick_routes, KernelState.mem_dropRoute, and_iff_right hp, hx, Option.some_inj,
      eq_comm]
    exact and_comm
  · refine ⟨_, removeRoute_excused hl ht (h.resolve_left fun hx => hp hx.1), rfl, fun q => ?_⟩
    simp only [hp, false_and, not_false_iff, and_true, KernelState.tick_routes]

theorem removeRoute_stopped (hl : Live rm) {d : IpNetwork} {t : ℕ} {k : KernelState} (ht : t ≤ 255)
    (h : ¬ RouteRemoved env k d t k.clock) :
    ∃ err k', rm.removeRoute env.plain d t k = .error err k' ∧ k'.rules = k.rules ∧
      k'.routes = k.routes := by
  by_cases hp : env.Passes k.clock
  · cases hx : k.pick t d none none with
    | none =>
      obtain ⟨err, he⟩ := removeRoute_absent hl ht hp hx
      exact ⟨err, _, he, rfl, rfl⟩
    | some x => exact absurd (Or.inl ⟨hp, by rw [hx]; rfl⟩) h
  · obtain ⟨err, he⟩ := removeRoute_fails hl ht hp (fun he => h (Or.inr he))
    exact ⟨err, _, he, rfl, rfl⟩

theorem pick_congr {k k' : KernelState} (h : k'.routes = k.routes) (t : ℕ) (d : IpNetwork)
    (metric oif : Option ℕ) : k'.pick t d metric oif = k.pick t d metric oif := by
  unfold KernelState.pick
  rw [h]

theorem occupied_congr {k k' : KernelState} (h : k'.routes = k.routes) (t : ℕ) (d : IpNetwork)
    (metric : ℕ) : Occupied k' t d metric ↔ Occupied k t d metric := by
  unfold Occupied
  rw [h]

/-! ### Applying and removing a rule -/

/- Every request of `apply_rule` is answered with `Ok` or an error that is tolerated. -/
def ApplyAnswered (env : Env) (k : KernelState) (rule : RouteRule) : Prop :=
  env.Settles isAlreadyExists k.clock ∧ RouteAdded env rule.routeVia.interface (k.clock + 1)

theorem operator_apply_done (hl : Live rm) {rule : RouteRule} {d : IpNetwork} {l : ℕ} (t : ℕ)
    {k : KernelState} (hd : RuleOperator.target? rule = some d)
    (hi : env.ifindex rule.routeVia.interface = some l) (h : ApplyAnswered env k rule) :
    ∃ k', RuleOperator.applyRule env.plain rm rule 0 t k = .ok () k' ∧
      (∀ p, p ∈ k'.rules ↔
        env.Passes k.clock ∧ p = ⟨d, t, rule.priority⟩ ∨ p ∈ k.rules) ∧
      ∀ q, q ∈ k'.routes ↔ (env.Passes (k.clock + 2) ∧ ¬ Occupied k t d rule.priority) ∧
        q = ⟨t, d, rule.priority, l⟩ ∨ q ∈ k.routes := by
  obtain ⟨k1, h1, hc1, hroutes1, hrules1⟩ := addPolicyRule_done hl d t rule.priority h.1
  obtain ⟨k2, h2, hrules2, hroutes2⟩ := addRoute_done hl d t rule.priority hi (hc1 ▸ h.2)
  refine ⟨k2, ?_, fun p => ?_, fun q => ?_⟩
  · rw [RuleOperator.applyRule, RuleOperator.getDestination_ok.mpr hd]
    exact (bind_ok h1).trans h2
  · rw [hrules2, hrules1]
  · rw [hroutes2, hroutes1, hc1, occupied_congr hroutes1]

/- The request for the policy rule is answered, and the call stops at the link or at the
route: the policy rule stays. -/
theorem operator_apply_halfway (hl : Live rm) {rule : RouteRule} {d : IpNetwork} (t : ℕ)
    {k : KernelState} (hd : RuleOperator.target? rule = some d)
    (hs : env.Settles isAlreadyExists k.clock)
    (hr : ¬ RouteAdded env rule.routeVia.interface (k.clock + 1)) :
    ∃ err k', RuleOperator.applyRule env.plain rm rule 0 t k = .error err k' ∧
      (∀ p, p ∈ k'.rules ↔
        env.Passes k.clock ∧ p = ⟨d, t, rule.priority⟩ ∨ p ∈ k.rules) ∧
      k'.routes = k.routes := by
  rw [RuleOperator.applyRule, RuleOperator.getDestination_ok.mpr hd]
  obtain ⟨k1, h1, hc1, hroutes1, hrules1⟩ := addPolicyRule_done hl d t rule.priority hs
  obtain ⟨err, k2, h2, hrules2, hroutes2⟩ := addRoute_stopped hl d t rule.priority (hc1 ▸ hr)
  refine ⟨err, k2, (bind_ok h1).trans h2, fun p => ?_, hroutes2.trans hroutes1⟩
  rw [hrules2, hrules1]

theorem operator_apply_stopped (hl : Live rm) {rule : RouteRule} {d : IpNetwork} (t : ℕ)
    {k : KernelState} (hd : RuleOperator.target? rule = some d) (h : ¬ ApplyAnswered env k rule) :
    ∃ err k', RuleOperator.applyRule env.plain rm rule 0 t k = .error err k' ∧
      (∀ p ∈ k.rules, p ∈ k'.rules) ∧ ∀ q ∈ k.routes, q ∈ k'.routes := by
  by_cases hs : env.Settles isAlreadyExists k.clock
  · have hr : ¬ RouteAdded env rule.routeVia.interface (k.clock + 1) := fun hr => h ⟨hs, hr⟩
    obtain ⟨err, k', he, hrules, hroutes⟩ := operator_apply_halfway hl t hd hs hr
    refine ⟨err, k', he, fun p hp => (hrules p).mpr (Or.inr hp), fun q hq => ?_⟩
    rw [hroutes]
    exact hq
  · rw [RuleOperator.applyRule, RuleOperator.getDestination_ok.mpr hd]
    obtain ⟨err, h1⟩ := addPolicyRule_stopped hl d t rule.priority hs
    exact ⟨err, _, bind_error h1, fun _ hp => hp, fun _ hq => hq⟩

/- Every request of `remove_rule` is answered with `Ok` or an error that is tolerated. -/
def RemoveAnswered (env : Env) (k : KernelState) (d : IpNetwork) (t : ℕ) : Prop :=
  env.Settles isNoSuchEntry k.clock ∧ RouteRemoved env k d t (k.clock + 1)

theorem operator_remove_done (hl : Live rm) {rule : RouteRule} {d : IpNetwork} {t : ℕ}
    {k : KernelState} (hd : RuleOperator.target? rule = some d) (ht : t ≤ 255)
    (h : RemoveAnswered env k d t) :
    ∃ k', RuleOperator.removeRule env.plain rm rule t k = .ok () k' ∧
      (∀ p, p ∈ k'.rules ↔
        p ∈ k.rules ∧ ¬ (env.Passes k.clock ∧ p = ⟨d, t, rule.priority⟩)) ∧
      ∀ q, q ∈ k'.routes ↔
        q ∈ k.routes ∧ ¬ (env.Passes (k.clock + 1) ∧ k.pick t d none none = some q) := by
  obtain ⟨k1, h1, hc1, hroutes1, hrules1⟩ := removePolicyRule_done hl d rule.priority ht h.1
  have hpick := pick_congr hroutes1 t d none none
  have hr : RouteRemoved env k1 d t k1.clock := by
    unfold RouteRemoved
    rw [hpick, hc1]
    exact h.2
  obtain ⟨k2, h2, hrules2, hroutes2⟩ := removeRoute_done hl ht hr
  refine ⟨k2, ?_, fun p => ?_, fun q => ?_⟩
  · rw [RuleOperator.removeRule, RuleOperator.getDestination_ok.mpr hd]
    exact (bind_ok h1).trans h2
  · rw [hrules2, hrules1]
  · rw [hroutes2, hroutes1, hc1, hpick]

/- A removal that stops may have deleted the policy rule. -/
theorem operator_remove_stopped (hl : Live rm) {rule : RouteRule} {d : IpNetwork} {t : ℕ}
    {k : KernelState} (hd : RuleOperator.target? rule = some d) (ht : t ≤ 255)
    (h : ¬ RemoveAnswered env k d t) :
    ∃ err k', RuleOperator.removeRule env.plain rm rule t k = .error err k' ∧
      (∀ p, p ∈ k'.rules ↔
        p ∈ k.rules ∧ ¬ (env.Passes k.clock ∧ p = ⟨d, t, rule.priority⟩)) ∧
      k'.routes = k.routes := by
  rw [RuleOperator.removeRule, RuleOperator.getDestination_ok.mpr hd]
  by_cases hs : env.Settles isNoSuchEntry k.clock
  · obtain ⟨k1, h1, hc1, hroutes1, hrules1⟩ := removePolicyRule_done hl d rule.priority ht hs
    have hr : ¬ RouteRemoved env k1 d t k1.clock := by
      unfold RouteRemoved
      rw [pick_congr hroutes1, hc1]
      exact fun hr => h ⟨hs, hr⟩
    obtain ⟨err, k2, h2, hrules2, hroutes2⟩ := removeRoute_stopped hl ht hr
    refine ⟨err, k2, (bind_ok h1).trans h2, fun p => ?_, hroutes2.trans hroutes1⟩
    rw [hrules2, hrules1]
  · obtain ⟨err, h1⟩ := removePolicyRule_stopped hl d rule.priority ht hs
    have hp : ¬ env.Passes k.clock := fun hp => hs (Or.inl hp)
    refine ⟨err, _, bind_error h1, fun p => ?_, rfl⟩
    simp only [hp, false_and, not_false_iff, and_true, KernelState.tick_rules]

/- The policy rule and the route that `apply_rule` installs. -/
def entries (env : Env) (rule : RouteRule) (t : ℕ) : Option (PolicyRule × Route) := do
  let d ← RuleOperator.target? rule
  let l ← env.ifindex rule.routeVia.interface
  return (⟨d, t, rule.priority⟩, ⟨t, d, rule.priority, l⟩)

theorem entries_own {rule : RouteRule} {d : IpNetwork} {l : ℕ} (t : ℕ)
    (hd : RuleOperator.target? rule = some d)
    (hi : env.ifindex rule.routeVia.interface = some l) :
    entries env rule t = some (⟨d, t, rule.priority⟩, ⟨t, d, rule.priority, l⟩) := by
  unfold entries
  rw [hd, hi]
  rfl

theorem entries_spec {rule : RouteRule} {t : ℕ} {x : PolicyRule × Route}
    (h : entries env rule t = some x) :
    ∃ d l, RuleOperator.target? rule = some d ∧ env.ifindex rule.routeVia.interface = some l ∧
      x = (⟨d, t, rule.priority⟩, ⟨t, d, rule.priority, l⟩) := by
  unfold entries at h
  obtain ⟨d, hd, h⟩ := Option.bind_eq_some_iff.mp h
  obtain ⟨l, hl, h⟩ := Option.bind_eq_some_iff.mp h
  cases h
  exact ⟨d, l, hd, hl, rfl⟩

/-! ### The executor -/

variable {s : ExecutorState KernelState}

/- The rule passes its checks, and every request is answered. -/
def ApplyCompletes (env : Env) (k : KernelState) (rule : RouteRule) : Prop :=
  RuleOperator.Installable rule ∧ ApplyAnswered env k rule

theorem apply_done (hl : Live s.executor.routeManager) {rule : RouteRule} {d : IpNetwork} {l : ℕ}
    (t : ℕ) (hd : RuleOperator.target? rule = some d)
    (hi : env.ifindex rule.routeVia.interface = some l) (h : ApplyCompletes env s.kernel rule) :
    ∃ k', after (RuleExecutor.applyRule env.plain rule 0 t) s =
        { executor := s.executor.trackActiveRoute rule.name rule.routeVia.interface t
          kernel := k'
          history := ⟨.applyRule rule t, s.executor, s.kernel, true⟩ :: s.history } ∧
      (∀ p, p ∈ k'.rules ↔
        env.Passes s.kernel.clock ∧ p = ⟨d, t, rule.priority⟩ ∨ p ∈ s.kernel.rules) ∧
      ∀ q, q ∈ k'.routes ↔
        (env.Passes (s.kernel.clock + 2) ∧ ¬ Occupied s.kernel t d rule.priority) ∧
          q = ⟨t, d, rule.priority, l⟩ ∨ q ∈ s.kernel.routes := by
  obtain ⟨k', hk, hrules, hroutes⟩ := operator_apply_done hl t hd hi h.2
  exact ⟨k', after_ok (RuleExecutor.applyRule_ok h.1.1 hk), hrules, hroutes⟩

theorem apply_stopped (hl : Live s.executor.routeManager) {rule : RouteRule} (t : ℕ)
    (h : ¬ ApplyCompletes env s.kernel rule) :
    ∃ k', after (RuleExecutor.applyRule env.plain rule 0 t) s =
        { executor := s.executor
          kernel := k'
          history := ⟨.applyRule rule t, s.executor, s.kernel, false⟩ :: s.history } ∧
      (∀ p ∈ s.kernel.rules, p ∈ k'.rules) ∧ ∀ q ∈ s.kernel.routes, q ∈ k'.routes := by
  cases hv : RuleOperator.validateRule rule with
  | error e =>
    exact ⟨s.kernel, after_error (RuleExecutor.applyRule_invalid env.plain 0 t s hv),
      fun _ hp => hp, fun _ hq => hq⟩
  | ok u =>
    cases hd : RuleOperator.target? rule with
    | none =>
      obtain ⟨e, he⟩ := RuleOperator.applyRule_rejected env.plain s.executor.routeManager rule 0 t
        s.kernel hd
      exact ⟨s.kernel, after_error (RuleExecutor.applyRule_error hv he), fun _ hp => hp,
        fun _ hq => hq⟩
    | some d =>
      have hanswered : ¬ ApplyAnswered env s.kernel rule :=
        fun ha => h ⟨⟨hv, by rw [hd]; rfl⟩, ha⟩
      obtain ⟨e, k', he, hrules, hroutes⟩ := operator_apply_stopped hl t hd hanswered
      exact ⟨k', after_error (RuleExecutor.applyRule_error hv he), hrules, hroutes⟩

theorem remove_done (hl : Live s.executor.routeManager) {rule : RouteRule} {d : IpNetwork} {t : ℕ}
    (hd : RuleOperator.target? rule = some d) (ht : t ≤ 255)
    (h : RemoveAnswered env s.kernel d t) :
    ∃ k', after (RuleExecutor.removeRule env.plain rule t) s =
        { executor := s.executor.untrackActiveRoute rule.name
          kernel := k'
          history := ⟨.removeRule rule t, s.executor, s.kernel, true⟩ :: s.history } ∧
      (∀ p, p ∈ k'.rules ↔ p ∈ s.kernel.rules ∧
        ¬ (env.Passes s.kernel.clock ∧ p = ⟨d, t, rule.priority⟩)) ∧
      ∀ q, q ∈ k'.routes ↔ q ∈ s.kernel.routes ∧
        ¬ (env.Passes (s.kernel.clock + 1) ∧ s.kernel.pick t d none none = some q) := by
  obtain ⟨k', hk, hrules, hroutes⟩ := operator_remove_done hl hd ht h
  exact ⟨k', after_ok (RuleExecutor.removeRule_ok hk), hrules, hroutes⟩

theorem remove_stopped (hl : Live s.executor.routeManager) {rule : RouteRule} {d : IpNetwork}
    {t : ℕ} (hd : RuleOperator.target? rule = some d) (ht : t ≤ 255)
    (h : ¬ RemoveAnswered env s.kernel d t) :
    ∃ k', after (RuleExecutor.removeRule env.plain rule t) s =
        { executor := s.executor
          kernel := k'
          history := ⟨.removeRule rule t, s.executor, s.kernel, false⟩ :: s.history } ∧
      (∀ p, p ∈ k'.rules ↔ p ∈ s.kernel.rules ∧
        ¬ (env.Passes s.kernel.clock ∧ p = ⟨d, t, rule.priority⟩)) ∧
      k'.routes = s.kernel.routes := by
  obtain ⟨e, k', he, hrules, hroutes⟩ := operator_remove_stopped hl hd ht h
  exact ⟨k', after_error (RuleExecutor.removeRule_error he), hrules, hroutes⟩

/- Without a destination, or with a table beyond the header, nothing is sent. -/
theorem remove_rejected (hl : Live s.executor.routeManager) {rule : RouteRule} {t : ℕ}
    (h : ¬ ((RuleOperator.target? rule).isSome ∧ t ≤ 255)) :
    after (RuleExecutor.removeRule env.plain rule t) s =
      { s with history := ⟨.removeRule rule t, s.executor, s.kernel, false⟩ :: s.history } := by
  have hw : ¬ ((RuleOperator.target? rule).isSome ∧ s.executor.routeManager.Withdrawable t) :=
    fun hx => h ⟨hx.1, hx.2.resolve_left hl.not_dry⟩
  obtain ⟨e, he⟩ := RuleOperator.removeRule_rejected env.plain hl.ready rule s.kernel hw
  exact after_error (RuleExecutor.removeRule_error he)

/-! ### Without failures -/

theorem applyCompletes_iff (hq : Quiet env) {k : KernelState} {rule : RouteRule}
    (hlink : RuleOperator.Installable rule → (env.ifindex rule.routeVia.interface).isSome) :
    ApplyCompletes env k rule ↔ RuleOperator.Installable rule := by
  refine ⟨fun h => h.1, fun h => ⟨h, Or.inl (hq _), hq _, hlink h, Or.inl (hq _)⟩⟩

theorem removeAnswered_iff (hq : Quiet env) {k : KernelState} {d : IpNetwork} {t : ℕ} :
    RemoveAnswered env k d t ↔ (k.pick t d none none).isSome := by
  refine ⟨fun h => ?_, fun h => ⟨Or.inl (hq _), Or.inl ⟨hq _, h⟩⟩⟩
  rcases h.2 with ⟨_, hs⟩ | he
  · exact hs
  · exact absurd (hq _) he.not_passes

/-! ### A host with one rule -/

theorem noFault_quiet : Quiet noFault := fun _ => rfl

def lan : IpNetwork := .v4 ⟨0x0a000000, 8, len8_v4⟩
def lanRule : RouteRule := ⟨"lan", .cidr lan, ⟨"eth0"⟩, 100⟩

def lanOnly : Config where
  interfaces := AList.insert "eth0" ⟨.lan, .name "eth0", 100⟩ ∅
  routing := ⟨[lanRule]⟩

def eth0Up : List InterfaceInfo := [{ name := "eth0", interfaceType := .lan, isUp := true }]

/- The daemon has installed its one rule. -/
def lanStarted : System KernelState :=
  Dispatch.perform noFault.plain (Dispatch.launch lanOnly connected .empty)
    (.applyInitialState eth0Up)

end NicAutoswitch.Kernel
