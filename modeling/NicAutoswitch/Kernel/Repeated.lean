import NicAutoswitch.Kernel.LinuxCalls

/-!
# Calls that are made again

Linux, and no request fails of itself. An apply whose policy rule and route the kernel takes
for the ones that it has changes nothing there. A removal deletes a policy rule as long as
its request names one.
-/

namespace NicAutoswitch.Kernel.Repeated
open HashMaps Schema Monitor Router StateProg Engine Transition Linux

variable {env : Env} {rm : RouteManager} {rule : RouteRule} {t : ℕ} {k k' : KernelState}

/- Every entry of the first kernel is one of the second. -/
structure Within (k k' : KernelState) : Prop where
  rules : k.rules ⊆ k'.rules
  routes : k.routes ⊆ k'.routes

/- The same entries. -/
structure SameEntries (k k' : KernelState) : Prop where
  rules : ∀ p, p ∈ k'.rules ↔ p ∈ k.rules
  routes : ∀ r, r ∈ k'.routes ↔ r ∈ k.routes

theorem SameEntries.refl (k : KernelState) : SameEntries k k := ⟨fun _ => Iff.rfl, fun _ => Iff.rfl⟩

theorem SameEntries.trans {k'' : KernelState} (h : SameEntries k k') (h' : SameEntries k' k'') :
    SameEntries k k'' :=
  ⟨fun p => (h'.rules p).trans (h.rules p), fun r => (h'.routes r).trans (h.routes r)⟩

theorem Within.refl (k : KernelState) : Within k k := ⟨fun _ h => h, fun _ h => h⟩

theorem duplicated_mono {rules rules' : List PolicyRule} (h : rules ⊆ rules') {p : PolicyRule}
    (hd : Duplicated rules p) : Duplicated rules' p := by
  obtain ⟨r, hr, hs⟩ := hd
  exact ⟨r, h hr, hs⟩

theorem taken_mono {routes routes' : List Route} (h : routes ⊆ routes') {r : Route}
    (ht : Taken routes r) : Taken routes' r := by
  obtain ⟨r', hr, hs⟩ := ht
  exact ⟨r', h hr, hs⟩

theorem duplicated_rulesWith (p : PolicyRule) (rules : List PolicyRule) :
    Duplicated (rulesWith p rules) p := by
  unfold rulesWith
  split_ifs with h
  · exact h
  · exact ⟨p, List.mem_cons_self, rfl, rfl, rfl, .inr rfl⟩

theorem subset_rulesWith (p : PolicyRule) (rules : List PolicyRule) : rules ⊆ rulesWith p rules := by
  unfold rulesWith
  split_ifs
  · exact List.Subset.refl rules
  · exact List.subset_cons_self p rules

theorem taken_routesWith (r : Route) (routes : List Route) : Taken (routesWith r routes) r := by
  unfold routesWith
  split_ifs with h
  · exact h
  · exact ⟨r, List.mem_cons_self, rfl, rfl, rfl⟩

theorem subset_routesWith (r : Route) (routes : List Route) : routes ⊆ routesWith r routes := by
  unfold routesWith
  split_ifs
  · exact List.Subset.refl routes
  · exact List.subset_cons_self r routes

/-! ### Applying -/

/- The call of `apply_rule` returns Ok: the rule can be installed, and a connected manager finds
the interface and a network that Linux takes for a route. -/
def Succeeds (env : Env) (rm : RouteManager) (rule : RouteRule) : Prop :=
  RuleOperator.Installable rule ∧
    (rm.dryRun = true ∨ rm.handle.isSome ∧ (env.ifindex rule.routeVia.interface).isSome ∧
      ((RuleOperator.target? rule).bind routeNetwork?).isSome)

instance (env : Env) (rm : RouteManager) (rule : RouteRule) : Decidable (Succeeds env rm rule) :=
  inferInstanceAs (Decidable (_ ∧ (_ ∨ _ ∧ _)))

/- What the call asks the kernel for is there: a policy rule, and where one can be added a route,
that Linux takes for the rule's. -/
def Absorbed (env : Env) (rm : RouteManager) (rule : RouteRule) (t : ℕ) (k : KernelState) : Prop :=
  Live rm → RuleOperator.validateRule rule = .ok () → ∀ d, RuleOperator.target? rule = some d →
    Duplicated k.rules (ruleOf d t rule.priority) ∧
      ∀ r, route? env rule d t = some r → Taken k.routes r

theorem absorbed_mono (h : Within k k') (ha : Absorbed env rm rule t k) :
    Absorbed env rm rule t k' := by
  intro hl hv d hd
  obtain ⟨hrule, hroute⟩ := ha hl hv d hd
  exact ⟨duplicated_mono h.rules hrule, fun r hr => taken_mono h.routes (hroute r hr)⟩

/- What a call of `apply_rule` makes of the kernel. -/
structure Adds (env : Env) (rm : RouteManager) (rule : RouteRule) (t : ℕ) (k k' : KernelState) :
    Prop where
  within : Within k k'
  absorbed : Absorbed env rm rule t k'
  same : Absorbed env rm rule t k → SameEntries k k'

/- A call that sends nothing adds nothing. -/
theorem Adds.refl (h : Absorbed env rm rule t k) : Adds env rm rule t k k :=
  ⟨.refl k, h, fun _ => .refl k⟩

theorem route?_isSome {d : IpNetwork} (hd : RuleOperator.target? rule = some d) (t : ℕ) :
    (route? env rule d t).isSome ↔ (env.ifindex rule.routeVia.interface).isSome ∧
      ((RuleOperator.target? rule).bind routeNetwork?).isSome := by
  unfold route? routeOf?
  rw [hd]
  cases env.ifindex rule.routeVia.interface <;> simp

/- The policy rule and the route are added, as far as they are not there. -/
theorem adds_of {d : IpNetwork} (hd : RuleOperator.target? rule = some d)
    (hrules : k'.rules = rulesWith (ruleOf d t rule.priority) k.rules)
    (hroutes : k'.routes = (route? env rule d t).elim k.routes (routesWith · k.routes))
    (hl : Live rm) (hv : RuleOperator.validateRule rule = .ok ()) :
    Adds env rm rule t k k' where
  within := by
    refine ⟨hrules ▸ subset_rulesWith _ _, ?_⟩
    rw [hroutes]
    cases route? env rule d t with
    | none => exact List.Subset.refl _
    | some r => exact subset_routesWith r _
  absorbed := by
    intro _ _ d' hd'
    cases hd.symm.trans hd'
    refine ⟨hrules ▸ duplicated_rulesWith _ _, fun r hr => ?_⟩
    rw [hroutes, hr]
    exact taken_routesWith r _
  same := by
    intro h
    obtain ⟨hrule, hroute⟩ := h hl hv d hd
    refine ⟨fun p => ?_, fun q => ?_⟩
    · rw [hrules, rulesWith, if_pos hrule]
    · rw [hroutes]
      cases hr : route? env rule d t with
      | none => exact Iff.rfl
      | some r =>
        show q ∈ routesWith r k.routes ↔ _
        rw [routesWith, if_pos (hroute r hr)]

/- The outcome of a call of `apply_rule`: it returns as `Succeeds` says. -/
def Applied (env : Env) (rm : RouteManager) (rule : RouteRule) (t : ℕ) (k k' : KernelState) :
    Prop :=
  (Succeeds env rm rule ∧ RuleOperator.applyRule env.linux rm rule 0 t k = .ok () k' ∨
    ¬ Succeeds env rm rule ∧ ∃ e, RuleOperator.applyRule env.linux rm rule 0 t k = .error e k') ∧
    Adds env rm rule t k k'

theorem applied_silent {d : IpNetwork} (hl : ¬ Live rm)
    (hv : RuleOperator.validateRule rule = .ok ()) (hd : RuleOperator.target? rule = some d)
    (t : ℕ) (k : KernelState) : Applied env rm rule t k k := by
  have hdest := RuleOperator.getDestination_ok.mpr hd
  have hadds : Adds env rm rule t k k := .refl fun hx => absurd hx hl
  by_cases hdry : rm.dryRun = true
  · have hs : Succeeds env rm rule := ⟨⟨hv, by rw [hd]; rfl⟩, Or.inl hdry⟩
    exact ⟨Or.inl ⟨hs, RuleOperator.applyRule_dry env.linux hdest t k hdry 0⟩, hadds⟩
  · have hc : ¬ rm.handle.isSome := fun hc => hl ⟨Bool.eq_false_iff.mpr hdry, hc⟩
    have hs : ¬ Succeeds env rm rule := fun hs => hs.2.elim hdry fun hx => hc hx.1
    have hnone : rm.handle.isNone := by
      rw [Option.isNone_iff_eq_none]
      exact Option.not_isSome_iff_eq_none.mp hc
    exact ⟨Or.inr ⟨hs, RuleOperator.applyRule_unconnected env.linux hdest t k hdry hnone 0⟩, hadds⟩

theorem applied_live {d : IpNetwork} (hq : Quiet env) (hl : Live rm)
    (hv : RuleOperator.validateRule rule = .ok ()) (hd : RuleOperator.target? rule = some d)
    (t : ℕ) (k : KernelState) : ∃ k', Applied env rm rule t k k' := by
  obtain ⟨k', hrules, hcase⟩ := operator_apply hq hl t k hd
  have hsucceeds : Succeeds env rm rule ↔ (route? env rule d t).isSome := by
    rw [route?_isSome hd]
    refine ⟨fun h => (h.2.resolve_left hl.not_dry).2, fun h => ?_⟩
    exact ⟨⟨hv, by rw [hd]; rfl⟩, .inr ⟨hl.connected, h⟩⟩
  refine ⟨k', ?_, adds_of hd hrules ?_ hl hv⟩
  · rw [hsucceeds]
    cases hr : route? env rule d t with
    | none =>
      rw [hr] at hcase
      exact .inr ⟨Bool.false_ne_true, hcase.1⟩
    | some r =>
      rw [hr] at hcase
      exact .inl ⟨rfl, hcase.1⟩
  · cases hr : route? env rule d t with
    | none =>
      rw [hr] at hcase
      exact hcase.2
    | some r =>
      rw [hr] at hcase
      exact hcase.2

/- What a call of the executor's `apply_rule` does. -/
theorem apply_outcome (hq : Quiet env) (rule : RouteRule) (t : ℕ) (s : ExecutorState KernelState) :
    ∃ k' ok, after (RuleExecutor.applyRule env.linux rule 0 t) s =
        { executor := if Succeeds env s.executor.routeManager rule then
            s.executor.trackActiveRoute rule.name rule.routeVia.interface t else s.executor
          kernel := k'
          history := ⟨.applyRule rule t, s.executor, s.kernel, ok⟩ :: s.history } ∧
      Adds env s.executor.routeManager rule t s.kernel k' := by
  by_cases hi : RuleOperator.Installable rule
  · obtain ⟨d, hd⟩ := Option.isSome_iff_exists.mp hi.2
    have happlied : ∃ k', Applied env s.executor.routeManager rule t s.kernel k' := by
      by_cases hl : Live s.executor.routeManager
      · exact applied_live hq hl hi.1 hd t s.kernel
      · exact ⟨s.kernel, applied_silent hl hi.1 hd t s.kernel⟩
    obtain ⟨k', ⟨hs, hok⟩ | ⟨hs, e, he⟩, hadds⟩ := happlied
    · refine ⟨k', true, ?_, hadds⟩
      rw [if_pos hs, after_ok (RuleExecutor.applyRule_ok hi.1 hok)]
    · refine ⟨k', false, ?_, hadds⟩
      rw [if_neg hs, after_error (RuleExecutor.applyRule_error hi.1 he)]
  · refine ⟨s.kernel, false, ?_, .refl fun _ hv d hd => absurd ⟨hv, by rw [hd]; rfl⟩ hi⟩
    rw [if_neg (fun hs => hi hs.1)]
    cases hv : RuleOperator.validateRule rule with
    | error e => rw [after_error (RuleExecutor.applyRule_invalid env.linux 0 t s hv)]
    | ok u =>
      have hd : RuleOperator.target? rule = none := by
        cases hd : RuleOperator.target? rule with
        | none => rfl
        | some d => exact absurd ⟨hv, by rw [hd]; rfl⟩ hi
      obtain ⟨e, he⟩ := RuleOperator.applyRule_rejected env.linux s.executor.routeManager rule 0 t
        s.kernel hd
      rw [after_error (RuleExecutor.applyRule_error hv he)]

/-! ### Removing -/

/- For a rule without a network nothing is sent. -/
theorem remove_targetless (env : Env) {rule : RouteRule} (hd : RuleOperator.target? rule = none)
    (t : ℕ) (s : ExecutorState KernelState) :
    after (RuleExecutor.removeRule env.linux rule t) s =
      { s with history := ⟨.removeRule rule t, s.executor, s.kernel, false⟩ :: s.history } := by
  obtain ⟨e, he⟩ := RuleOperator.removeRule_targetless env.linux s.executor.routeManager rule t
    s.kernel hd
  exact after_error (RuleExecutor.removeRule_error he)

/- A manager that is neither dry-running nor connected fails without sending anything. -/
theorem remove_unconnected {s : ExecutorState KernelState}
    (hw : ¬ s.executor.routeManager.dryRun = true) (hl : ¬ Live s.executor.routeManager)
    (env : Env) (rule : RouteRule) (t : ℕ) :
    after (RuleExecutor.removeRule env.linux rule t) s =
      { s with history := ⟨.removeRule rule t, s.executor, s.kernel, false⟩ :: s.history } := by
  have hc : ¬ s.executor.routeManager.handle.isSome := fun hc => hl ⟨Bool.eq_false_iff.mpr hw, hc⟩
  have hn : s.executor.routeManager.handle.isNone := by
    rw [Option.isNone_iff_eq_none]
    exact Option.not_isSome_iff_eq_none.mp hc
  cases hd : RuleOperator.target? rule with
  | none => exact remove_targetless env hd t s
  | some d =>
    obtain ⟨e, he⟩ := RuleOperator.removeRule_unconnected env.linux
      (RuleOperator.getDestination_ok.mpr hd) t s.kernel hw hn
    exact after_error (RuleExecutor.removeRule_error he)

theorem remove_dry {s : ExecutorState KernelState} (hw : s.executor.routeManager.dryRun = true)
    (env : Env) (rule : RouteRule) (t : ℕ) :
    after (RuleExecutor.removeRule env.linux rule t) s =
      { s with
        executor := if (RuleOperator.target? rule).isSome then
          s.executor.untrackActiveRoute rule.name else s.executor
        history := ⟨.removeRule rule t, s.executor, s.kernel,
          (RuleOperator.target? rule).isSome⟩ :: s.history } := by
  cases hd : RuleOperator.target? rule with
  | none => exact remove_targetless env hd t s
  | some d =>
    exact after_ok (RuleExecutor.removeRule_ok (RuleOperator.removeRule_dry env.linux
      (RuleOperator.getDestination_ok.mpr hd) t s.kernel hw))

/- What a call of the executor's `remove_rule` does: a dry run untracks the rule, a connection
deletes the policy rule that the request names. -/
theorem remove_outcome (hq : Quiet env) (rule : RouteRule) (t : ℕ)
    (s : ExecutorState KernelState) :
    ∃ k' ok, after (RuleExecutor.removeRule env.linux rule t) s =
        { executor := if s.executor.routeManager.dryRun = true ∧
              (RuleOperator.target? rule).isSome then
            s.executor.untrackActiveRoute rule.name else s.executor
          kernel := k'
          history := ⟨.removeRule rule t, s.executor, s.kernel, ok⟩ :: s.history } ∧
      k'.rules = (if Live s.executor.routeManager then leftBy rule t s.kernel.rules
        else s.kernel.rules) ∧ k'.routes = s.kernel.routes := by
  by_cases hw : s.executor.routeManager.dryRun = true
  · rw [if_neg fun hl : Live _ => hl.not_dry hw, remove_dry hw]
    simp only [hw, true_and]
    exact ⟨_, _, rfl, rfl, rfl⟩
  · rw [if_neg fun h => hw h.1]
    by_cases hl : Live s.executor.routeManager
    · obtain ⟨err, k', he, hrules, hroutes⟩ := remove_quiet hq hl rule t
      exact ⟨k', false, after_error he, by rw [if_pos hl, hrules], hroutes⟩
    · exact ⟨s.kernel, false, remove_unconnected hw hl env rule t, by rw [if_neg hl], rfl⟩

end NicAutoswitch.Kernel.Repeated
