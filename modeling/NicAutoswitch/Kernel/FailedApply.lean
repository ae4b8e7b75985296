import NicAutoswitch.Kernel.Calls

/-!
# What a failed apply leaves behind

`apply_rule` asks for the policy rule first. The link is looked up and the route asked
for afterwards, and where one of these fails nothing is taken back.
-/

namespace NicAutoswitch.Kernel.FailedApply
open Schema Router StateProg Engine

variable {env : Env} {rm : RouteManager} {rule : RouteRule} {d : IpNetwork}

/- Whenever the call returns an error, the policy rules, the routes and the active routes are
as they were. -/
def LeavesNothing (env : Env) (rule : RouteRule) (index t : ℕ) (s : ExecutorState KernelState) :
    Prop :=
  ∀ e s', RuleExecutor.applyRule env.plain rule index t s = .error e s' →
    s'.kernel.rules = s.kernel.rules ∧ s'.kernel.routes = s.kernel.routes ∧
      s'.executor.activeRoutes = s.executor.activeRoutes

/- The first request of the call adds this policy rule: the manager works on the kernel, the
rule passes the checks, the request does not fail, and the entry is new. -/
def AddsPolicyRule (env : Env) (rm : RouteManager) (rule : RouteRule) (t : ℕ) (k : KernelState) :
    Prop :=
  Live rm ∧ RuleOperator.validateRule rule = .ok () ∧ env.Passes k.clock ∧
    ∃ d, RuleOperator.target? rule = some d ∧ ⟨d, t, rule.priority⟩ ∉ k.rules

/-! ### The rule operator -/

theorem applyRule_index (index t : ℕ) :
    RuleOperator.applyRule env.plain rm rule index t =
      RuleOperator.applyRule env.plain rm rule 0 t := rfl

/- A call that fails at the policy rule, or that finds it present, changes nothing when it
fails. -/
theorem operator_clean (hl : Live rm) (hd : RuleOperator.target? rule = some d) (index t : ℕ)
    {k k' : KernelState} {e : NicAutoSwitchError}
    (h : env.Passes k.clock → ⟨d, t, rule.priority⟩ ∉ k.rules →
      RouteAdded env rule.routeVia.interface (k.clock + 1))
    (he : RuleOperator.applyRule env.plain rm rule index t k = .error e k') :
    k'.rules = k.rules ∧ k'.routes = k.routes := by
  rw [applyRule_index] at he
  by_cases ha : ApplyAnswered env k rule
  · obtain ⟨l, hi⟩ := Option.isSome_iff_exists.mp ha.2.2.1
    obtain ⟨k1, hok, _⟩ := operator_apply_done hl t hd hi ha
    rw [hok] at he
    cases he
  rw [RuleOperator.applyRule, RuleOperator.getDestination_ok.mpr hd] at he
  by_cases hs : env.Settles isAlreadyExists k.clock
  · have hr : ¬ RouteAdded env rule.routeVia.interface (k.clock + 1) := fun hr => ha ⟨hs, hr⟩
    -- the request was answered, and it did not add the policy rule
    have hsame : ∃ k1, rm.addPolicyRule env.plain (some d) none t rule.priority k = .ok () k1 ∧
        k1.clock = k.clock + 1 ∧ k1.rules = k.rules ∧ k1.routes = k.routes := by
      by_cases hp : env.Passes k.clock
      · have hm : ⟨d, t, rule.priority⟩ ∈ k.rules := by
          by_contra hn
          exact hr (h hp hn)
        have hadd := addPolicyRule_passes hl d t rule.priority hp
        rw [addRule_present hm] at hadd
        exact ⟨k.tick, hadd, rfl, rfl, rfl⟩
      · exact ⟨k.tick, addPolicyRule_excused hl d t rule.priority (hs.resolve_left hp), rfl, rfl,
          rfl⟩
    obtain ⟨k1, h1, hc1, hrules1, hroutes1⟩ := hsame
    obtain ⟨e', k2, h2, hrules2, hroutes2⟩ := addRoute_stopped hl d t rule.priority (hc1 ▸ hr)
    cases he.symm.trans ((bind_ok h1).trans h2)
    exact ⟨hrules2.trans hrules1, hroutes2.trans hroutes1⟩
  · obtain ⟨e', h1⟩ := addPolicyRule_stopped hl d t rule.priority hs
    cases he.symm.trans (bind_error h1)
    exact ⟨rfl, rfl⟩

/- A manager that sends nothing changes nothing. -/
theorem operator_silent (hl : ¬ Live rm) (hd : RuleOperator.target? rule = some d) (index t : ℕ)
    {k k' : KernelState} {e : NicAutoSwitchError}
    (he : RuleOperator.applyRule env.plain rm rule index t k = .error e k') : k' = k := by
  have hdest := RuleOperator.getDestination_ok.mpr hd
  by_cases hdry : rm.dryRun = true
  · cases he.symm.trans (RuleOperator.applyRule_dry env.plain hdest t k hdry index)
  · have hnone : rm.handle.isNone := by
      cases hh : rm.handle with
      | none => rfl
      | some c => exact absurd ⟨Bool.not_eq_true _ ▸ hdry, by rw [hh]; rfl⟩ hl
    obtain ⟨e', hun⟩ := RuleOperator.applyRule_unconnected env.plain hdest t k hdry hnone index
    cases he.symm.trans hun
    rfl

/-! ### The executor -/

/- A failed call of the executor leaves what the failed call of the operator leaves. -/
theorem applyRule_failed {index t : ℕ} {s s' : ExecutorState KernelState} {e : NicAutoSwitchError}
    (h : RuleExecutor.applyRule env.plain rule index t s = .error e s') :
    s'.executor = s.executor ∧ (s'.kernel = s.kernel ∨
      RuleOperator.validateRule rule = .ok () ∧ ∃ d e', RuleOperator.target? rule = some d ∧
        RuleOperator.applyRule env.plain s.executor.routeManager rule index t s.kernel =
          .error e' s'.kernel) := by
  cases hv : RuleOperator.validateRule rule with
  | error e' =>
    cases h.symm.trans (RuleExecutor.applyRule_invalid env.plain index t s hv)
    exact ⟨rfl, Or.inl rfl⟩
  | ok u =>
    cases hd : RuleOperator.target? rule with
    | none =>
      obtain ⟨e', he⟩ := RuleOperator.applyRule_rejected env.plain s.executor.routeManager rule
        index t s.kernel hd
      cases h.symm.trans (RuleExecutor.applyRule_error hv he)
      exact ⟨rfl, Or.inl rfl⟩
    | some d =>
      cases hk : RuleOperator.applyRule env.plain s.executor.routeManager rule index t s.kernel with
      | ok u k' => cases h.symm.trans (RuleExecutor.applyRule_ok hv hk)
      | error e' k' =>
        cases h.symm.trans (RuleExecutor.applyRule_error hv hk)
        exact ⟨rfl, Or.inr ⟨rfl, d, _, rfl, rfl⟩⟩

/- A failed apply leaves nothing exactly where the call, if its first request adds the policy
rule, finds the link and gets the route. -/
theorem leavesNothing_iff (env : Env) (rule : RouteRule) (index t : ℕ)
    (s : ExecutorState KernelState) :
    LeavesNothing env rule index t s ↔
      (AddsPolicyRule env s.executor.routeManager rule t s.kernel →
        RouteAdded env rule.routeVia.interface (s.kernel.clock + 1)) := by
  apply Iff.intro
  · intro h ⟨hl, hv, hp, d, hd, hn⟩
    by_contra hr
    obtain ⟨e, k', he, hrules, _⟩ := operator_apply_halfway hl t hd (Or.inl hp) hr
    have herr := RuleExecutor.applyRule_error hv ((applyRule_index index t).symm ▸ he)
    have hsame := (h _ _ herr).1
    refine hn ?_
    rw [← hsame]
    exact (hrules _).mpr (Or.inl ⟨hp, rfl⟩)
  · intro h e s' herr
    obtain ⟨hexec, hkernel⟩ := applyRule_failed herr
    rw [hexec]
    rcases hkernel with hk | ⟨hv, d, e', hd, he⟩
    · rw [hk]
      exact ⟨rfl, rfl, rfl⟩
    · by_cases hl : Live s.executor.routeManager
      · obtain ⟨hrules, hroutes⟩ := operator_clean hl hd index t
          (fun hp hn => h ⟨hl, hv, hp, d, hd, hn⟩) he
        exact ⟨hrules, hroutes, rfl⟩
      · rw [operator_silent hl hd index t he]
        exact ⟨rfl, rfl, rfl⟩

/- The rule goes out by a link that the host does not have: its policy rule is added, and
stays. -/
def vpnRule : RouteRule := ⟨"vpn", .cidr lan, ⟨"tun0"⟩, 100⟩

def atStart : ExecutorState KernelState := { executor := .new connected, kernel := .empty }

theorem absent_link_strands_rule : ¬ LeavesNothing noFault vpnRule 0 100 atStart := by
  have hr : ¬ RouteAdded noFault vpnRule.routeVia.interface (KernelState.empty.clock + 1) := by
    rintro ⟨_, hlink, _⟩
    exact absurd hlink (by decide)
  have hd : RuleOperator.target? vpnRule = some lan := rfl
  have hv : RuleOperator.validateRule vpnRule = .ok () := by decide
  obtain ⟨e, k', he, hrules, _⟩ := operator_apply_halfway connected_live 100 hd
    (Or.inl (noFault_quiet _)) hr
  intro h
  have hsame := (h _ _ (RuleExecutor.applyRule_error (s := atStart) hv he)).1
  have hstays : ⟨lan, 100, 100⟩ ∈ k'.rules := (hrules _).mpr (Or.inl ⟨noFault_quiet _, rfl⟩)
  rw [show k'.rules = [] from hsame] at hstays
  cases hstays

end NicAutoswitch.Kernel.FailedApply
