import NicAutoswitch.Kernel.LiveRemoval

/-!
# Rules that share a table

Two rules may be installed in one table for one destination, their routes told apart by
the metric. A removal of one that returns has sent nothing; an apply that returns may have
found the place of its route taken.
-/

namespace NicAutoswitch.Kernel.SharedTable
open HashMaps Schema Router StateProg Engine

variable {env : Env} {s s' : ExecutorState KernelState}

/-! ### Calls that return -/

theorem applyRule_completes (hl : Live s.executor.routeManager) {rule : RouteRule} {index t : ℕ}
    (hok : RuleExecutor.applyRule env.plain rule index t s = .ok () s') :
    ApplyCompletes env s.kernel rule := by
  by_contra hc
  obtain ⟨k', he, _⟩ := apply_stopped hl t hc
  obtain ⟨older, hh⟩ := recorded_returned hok
  have hs : after (RuleExecutor.applyRule env.plain rule 0 t) s = s' := after_ok hok
  rw [← hs, he] at hh
  cases hh

/-! ### Removing one of two rules -/

open Linux (ruleOf route? remove_fails quiet_steady)

/- The rule is active with the table, and the kernel holds what Linux keeps of its policy rule
and of its route. -/
structure InstalledAs (env : Env) (s : ExecutorState KernelState) (rule : RouteRule) (t : ℕ)
    (p : PolicyRule) (q : Route) : Prop where
  active : s.executor.activeRoutes.lookup rule.name = some (entryOf t rule)
  own : ∃ d, RuleOperator.target? rule = some d ∧ p = ruleOf d t rule.priority ∧
    route? env rule d t = some q
  rule_mem : p ∈ s.kernel.rules
  route_mem : q ∈ s.kernel.routes

/- The other rule's entries stay. -/
def Spares (k : KernelState) (p2 : PolicyRule) (q2 : Route) : Prop := p2 ∈ k.rules ∧ q2 ∈ k.routes

def viaEth0 : RouteRule := ⟨"primary", .cidr lan, ⟨"eth0"⟩, 100⟩
def viaWlan0 : RouteRule := ⟨"backup", .cidr lan, ⟨"wlan0"⟩, 200⟩

/- One destination, out of eth0 and with a higher metric out of wlan0. -/
def failover : Config := { lanOnly with routing := ⟨[viaEth0, viaWlan0]⟩ }

/- Both rules are installed in the table of eth0. -/
def bothInstalled : System KernelState :=
  Dispatch.perform noFault.linux (Dispatch.launch failover connected .empty)
    (.applyInitialState eth0Up)

/- A dry run that is started on the kernel that the daemon leaves. -/
def dryAfter : System KernelState :=
  Dispatch.perform noFault.linux (Dispatch.launch failover .default bothInstalled.kernel)
    (.applyInitialState eth0Up)

theorem primary_installed :
    InstalledAs noFault dryAfter.execState viaEth0 100 ⟨lan, 100, 100⟩ ⟨100, lan, 100, 2⟩ :=
  ⟨by decide +kernel, ⟨lan, rfl, rfl, rfl⟩, by decide +kernel, by decide +kernel⟩

theorem backup_installed :
    InstalledAs noFault dryAfter.execState viaWlan0 100 ⟨lan, 100, 200⟩ ⟨100, lan, 200, 3⟩ :=
  ⟨by decide +kernel, ⟨lan, rfl, rfl, rfl⟩, by decide +kernel, by decide +kernel⟩

/- The table has the route of the rule, out of the rule's interface, and the policy rule
that leads to it. -/
def LeadsOut (env : Env) (k : KernelState) (rule : RouteRule) (d : IpNetwork) (t : ℕ) : Prop :=
  (∃ l, env.ifindex rule.routeVia.interface = some l ∧ ⟨t, d, rule.priority, l⟩ ∈ k.routes) ∧
    ⟨d, t, rule.priority⟩ ∈ k.rules

/- Before the call: no other route of the metric is in the way, or the rule's own is there;
and an entry is found in place where a request is answered with EEXIST. -/
def Unoccupied (env : Env) (k : KernelState) (rule : RouteRule) (d : IpNetwork) (t : ℕ) : Prop :=
  (env.Passes (k.clock + 2) ∧ ¬ Occupied k t d rule.priority ∨
      ∃ l, env.ifindex rule.routeVia.interface = some l ∧ ⟨t, d, rule.priority, l⟩ ∈ k.routes) ∧
    (env.Passes k.clock ∨ ⟨d, t, rule.priority⟩ ∈ k.rules)

/- A call of `apply_rule` that returns has installed its rule exactly where no route out of
another interface was in the way. -/
theorem apply_leads_out_iff (env : Env) (s s' : ExecutorState KernelState)
    (hl : Live s.executor.routeManager) (rule : RouteRule) (d : IpNetwork) (index t : ℕ)
    (hd : RuleOperator.target? rule = some d)
    (hok : RuleExecutor.applyRule env.plain rule index t s = .ok () s') :
    LeadsOut env s'.kernel rule d t ↔ Unoccupied env s.kernel rule d t := by
  have hc := applyRule_completes hl hok
  obtain ⟨l, hi⟩ := Option.isSome_iff_exists.mp hc.2.2.2.1
  obtain ⟨k', hs, hrules, hroutes⟩ := apply_done hl t hd hi hc
  have hafter : after (RuleExecutor.applyRule env.plain rule 0 t) s = s' := after_ok hok
  have hkernel : s'.kernel = k' := by
    rw [← hafter, hs]
  have hlink : ∀ l', env.ifindex rule.routeVia.interface = some l' ↔ l' = l := by
    intro l'
    rw [hi, Option.some_inj, eq_comm]
  unfold LeadsOut Unoccupied
  simp only [hkernel, hrules, hroutes, hlink, exists_eq_left, and_true]

/- The destination already has a route of the metric, out of wlan0. -/
def taken : ExecutorState KernelState where
  executor := .new connected
  kernel := { KernelState.empty with routes := [⟨100, lan, 100, 3⟩], routes_nodup := by decide }

theorem lanRule_returns :
    ∃ s', RuleExecutor.applyRule noFault.plain lanRule 0 100 taken = .ok () s' := by
  have hanswered : ApplyAnswered noFault taken.kernel lanRule :=
    ⟨Or.inl (noFault_quiet _), noFault_quiet _, rfl, Or.inl (noFault_quiet _)⟩
  obtain ⟨k', hk, _⟩ := operator_apply_done connected_live (d := lan) (l := 2) 100 rfl rfl hanswered
  exact ⟨_, RuleExecutor.applyRule_ok (s := taken) rfl hk⟩

theorem apply_leads_out_iff_taken :
    ∃ s', RuleExecutor.applyRule noFault.plain lanRule 0 100 taken = .ok () s' ∧
      (LeadsOut noFault s'.kernel lanRule lan 100 ↔
        Unoccupied noFault taken.kernel lanRule lan 100) := by
  obtain ⟨s', hok⟩ := lanRule_returns
  exact ⟨s', hok, apply_leads_out_iff noFault taken s' connected_live lanRule lan 0 100 rfl hok⟩

/- The call returns Ok, and the traffic still goes out of wlan0. -/
theorem lan_still_via_wlan0 :
    ¬ ∀ s', RuleExecutor.applyRule noFault.plain lanRule 0 100 taken = .ok () s' →
      LeadsOut noFault s'.kernel lanRule lan 100 := by
  intro h
  obtain ⟨s', hok⟩ := lanRule_returns
  obtain ⟨⟨l, hi, hm⟩, _⟩ := h s' hok
  have hroutes : (after (RuleExecutor.applyRule noFault.plain lanRule 0 100) taken).kernel.routes =
    [⟨100, lan, 100, 3⟩] := by decide
  rw [after_ok hok] at hroutes
  rw [hroutes] at hm
  cases hi
  exact absurd hm (by decide)

end NicAutoswitch.Kernel.SharedTable
