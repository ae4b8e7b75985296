import NicAutoswitch.Kernel.LinuxCalls
import NicAutoswitch.Kernel.Removal

/-!
# Removing what the kernel has already dropped

Linux tolerates the delete of an absent policy rule as the daemon does, and answers that of
a route, which names no family, with EOPNOTSUPP whether or not the route is there. Only a
dry run removes a rule.
-/

namespace NicAutoswitch.Kernel.LiveRemoval
open HashMaps Schema Monitor Router StateProg Engine Transition Removal Linux

variable {env : Env}

/- Neither what Linux keeps of the policy rule nor what it keeps of the route is there. -/
def Gone (env : Env) (k : KernelState) (rule : RouteRule) (d : IpNetwork) (t : ℕ) : Prop :=
  ruleOf d t rule.priority ∉ k.rules ∧ ∀ r, route? env rule d t = some r → r ∉ k.routes

/- The removal returns Ok, leaves neither entry of the rule, and untracks it. -/
def Removes (env : Env) (s : ExecutorState KernelState) (rule : RouteRule) (d : IpNetwork)
    (t : ℕ) : Prop :=
  ∃ s', RuleExecutor.removeRule env.linux rule t s = .ok () s' ∧ Gone env s'.kernel rule d t ∧
    s'.executor.activeRoutes.lookup rule.name = none

theorem removes_iff (hs : Steady env) {s : ExecutorState KernelState} {rule : RouteRule}
    {d : IpNetwork} (t : ℕ) (hd : RuleOperator.target? rule = some d) :
    Removes env s rule d t ↔
      s.executor.routeManager.dryRun = true ∧ Gone env s.kernel rule d t := by
  apply Iff.intro
  · rintro ⟨s', hok, hgone, _⟩
    by_cases hw : s.executor.routeManager.dryRun = true
    · have hdry := RuleOperator.removeRule_dry env.linux (RuleOperator.getDestination_ok.mpr hd) t
        s.kernel hw
      rw [RuleExecutor.removeRule_ok hdry] at hok
      cases hok
      exact ⟨hw, hgone⟩
    · obtain ⟨err, k', he⟩ := remove_fails hs hw rule t
      rw [he] at hok
      cases hok
  · rintro ⟨hw, hgone⟩
    have hdry := RuleOperator.removeRule_dry env.linux (RuleOperator.getDestination_ok.mpr hd) t
      s.kernel hw
    exact ⟨_, RuleExecutor.removeRule_ok hdry, hgone, AList.lookup_erase _ _⟩

/-! ### A link that goes down -/

/- The kernel drops the routes going out of the link. -/
def linkDown (k : KernelState) (i : ℕ) : KernelState :=
  { k with
    routes := k.routes.filter fun r => r.oif ≠ i
    routes_nodup := k.routes_nodup.filter _ }

/- Outside dry-run mode the loop leaves the dispatcher as it was. -/
theorem removeLoop_dispatcher (hs : Steady env) {rules : HashMap String RouteRule}
    (todo : List (String × ℕ)) {s : System KernelState}
    (hw : ¬ s.dispatcher.executor.routeManager.dryRun = true) :
    (run (removeOne env.linux rules) s todo).dispatcher = s.dispatcher := by
  refine run_preserves (removeOne env.linux rules)
    (fun s' : System KernelState => s'.dispatcher = s.dispatcher) (fun s' e h => ?_) s todo rfl
  rw [← h]
  unfold removeOne
  cases rules.lookup e.1 with
  | none => rfl
  | some rule =>
    have hw' : ¬ s'.execState.executor.routeManager.dryRun = true := by
      show ¬ s'.dispatcher.executor.routeManager.dryRun = true
      rw [h]
      exact hw
    obtain ⟨err, k', he⟩ := remove_fails hs hw' rule e.2
    simp only [after_error he]
    rfl

/- The event leaves no active route via the interface exactly in a dry run, or where there has
been none. -/
theorem noneVia_down_iff (hs : Steady env) (order : RouteOrder) (i : String)
    {s : System KernelState} (hr : s.dispatcher.state = .running)
    (hknown : ∀ n a, s.dispatcher.activeRoute n = some a → a.interface = i →
      (destination? (EventDispatcher.rulesMap s.dispatcher.config) n).isSome) :
    NoneVia i (Dispatch.perform env.linux s
        (.handleEvent order (.interfaceChanged i .down))).dispatcher ↔
      s.dispatcher.executor.routeManager.dryRun = true ∨ NoneVia i s.dispatcher := by
  by_cases hw : s.dispatcher.executor.routeManager.dryRun = true
  · refine iff_of_true (fun n a ha hi => ?_) (.inl hw)
    have hserved : s.dispatcher.executor.routeManager.Served env.linux := .inl hw
    have hgranted := perform_served s (.handleEvent order (.interfaceChanged i .down)) hserved
    rw [hgranted, EventDispatcher.granted, EventDispatcher.grantedEvent_running hr] at ha
    obtain ⟨hold, hkept⟩ := (EventDispatcher.activeRoute_grantedDown _ order i n a).mp ha
    obtain ⟨d, hd⟩ := Option.isSome_iff_exists.mp (hknown n a hold hi)
    obtain ⟨rule, hrule, htarget⟩ := Option.bind_eq_some_iff.mp hd
    exact hkept ⟨hi, rule, hrule, by rw [htarget]; rfl, .inl hw⟩
  · rw [perform_lost order i (.inl rfl) hr, or_iff_right hw,
      removeLoop_dispatcher hs _ (s := observed (.interfaceChanged i .down) s) hw]
    rfl

/- A removal goes through in a dry run alone, and leaves neither entry where neither has been
there; and a Down event clears the interface in a dry run alone. -/
theorem removal_iff_dry (env : Env) (hq : Quiet env) (s : System KernelState) :
    (∀ rule d t, RuleOperator.target? rule = some d →
        (Removes env s.execState rule d t ↔
          s.dispatcher.executor.routeManager.dryRun = true ∧ Gone env s.kernel rule d t)) ∧
      ∀ order i l, s.dispatcher.state = .running → env.ifindex i = some l →
        (∀ n a, s.dispatcher.activeRoute n = some a → a.interface = i →
          (destination? (EventDispatcher.rulesMap s.dispatcher.config) n).isSome) →
        (NoneVia i (Dispatch.perform env.linux { s with kernel := linkDown s.kernel l }
            (.handleEvent order (.interfaceChanged i .down))).dispatcher ↔
          s.dispatcher.executor.routeManager.dryRun = true ∨ NoneVia i s.dispatcher) := by
  refine ⟨fun rule d t hd => removes_iff (quiet_steady hq) t hd, ?_⟩
  intro order i l hr _ hknown
  exact noneVia_down_iff (quiet_steady hq) order i (s := { s with kernel := linkDown s.kernel l })
    hr hknown

/-! ### The only route of a rule is gone -/

/- The daemon has installed its one rule on Linux. -/
def lanUp : System KernelState :=
  Dispatch.perform noFault.linux (Dispatch.launch lanOnly connected .empty)
    (.applyInitialState eth0Up)

theorem lanUp_active {n : String} {a : ActiveRoute}
    (h : lanUp.dispatcher.activeRoute n = some a) : n = "lan" ∧ a = ⟨"lan", "eth0", 100⟩ := by
  have hentries : lanUp.dispatcher.executor.activeRoutes.entries =
    [⟨"lan", ⟨"lan", "eth0", 100⟩⟩] := by decide
  have hm := (mem_entries_iff _ n a).mpr h
  rw [hentries, List.mem_singleton] at hm
  cases hm
  exact ⟨rfl, rfl⟩

theorem removal_iff_dry_lan :
    (Removes noFault lanUp.execState lanRule lan 100 ↔
        lanUp.dispatcher.executor.routeManager.dryRun = true ∧
          Gone noFault lanUp.kernel lanRule lan 100) ∧
      (NoneVia "eth0" (Dispatch.perform noFault.linux
          { lanUp with kernel := linkDown lanUp.kernel 2 }
          (.handleEvent .asListed (.interfaceChanged "eth0" .down))).dispatcher ↔
        lanUp.dispatcher.executor.routeManager.dryRun = true ∨
          NoneVia "eth0" lanUp.dispatcher) := by
  have hiff := removal_iff_dry noFault noFault_quiet lanUp
  refine ⟨hiff.1 lanRule lan 100 rfl, hiff.2 .asListed "eth0" 2 (by decide) rfl ?_⟩
  intro n a ha _
  obtain ⟨rfl, _⟩ := lanUp_active ha
  decide

/- The link goes down: its route is gone, removing the rule fails, and the entry stays. -/
theorem lan_rule_not_removed :
    lanUp.dispatcher.activeRoute "lan" = some ⟨"lan", "eth0", 100⟩ ∧
      ¬ Removes noFault { lanUp.execState with kernel := linkDown lanUp.kernel 2 }
        lanRule lan 100 ∧
      ¬ NoneVia "eth0" (Dispatch.perform noFault.linux
        { lanUp with kernel := linkDown lanUp.kernel 2 }
        (.handleEvent .asListed (.interfaceChanged "eth0" .down))).dispatcher := by
  refine ⟨by decide, fun h => ?_, fun h => ?_⟩
  · have hdry := ((removes_iff (quiet_steady noFault_quiet) 100 rfl).mp h).1
    exact absurd hdry (by decide)
  · exact h "lan" ⟨"lan", "eth0", 100⟩ (by decide) rfl

end NicAutoswitch.Kernel.LiveRemoval
