import NicAutoswitch.Kernel.Provenance
import NicAutoswitch.Engine.TaskAlone
import NicAutoswitch.Engine.TaskSteps
import NicAutoswitch.Kernel.LiveRemoval

/-!
# What is withdrawn while the daemon runs

Between the startup and the end no event and no reload takes a route out of the kernel or a
rule from the active ones. Policy rules are deleted, and as the default rules that have lost
theirs are still active, they are not applied again.
-/

namespace NicAutoswitch.Kernel.Withdrawal
open HashMaps Schema Monitor Router StateProg Engine Transition Linux Footprint
open Engine.Tasks (Work called performed readied eventWork reactWork defaultsWork rulesWork
  downWork handleEvent_performed event_readied eventWork_rec)

/-! ### Where the work of a handler comes from -/

def ProfileRule (config : Config) (rule : RouteRule) : Prop :=
  ∃ ssid profile, config.wifiProfiles.lookup ssid = some profile ∧ rule ∈ profile.rules

/- What is applied as a default rule is one, and what is applied for a network is a rule of a
profile. -/
def Sourced (config : Config) : Work → Prop
  | .applyDefault rule _ => rule ∈ config.routing.defaultRules
  | .applyProfile rule _ => ProfileRule config rule
  | .remove _ _ => True

theorem defaultsWork_sourced (i : String) (d : EventDispatcher) :
    ∀ w ∈ (defaultsWork i d).1, Sourced d.config w := by
  simp only [defaultsWork]
  split_ifs
  · exact fun _ hw => absurd hw List.not_mem_nil
  · intro w hw
    obtain ⟨rule, hr, rfl⟩ := List.mem_map.mp hw
    exact hr

theorem rulesWork_sourced (i : String) (ssid : Option String) (d : EventDispatcher) :
    ∀ w ∈ (rulesWork i ssid d).1, Sourced d.config w := by
  cases hp : ssid.bind d.config.wifiProfiles.lookup with
  | none =>
    simp only [rulesWork, hp]
    exact defaultsWork_sourced i d
  | some profile =>
    obtain ⟨name, _, hname⟩ := Option.bind_eq_some_iff.mp hp
    simp only [rulesWork, hp]
    intro w hw
    obtain ⟨rule, hr, rfl⟩ := List.mem_map.mp hw
    exact ⟨name, profile, hname, hr⟩

theorem downWork_sourced (order : RouteOrder) (i : String) (d : EventDispatcher) :
    ∀ w ∈ (downWork order i d).1, Sourced d.config w := by
  intro w hw
  obtain ⟨entry, _, hmap⟩ := List.mem_filterMap.mp hw
  obtain ⟨rule, _, rfl⟩ := Option.map_eq_some_iff.mp hmap
  trivial

theorem eventWork_sourced (order : RouteOrder) (event : NetworkEvent) (d : EventDispatcher) :
    ∀ w ∈ (eventWork order event d).1, Sourced d.config w := by
  apply eventWork_rec (P := fun x => ∀ w ∈ x.1, Sourced d.config w) order event d
  · exact fun d' _ w hw => absurd hw List.not_mem_nil
  · intro i d' _ hd
    rw [← hd.config]
    exact defaultsWork_sourced i d'
  · intro i ssid d' _ hd
    rw [← hd.config]
    exact rulesWork_sourced i ssid d'
  · intro i d' hd
    rw [← hd.config]
    exact downWork_sourced order i d'

/-! ### What stays -/

/- A policy rule that a rule of a profile, or a default rule that is not among the active ones,
asks for. -/
def Renewable (C : Config → Prop) (active : HashMap String ActiveRoute) (p : PolicyRule) : Prop :=
  ∃ config rule d t, C config ∧ RuleOperator.target? rule = some d ∧ p = ruleOf d t rule.priority ∧
    (ProfileRule config rule ∨ rule ∈ config.routing.defaultRules ∧ rule.name ∉ active)

/- What was active is, what the kernel had for a route it has, and what policy rules it has it
had, but for those that may be asked for again. -/
structure Retained (C : Config → Prop) (s s' : System KernelState) : Prop where
  config : C s'.dispatcher.config
  manager : s'.dispatcher.executor.routeManager = s.dispatcher.executor.routeManager
  active : ∀ n, n ∈ s.dispatcher.executor.activeRoutes → n ∈ s'.dispatcher.executor.activeRoutes
  routes : ∀ q ∈ s.kernel.routes, q ∈ s'.kernel.routes
  rules : ∀ p ∈ s'.kernel.rules,
    p ∈ s.kernel.rules ∨ Renewable C s.dispatcher.executor.activeRoutes p

variable {env : Env} {C : Config → Prop} {s s' : System KernelState} {f : Footprint}

theorem keeps_routes_of {l : List Route} (h : ∀ q, ¬ f.dropRoute q) :
    Keeps f fun k => ∀ q ∈ l, q ∈ k.routes where
  tick _ hk := hk
  addRule k p _ hk := by
    rw [KernelState.addRule_routes]
    exact hk
  dropRule _ _ _ hk := hk
  addRoute k q _ hk q' hq' := (KernelState.mem_addRoute k q q').mpr (.inr (hk q' hq'))
  dropRoute _ q hq := absurd hq (h q)

/- A call that deletes no route, and adds policy rules that may be asked for again alone. -/
theorem Retained.call (h : Retained C s s') {call : ExecutorCall} {e : ExecutorState KernelState}
    (hc : CallKeeps env s'.execState e call)
    (hactive : ∀ n, n ∈ s'.dispatcher.executor.activeRoutes → n ∈ e.executor.activeRoutes)
    (hdrop : ∀ q, ¬ (ofCall env s'.dispatcher.executor.routeManager call).dropRoute q)
    (hadd : ∀ p, (ofCall env s'.dispatcher.executor.routeManager call).addRule p →
      Renewable C s.dispatcher.executor.activeRoutes p) :
    Retained C s (System.withExec e s') where
  config := h.config
  manager := hc.manager.trans h.manager
  active n hn := hactive n (h.active n hn)
  routes := hc.kernel _ (keeps_routes_of hdrop) h.routes
  rules := hc.kernel _ (Provenance.keeps_rules_from fun p hp => .inr (hadd p hp)) h.rules

theorem Retained.applied (h : Retained C s s') (t : ℕ) {rule : RouteRule} {config : Config}
    (hc : C config) (hr : ProfileRule config rule ∨ rule ∈ config.routing.defaultRules ∧
      rule.name ∉ s.dispatcher.executor.activeRoutes) :
    Retained C s (applied env.linux t s' rule) := by
  refine h.call (callKeeps_apply env rule t s'.execState) (fun n hn => ?_) (fun _ => id) ?_
  · obtain ⟨e, k, ok, he, hexec⟩ := applyRule_cases env.linux rule t s'.execState
    rw [he]
    rcases hexec with rfl | rfl
    · exact hn
    · exact (AList.mem_insert _).mpr (.inr hn)
  · rintro p ⟨d, hd, rfl⟩
    exact ⟨config, rule, d, t, hc, hd, rfl, hr⟩

theorem Retained.removed (hs : Steady env)
    (hw : ¬ s.dispatcher.executor.routeManager.dryRun = true) (h : Retained C s s')
    (rule : RouteRule) (t : ℕ) :
    Retained C s (System.withExec (after (RuleExecutor.removeRule env.linux rule t) s'.execState)
      s') := by
  refine h.call (callKeeps_remove env rule t s'.execState) (fun n hn => ?_) (fun _ => id)
    fun _ hp => hp.elim
  have hw' : ¬ s'.execState.executor.routeManager.dryRun = true := by
    show ¬ s'.dispatcher.executor.routeManager.dryRun = true
    rw [h.manager]
    exact hw
  obtain ⟨err, k, he⟩ := remove_fails hs hw' rule t
  rw [after_error he]
  exact hn

theorem Retained.performed (hs : Steady env)
    (hw : ¬ s.dispatcher.executor.routeManager.dryRun = true) (h : Retained C s s') {w : Work}
    (hsource : Sourced s'.dispatcher.config w) :
    Retained C s (performed env.linux s' w) := by
  unfold Tasks.performed
  split_ifs with hskip
  · exact h
  · cases w with
    | applyDefault rule t =>
      -- a default rule is applied only where it is not active, and so has not been before
      have hinactive : rule.name ∉ s'.dispatcher.executor.activeRoutes := by
        intro hn
        refine hskip ?_
        show s'.dispatcher.executor.isRouteActive rule.name = true
        unfold RuleExecutor.isRouteActive
        exact decide_eq_true hn
      exact h.applied t h.config (.inr ⟨hsource, fun hn => hinactive (h.active _ hn)⟩)
    | applyProfile rule t => exact h.applied t h.config (.inl hsource)
    | remove rule t => exact h.removed hs hw rule t

theorem Retained.handleEvent (hs : Steady env)
    (hw : ¬ s.dispatcher.executor.routeManager.dryRun = true) (h : Retained C s s')
    (order : RouteOrder) (event : NetworkEvent) :
    Retained C s (Dispatch.perform env.linux s' (.handleEvent order event)) := by
  show Retained C s (after (Dispatch.handleEvent env.linux order event) s')
  rw [handleEvent_performed]
  have hready := event_readied order event s'.dispatcher
  have hstart : Retained C s (readied s' (eventWork order event s'.dispatcher)) ∧
      (readied s' (eventWork order event s'.dispatcher)).dispatcher.config =
        s'.dispatcher.config := by
    refine ⟨⟨?_, ?_, ?_, h.routes, h.rules⟩, hready.config⟩
    · exact hready.config ▸ h.config
    · exact (congrArg RuleExecutor.routeManager hready.executor).trans h.manager
    · show ∀ n, _ → n ∈ (eventWork order event s'.dispatcher).2.executor.activeRoutes
      rw [hready.executor]
      exact h.active
  refine (run_invariant (Tasks.performed env.linux)
    (fun x => Retained C s x ∧ x.dispatcher.config = s'.dispatcher.config)
    (Sourced s'.dispatcher.config) (fun x w hsource hx => ?_) _ _
    (eventWork_sourced order event s'.dispatcher) hstart).1
  refine ⟨hx.1.performed hs hw (hx.2.symm ▸ hsource), (?_ : _ = _).trans hx.2⟩
  unfold Tasks.performed
  split_ifs
  · rfl
  · cases w <;> rfl

/-! ### Runs -/

/- The operation is neither the startup nor the end, and puts a configuration in force that
meets `C`. -/
def Ongoing (C : Config → Prop) : Dispatch.Op → Prop
  | .start => True
  | .stop => False
  | .applyInitialState _ => False
  | .handleEvent _ _ => True
  | .updateConfig config => C config

theorem Retained.perform (hs : Steady env)
    (hw : ¬ s.dispatcher.executor.routeManager.dryRun = true) (h : Retained C s s')
    {op : Dispatch.Op} (hop : Ongoing C op) :
    Retained C s (Dispatch.perform env.linux s' op) := by
  cases op with
  | start =>
    have hsame : s'.dispatcher.start.config = s'.dispatcher.config ∧
        s'.dispatcher.start.executor = s'.dispatcher.executor := by
      unfold EventDispatcher.start
      split_ifs <;> exact ⟨rfl, rfl⟩
    refine ⟨hsame.1.symm ▸ h.config, ?_, ?_, h.routes, h.rules⟩
    · exact (congrArg RuleExecutor.routeManager hsame.2).trans h.manager
    · show ∀ n, _ → n ∈ s'.dispatcher.start.executor.activeRoutes
      rw [hsame.2]
      exact h.active
  | stop => exact hop.elim
  | applyInitialState interfaces => exact hop.elim
  | handleEvent order event => exact h.handleEvent hs hw order event
  | updateConfig config => exact ⟨hop, h.manager, h.active, h.routes, h.rules⟩

/- Outside dry-run mode, and where no request is answered of itself as if there were no such
entry, no event, start or reload takes a route out of Linux or a rule from the active ones, and
the policy rules that it has afterwards are from before, or are asked for by rules of profiles
or by default rules that were not active. -/
theorem nothing_withdrawn (env : Env) (hs : Steady env) (C : Config → Prop)
    (s : System KernelState) (hc : C s.dispatcher.config)
    (hw : ¬ s.dispatcher.executor.routeManager.dryRun = true) (ops : List Dispatch.Op)
    (hops : ∀ op ∈ ops, Ongoing C op) :
    Throughout (Dispatch.perform env.linux) (Retained C s) s ops :=
  throughout_of_invariant (Dispatch.perform env.linux) (Retained C s) (Ongoing C)
    (fun _ _ hop h => h.perform hs hw hop) s ops hops
    ⟨hc, rfl, fun _ hn => hn, fun _ hq => hq, fun _ hp => .inl hp⟩

/-! ### A link that flaps -/

def officeRule : RouteRule := ⟨"office", .cidr (.v4 ⟨0xac100000, 12, len12_v4⟩), ⟨"wlan0"⟩, 50⟩

/- A default rule for the wired link, and a rule for a wireless network. -/
def atOffice : Config where
  interfaces := (AList.insert "eth0" ⟨.lan, .name "eth0", 100⟩ ∅).insert "wlan0"
    ⟨.wlan, .name "wlan0", 100⟩
  wifiProfiles := AList.insert "Office" ⟨"wlan0", [officeRule]⟩ ∅
  routing := ⟨[lanRule]⟩

/- Both rules are applied. -/
def officeStarted : System KernelState :=
  run (Dispatch.perform noFault.linux) (Dispatch.launch atOffice connected .empty)
    [.applyInitialState eth0Up, .handleEvent .asListed (.wifiConnected "wlan0" "Office")]

/- Both links go down and come back. -/
def bothFlap : List Dispatch.Op :=
  [.handleEvent .asListed (.interfaceChanged "eth0" .down),
    .handleEvent .asListed (.interfaceChanged "wlan0" .down),
    .handleEvent .asListed (.interfaceChanged "eth0" .up),
    .handleEvent .asListed (.wifiConnected "wlan0" "Office")]

theorem nothing_withdrawn_flap :
    Throughout (Dispatch.perform noFault.linux) (Retained (· = atOffice) officeStarted)
      officeStarted bothFlap := by
  refine nothing_withdrawn noFault (quiet_steady noFault_quiet) (· = atOffice) officeStarted
    rfl (by decide) bothFlap fun op hop => ?_
  simp only [bothFlap, List.mem_cons, List.not_mem_nil, or_false] at hop
  rcases hop with rfl | rfl | rfl | rfl <;> trivial

/- The rule of the network gets its policy rule back, and the default rule does not. -/
example : (run (Dispatch.perform noFault.linux) officeStarted (bothFlap.take 2)).kernel.rules = [] ∧
    (run (Dispatch.perform noFault.linux) officeStarted bothFlap).kernel.rules.map
      PolicyRule.priority = [officeRule.priority] := by decide

end NicAutoswitch.Kernel.Withdrawal
