import NicAutoswitch.Engine.RouteLifetime
import NicAutoswitch.Kernel.EventTwice
import NicAutoswitch.Kernel.Footprint

/-!
# Where the plain kernel is Linux

Linux keeps the entries of most rules as they are sent, and then both kernels make the same
of a call of `apply_rule`. They differ in what a removal deletes. A run from an empty kernel
in which no interface is lost is therefore the same on both, whatever requests fail.
-/

namespace NicAutoswitch.Kernel.Agreement
open HashMaps Schema Monitor Router StateProg Engine Transition Linux

variable {env : Env} {rm : RouteManager}

/- Linux keeps the policy rule and the route of the rule as they are sent. -/
def AsSent (rule : RouteRule) : Prop :=
  ∀ d, RuleOperator.target? rule = some d → d.prefixLen ≠ 0 ∧ routeNetwork? d = some d ∧
    routeMetric d.version rule.priority = rule.priority

/-! ### Requests -/

theorem duplicated_iff {p : PolicyRule} (h : p.destination.prefixLen ≠ 0)
    (rules : List PolicyRule) : Duplicated rules p ↔ p ∈ rules := by
  apply Iff.intro
  · rintro ⟨⟨d, t, priority⟩, hr, _, ht, hp, hd⟩
    have he : d = p.destination := hd.resolve_left h
    dsimp only at ht hp
    subst ht hp he
    exact hr
  · exact fun hp => ⟨p, hp, rfl, rfl, rfl, .inr rfl⟩

theorem ruleAdd_agrees {d : IpNetwork} (h : d.prefixLen ≠ 0) (t priority : ℕ) (k : KernelState) :
    Linux.ruleAdd (policyRuleRequest (some d) none t priority
        (RouteManager.ruleIsIpv4 (some d) none)) k =
      Env.ruleAdd (policyRuleRequest (some d) none t priority
        (RouteManager.ruleIsIpv4 (some d) none)) k := by
  have hd : ruleOf d t priority = ⟨d, t, priority⟩ := by
    unfold ruleOf
    rw [ruleNetwork_self h]
  rw [Linux.ruleAdd_own, Kernel.ruleAdd_own, hd]
  simp only [duplicated_iff (p := ⟨d, t, priority⟩) h]

theorem routeAdd_agrees {d : IpNetwork} (h : routeNetwork? d = some d) {metric : ℕ}
    (hm : routeMetric d.version metric = metric) (i t : ℕ) (k : KernelState) :
    Linux.routeAdd (routeRequest d none i t metric) k =
      Env.routeAdd (routeRequest d none i t metric) k := by
  have hr : routeOf? d t metric i = some ⟨t, d, metric, i⟩ := by
    unfold routeOf?
    rw [h, hm]
    rfl
  rw [Linux.routeAdd_own, Kernel.routeAdd_own, hr]
  rfl

/-! ### Calls -/

theorem addPolicyRule_agrees (rm : RouteManager) {d : IpNetwork} (h : d.prefixLen ≠ 0)
    (t priority : ℕ) : rm.addPolicyRule env.linux (some d) none t priority =
      rm.addPolicyRule env.plain (some d) none t priority := by
  have ha := funext (ruleAdd_agrees h t priority)
  simp only [RouteManager.addPolicyRule, Env.linux, Env.plain, ha]

theorem addRoute_agrees (rm : RouteManager) {d : IpNetwork} (h : routeNetwork? d = some d)
    {metric : ℕ} (hm : routeMetric d.version metric = metric) (name : String) (t : ℕ) :
    rm.addRoute env.linux d none name t metric = rm.addRoute env.plain d none name t metric := by
  have ha : ∀ i, Linux.routeAdd (routeRequest d none i t metric) =
      Env.routeAdd (routeRequest d none i t metric) := fun i => funext (routeAdd_agrees h hm i t)
  simp only [RouteManager.addRoute, RouteManager.resolveInterfaceIndex, Env.linux, Env.plain, ha]

theorem operator_agrees {rule : RouteRule} (h : AsSent rule) (rm : RouteManager) (index t : ℕ) :
    RuleOperator.applyRule env.linux rm rule index t =
      RuleOperator.applyRule env.plain rm rule index t := by
  unfold RuleOperator.applyRule
  cases hd : RuleOperator.getDestination rule with
  | error e => rfl
  | ok d =>
    obtain ⟨hrule, hroute, hmetric⟩ := h d (RuleOperator.getDestination_ok.mp hd)
    dsimp only [RuleOperator.getGateway]
    rw [addPolicyRule_agrees rm hrule, addRoute_agrees rm hroute hmetric]

theorem applied_agrees {rule : RouteRule} (h : AsSent rule) (t : ℕ) (s : System KernelState) :
    applied env.linux t s rule = applied env.plain t s rule := by
  unfold applied RuleExecutor.applyRule
  simp only [operator_agrees h]

/-! ### Handlers -/

/- Linux keeps what the rules of the configuration ask for. -/
def Sends (config : Config) : Prop := ∀ rule ∈ config.allRules, AsSent rule

theorem appliedDefaults_agrees {s : System KernelState} (h : Sends s.dispatcher.config)
    (i : String) : appliedDefaults env.linux s i = appliedDefaults env.plain s i := by
  have hrules : ∀ rule ∈ s.dispatcher.config.routing.defaultRules, AsSent rule := fun rule hr =>
    h rule ((Config.mem_allRules _ rule).mpr (.inl hr))
  unfold appliedDefaults
  split_ifs
  · rfl
  · refine run_congr (fun _ => True) AsSent (fun _ _ _ _ => trivial) (fun s' rule hr _ => ?_) _ _
      hrules trivial
    unfold appliedUnlessActive
    rw [applied_agrees hr]

theorem appliedRules_agrees {s : System KernelState} (h : Sends s.dispatcher.config)
    (i : String) (ssid : Option String) :
    appliedRules env.linux s i ssid = appliedRules env.plain s i ssid := by
  unfold appliedRules
  cases hp : ssid.bind s.dispatcher.config.wifiProfiles.lookup with
  | none => exact appliedDefaults_agrees h i
  | some profile =>
    obtain ⟨name, _, hl⟩ := Option.bind_eq_some_iff.mp hp
    have hrules : ∀ rule ∈ profile.rules, AsSent rule := fun rule hr =>
      h rule ((Config.mem_allRules _ rule).mpr (.inr ⟨name, profile, hl, hr⟩))
    exact run_congr (fun _ => True) AsSent (fun _ _ _ _ => trivial)
      (fun s' rule hr _ => applied_agrees hr _ s') _ _ hrules trivial

/- Only a removal tells the kernels apart. -/
theorem reacted_agrees {s : System KernelState} (h : Sends s.dispatcher.config)
    (order : RouteOrder) {event : NetworkEvent} (he : EventTwice.lost? event = none) :
    reacted env.linux order s event = reacted env.plain order s event := by
  cases event with
  | interfaceChanged i change =>
    cases change with
    | up =>
      simp only [reacted]
      rw [appliedDefaults_agrees h]
    | down => cases he
    | added => rfl
    | removed => cases he
  | wifiConnected i ssid =>
    exact appliedRules_agrees (s := { s with dispatcher := s.dispatcher.recordSsid i ssid }) h i _
  | wifiDisconnected i last =>
    exact appliedDefaults_agrees (s := { s with dispatcher := s.dispatcher.forgetSsid i }) h i
  | addressChanged i added removed => exact appliedRules_agrees h i _
  | routeChanged i destination gateway added => rfl

/-! ### Runs -/

/- The operation neither sweeps nor loses an interface, and loads no configuration that Linux
takes otherwise than it is sent. -/
def Keeping : Dispatch.Op → Prop
  | .handleEvent _ event => EventTwice.lost? event = none
  | .applyInitialState _ => False
  | .updateConfig config => Sends config
  | .start | .stop => True

theorem perform_agrees {s : System KernelState} (h : Sends s.dispatcher.config)
    {op : Dispatch.Op} (ho : Keeping op) :
    Dispatch.perform env.linux s op = Dispatch.perform env.plain s op := by
  cases op with
  | start => rfl
  | stop => rfl
  | applyInitialState interfaces => cases ho
  | updateConfig config => rfl
  | handleEvent order event =>
    show after (Dispatch.handleEvent env.linux order event) s =
      after (Dispatch.handleEvent env.plain order event) s
    by_cases hr : s.dispatcher.state = .running
    · rw [handleEvent_after env.linux order event hr, handleEvent_after env.plain order event hr]
      exact reacted_agrees (s := observed event s) h order ho
    · rw [handleEvent_idle env.linux order event hr, handleEvent_idle env.plain order event hr]

theorem sends_perform {s : System KernelState} (h : Sends s.dispatcher.config)
    {op : Dispatch.Op} (ho : Keeping op) :
    Sends (Dispatch.perform env.plain s op).dispatcher.config := by
  rcases RouteLifetime.config_perform env.plain s op with hsame | hnew
  · rw [hsame]
    exact h
  · rw [hnew] at ho
    exact ho

theorem run_agrees {s : System KernelState} (h : Sends s.dispatcher.config)
    (ops : List Dispatch.Op) (ho : ∀ op ∈ ops, Keeping op) :
    run (Dispatch.perform env.linux) s ops = run (Dispatch.perform env.plain) s ops :=
  run_congr (fun s' => Sends s'.dispatcher.config) Keeping (fun _ _ ho h => sends_perform h ho)
    (fun _ _ ho h => perform_agrees h ho) s ops ho h

/-! ### The startup -/

/- The kernel has no entries. -/
def Bare (k : KernelState) : Prop := k.rules = [] ∧ k.routes = []

/- What a dump lists of an empty kernel is errors, which say the same whatever the form of the
messages, and nothing is deleted. -/
theorem flush_same {α β : Type} {list : KernelState → List (Except RtError α)}
    {message message' : α → β} (hlist : ∀ k, Bare k → ∀ x, .ok x ∉ list k) {sel : β → Bool}
    {text : RtError → String} (del del' : β → KernelState → Except RtError Unit × KernelState)
    (count : ℕ) :
    SameOn Bare (send (env.dump list message) >>= fun items => flushLoop sel text del items count)
      (send (env.dump list message') >>= fun items => flushLoop sel text del' items count) := by
  intro k hk
  have hdump : env.dump list message k = env.dump list message' k := by
    unfold Env.dump
    cases env.fault k.clock with
    | some e => rfl
    | none =>
      have hmap : (list k).map (Except.map message) = (list k).map (Except.map message') := by
        refine List.map_congr_left fun item hm => ?_
        cases item with
        | error e => rfl
        | ok x => exact absurd hm (hlist k hk x)
      dsimp only
      rw [hmap]
  have hnone : ∀ m, .ok m ∉ (env.dump list message' k).1 := by
    intro m hm
    obtain ⟨x, hx, _⟩ := Footprint.dump_spec hm
    exact hlist k hk x hx
  have hbare : Bare (env.dump list message' k).2 := by
    unfold Env.dump
    cases env.fault k.clock <;> exact hk
  rw [bind_ok (show send (env.dump list message) k = _ from rfl),
    bind_ok (show send (env.dump list message') k = _ from rfl),
    after_bind_ok (show send (env.dump list message') k = _ from rfl), hdump]
  generalize env.dump list message' k = answer at hnone hbare ⊢
  obtain ⟨items, k'⟩ := answer
  cases items with
  | nil => exact ⟨rfl, hbare⟩
  | cons item rest =>
    cases item with
    | error e => exact ⟨rfl, hbare⟩
    | ok m => exact absurd List.mem_cons_self (hnone m)

theorem routeDump_bare (v : IpVersion) (t : ℕ) :
    ∀ k, Bare k → ∀ r, .ok r ∉ env.routeDump k v t := by
  intro k hk r hr
  have hm := (env.routeDump_mem k v t r hr).1
  rw [hk.2] at hm
  cases hm

theorem ruleDump_bare (v : IpVersion) : ∀ k, Bare k → ∀ p, .ok p ∉ env.ruleDump k v := by
  intro k hk p hp
  have hm := (env.ruleDump_mem k v p hp).1
  rw [hk.1] at hm
  cases hm

theorem withHandle_same {message : String} {α : Type} {x y : Net KernelState α}
    (h : SameOn Bare x y) : SameOn Bare (rm.withHandle message x) (rm.withHandle message y) := by
  unfold RouteManager.withHandle
  cases rm.handle with
  | none => exact fun _ hk => ⟨rfl, hk⟩
  | some c => exact h

theorem flushTable_same (rm : RouteManager) (t : ℕ) :
    SameOn Bare (rm.flushTable env.linux t) (rm.flushTable env.plain t) := by
  unfold RouteManager.flushTable
  refine sameOn_ite (preserves_pure Bare 0).same (withHandle_same ?_)
  cases tableIdToU8 t with
  | error e => exact fun _ hk => ⟨rfl, hk⟩
  | ok table => exact flush_same (routeDump_bare .v4 table) _ _ 0

theorem flushTablePolicyRules_same (rm : RouteManager) (t : ℕ) :
    SameOn Bare (rm.flushTablePolicyRules env.linux t) (rm.flushTablePolicyRules env.plain t) := by
  unfold RouteManager.flushTablePolicyRules
  refine sameOn_ite (preserves_pure Bare 0).same (withHandle_same ?_)
  cases tableIdToU8 t with
  | error e => exact fun _ hk => ⟨rfl, hk⟩
  | ok table =>
    intro k hk
    exact sameOn_bind (flush_same (ruleDump_bare .v4) _ _ 0)
      (fun count => flush_same (ruleDump_bare .v6) _ _ count) k hk

theorem flushTables_same (env : Env) (rm : RouteManager) (tables : List ℕ) :
    SameOn Bare (Dispatch.flushTables env.linux rm tables)
      (Dispatch.flushTables env.plain rm tables) := by
  induction tables with
  | nil => exact (preserves_pure Bare ()).same
  | cons t rest ih =>
    have hcomplete : SameOn Bare (rm.flushTableComplete env.linux t)
        (rm.flushTableComplete env.plain t) :=
      sameOn_bind (flushTable_same rm t) fun _ =>
        sameOn_bind (flushTablePolicyRules_same rm t) fun _ => (preserves_pure Bare _).same
    exact sameOn_bind (sameOn_attempt hcomplete) fun _ => ih

theorem swept_agrees (env : Env) (interfaces : List InterfaceInfo) {s : System KernelState}
    (hs : Bare s.kernel) :
    Engine.swept env.linux interfaces s = Engine.swept env.plain interfaces s := by
  have htables := flushTables_same env s.dispatcher.executor.routeManager
    (Dispatch.staleTables (s.dispatcher.executor.routeManager.tableIdV4 0)) s.kernel hs
  obtain ⟨k, hk⟩ := flushTables_returns env.plain s.dispatcher.executor.routeManager
    (Dispatch.staleTables (s.dispatcher.executor.routeManager.tableIdV4 0)) s.kernel
  unfold Engine.swept
  rw [after_ok (sweep_flushed env.linux (s := s.execState) (htables.1.trans hk)),
    after_ok (sweep_flushed env.plain (s := s.execState) hk)]

theorem applyInitialState_agrees (env : Env) (interfaces : List InterfaceInfo)
    {s : System KernelState} (hs : Bare s.kernel) (h : Sends s.dispatcher.config) :
    Dispatch.perform env.linux s (.applyInitialState interfaces) =
      Dispatch.perform env.plain s (.applyInitialState interfaces) := by
  obtain ⟨k, hk⟩ := sweep_ok env.plain s.execState
  have hsends : Sends (Engine.swept env.plain interfaces s).dispatcher.config := by
    unfold Engine.swept
    rw [after_ok hk]
    exact h
  show after (Dispatch.applyInitialState env.linux interfaces) s =
    after (Dispatch.applyInitialState env.plain interfaces) s
  rw [applyInitialState_after, applyInitialState_after, swept_agrees env interfaces hs]
  refine run_congr (fun s' => Sends s'.dispatcher.config) (fun _ => True) (fun s' i _ hs' => ?_)
    (fun s' i _ hs' => appliedDefaults_agrees hs' i) _ _ (fun _ _ => trivial) hsends
  rw [(appliedDefaults_view env.plain s' i).config]
  exact hs'

/- From an empty kernel, the daemon makes the same of both as long as no interface is lost. -/
theorem started_agrees (env : Env) (rm : RouteManager) (config : Config) (h : Sends config)
    (k : KernelState) (hk : Bare k) (interfaces : List InterfaceInfo) (ops : List Dispatch.Op)
    (ho : ∀ op ∈ ops, Keeping op) :
    run (Dispatch.perform env.linux) (Dispatch.launch config rm k)
        (.applyInitialState interfaces :: ops) =
      run (Dispatch.perform env.plain) (Dispatch.launch config rm k)
        (.applyInitialState interfaces :: ops) := by
  rw [run_cons, run_cons, applyInitialState_agrees env interfaces hk h]
  refine run_agrees ?_ ops ho
  show Sends (after (Dispatch.applyInitialState env.plain interfaces) _).dispatcher.config
  rw [(applyInitialState_view env.plain interfaces _).config]
  exact h

example : Sends lanOnly := by
  intro rule hr
  obtain rfl : rule = lanRule := List.mem_singleton.mp hr
  intro d hd
  cases hd
  exact ⟨by decide, by decide, by decide⟩

end NicAutoswitch.Kernel.Agreement
