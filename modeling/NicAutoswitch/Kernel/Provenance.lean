import NicAutoswitch.Engine.RouteLifetime
import NicAutoswitch.Kernel.ForeignTables

/-!
# Where the entries of the kernel come from

A rule is handed to the executor because a configuration in force has it, with a table from the
base on. Whatever requests fail, an entry that the kernel did not have before is what Linux
keeps of what such a rule asks for.
-/

namespace NicAutoswitch.Kernel.Provenance
open HashMaps Schema Monitor Router StateProg Engine Transition RouteLifetime Linux Footprint
open ForeignTables (given?)

variable {κ : Type} {C : Config → Prop} {base : ℕ}

/- A rule that is to be applied is one of a configuration that meets `C`, and a call is given a
table from the base on. -/
structure Due (C : Config → Prop) (base : ℕ) (call : ExecutorCall) : Prop where
  configured : ∀ rule t, call = .applyRule rule t → ∃ config, C config ∧ rule ∈ config.allRules
  given : ∀ t, given? call = some t → base ≤ t

def Asked (C : Config → Prop) (base : ℕ) (history : List (CallRecord κ)) : Prop :=
  ∀ c ∈ history, Due C base c.call

/-- What is known of a dispatcher whose configurations all meet `C`. -/
structure Asking (C : Config → Prop) (base : ℕ) (s : System κ) : Prop where
  config : C s.dispatcher.config
  manager : s.dispatcher.executor.routeManager.baseTableId = base
  tables : ∀ n a, s.dispatcher.activeRoute n = some a → base ≤ a.tableId
  asked : Asked C base s.history

/-! ### Calls -/

theorem Asked.cons {history : List (CallRecord κ)} (h : Asked C base history) {c : CallRecord κ}
    (hc : Due C base c.call) : Asked C base (c :: history) :=
  List.forall_mem_cons.mpr ⟨hc, h⟩

theorem due_apply {config : Config} (hc : C config) {rule : RouteRule}
    (hm : rule ∈ config.allRules) {t : ℕ} (ht : base ≤ t) : Due C base (.applyRule rule t) where
  configured r u he := by
    cases he
    exact ⟨config, hc, hm⟩
  given u he := by
    cases he
    exact ht

theorem due_remove (rule : RouteRule) {t : ℕ} (ht : base ≤ t) : Due C base (.removeRule rule t) where
  configured _ _ he := by cases he
  given u he := by
    cases he
    exact ht

theorem due_cleanup : Due C base .cleanup := ⟨nofun, nofun⟩

variable (rt : Rtnetlink κ)

/-! ### Loops -/

theorem asking_applied {s : System κ} (h : Asking C base s) {rule : RouteRule}
    (hm : rule ∈ s.dispatcher.config.allRules) {t : ℕ} (ht : base ≤ t) :
    Asking C base (applied rt t s rule) := by
  have hmanager := applied_manager rt t s rule
  have htables : ∀ n a, (applied rt t s rule).dispatcher.activeRoute n = some a →
      base ≤ a.tableId := by
    intro n a ha
    rcases entry_applied rt t s rule n with hsame | ⟨b, hb, hr⟩
    · exact h.tables n a (hsame.symm.trans ha)
    · rw [hb] at ha
      cases ha
      rw [hr.table]
      exact ht
  obtain ⟨e, k, ok, he, _⟩ := applyRule_cases rt rule t s.execState
  refine ⟨h.config, (congrArg RouteManager.baseTableId hmanager).trans h.manager, htables, ?_⟩
  unfold applied
  rw [he]
  exact h.asked.cons (due_apply h.config hm ht)

/- Removing a rule gives the call the table of the active route. -/
theorem asking_removeOne {rules : HashMap String RouteRule}
    (hrules : ∀ n rule, rules.lookup n = some rule → rule.name = n) {s : System κ}
    (h : Asking C base s) {e : String × ℕ} (ht : base ≤ e.2) :
    Asking C base (removeOne rt rules s e) := by
  have htables : ∀ n a, (removeOne rt rules s e).dispatcher.activeRoute n = some a →
      base ≤ a.tableId := by
    intro n a ha
    rcases entry_removed rt hrules s e n with hsame | ⟨_, hnone⟩
    · exact h.tables n a (hsame.symm.trans ha)
    · rw [hnone] at ha
      cases ha
  revert htables
  unfold removeOne
  cases rules.lookup e.1 with
  | none => exact fun _ => h
  | some rule =>
    obtain ⟨exec, k, ok, hcall, hexec⟩ := removeRule_cases rt rule e.2 s.execState
    dsimp only
    rw [hcall]
    refine fun htables => ⟨h.config, ?_, htables, h.asked.cons (due_remove rule ht)⟩
    rcases hexec with rfl | rfl <;> exact h.manager

theorem asking_indexed {s : System κ} (h : Asking C base s) (i : String) :
    Asking C base (indexed i s) := ⟨h.config, h.manager, h.tables, h.asked⟩

theorem base_le_table {s : System κ} (h : Asking C base s) (i : String) :
    base ≤ (s.dispatcher.getTableIdForInterface i).1 := by
  rw [← h.manager]
  exact Nat.le_add_right _ _

/- The rules of a list that the configuration has are applied, each or where not active. -/
theorem asking_run {step : System κ → RouteRule → System κ} {t : ℕ}
    (hstep : ∀ s rule, step s rule = s ∨ step s rule = applied rt t s rule)
    (rules : List RouteRule) {s : System κ} (h : Asking C base s)
    (hm : ∀ rule ∈ rules, rule ∈ s.dispatcher.config.allRules) (ht : base ≤ t) :
    Asking C base (run step s rules) := by
  induction rules generalizing s with
  | nil => exact h
  | cons rule rest ih =>
    obtain ⟨hrule, hrest⟩ := List.forall_mem_cons.mp hm
    rw [run_cons]
    rcases hstep s rule with hsame | hcall
    · rw [hsame]
      exact ih h hrest
    · rw [hcall]
      exact ih (asking_applied rt h hrule ht) hrest

theorem asking_appliedDefaults {s : System κ} (h : Asking C base s) (i : String) :
    Asking C base (appliedDefaults rt s i) := by
  unfold appliedDefaults
  split_ifs
  · exact h
  · refine asking_run rt (fun s rule => ?_) _ (asking_indexed h i) (fun rule hm => ?_)
      (base_le_table h i)
    · unfold appliedUnlessActive
      split_ifs
      · exact .inl rfl
      · exact .inr rfl
    · exact (Config.mem_allRules _ rule).mpr (.inl hm)

theorem asking_appliedRules {s : System κ} (h : Asking C base s) (i : String)
    (ssid : Option String) : Asking C base (appliedRules rt s i ssid) := by
  unfold appliedRules
  cases hp : ssid.bind s.dispatcher.config.wifiProfiles.lookup with
  | none => exact asking_appliedDefaults rt h i
  | some profile =>
    obtain ⟨name, _, hl⟩ := Option.bind_eq_some_iff.mp hp
    refine asking_run rt (fun _ _ => .inr rfl) _ (asking_indexed h i) (fun rule hm => ?_)
      (base_le_table h i)
    exact (Config.mem_allRules _ rule).mpr (.inr ⟨name, profile, hl, hm⟩)

/-! ### Operations -/

theorem asking_reacted {s : System κ} (h : Asking C base s) (order : RouteOrder)
    (event : NetworkEvent) : Asking C base (reacted rt order s event) := by
  have hremoves : ∀ i, Asking C base
      (run (removeOne rt (EventDispatcher.rulesMap s.dispatcher.config)) s
        (EventDispatcher.dependentRoutes order s.dispatcher.executor.activeRoutes i)) := by
    intro i
    refine run_invariant (removeOne rt (EventDispatcher.rulesMap s.dispatcher.config))
      (Asking C base) (fun e => base ≤ e.2) (fun _ _ ht hs =>
        asking_removeOne rt (EventDispatcher.rulesMap_name s.dispatcher.config) hs ht) s _ ?_ h
    exact (EventDispatcher.forall_dependentRoutes order s.dispatcher i (base ≤ ·.2)).mpr
      fun n a ha _ => h.tables n a ha
  cases event with
  | interfaceChanged i change =>
    cases change with
    | up =>
      simp only [reacted]
      split_ifs
      · exact asking_appliedDefaults rt h i
      · exact h
    | down => exact hremoves i
    | removed => exact hremoves i
    | added => exact h
  | wifiConnected i ssid =>
    have hs : Asking C base { s with dispatcher := s.dispatcher.recordSsid i ssid } :=
      ⟨h.config, h.manager, h.tables, h.asked⟩
    exact asking_appliedRules rt hs i (some ssid)
  | wifiDisconnected i last =>
    have hs : Asking C base { s with dispatcher := s.dispatcher.forgetSsid i } :=
      ⟨h.config, h.manager, h.tables, h.asked⟩
    exact asking_appliedDefaults rt hs i
  | addressChanged i added removed => exact asking_appliedRules rt h i _
  | routeChanged i destination gateway added => exact h

theorem asking_swept {s : System κ} (h : Asking C base s) (interfaces : List InterfaceInfo) :
    Asking C base (Engine.swept rt interfaces s) := by
  obtain ⟨k, hk⟩ := sweep_ok rt s.execState
  unfold Engine.swept
  rw [after_ok hk]
  exact ⟨h.config, h.manager, h.tables, h.asked.cons due_cleanup⟩

/- An operation hands over rules of the configuration in force alone. -/
theorem asking_perform {s : System κ} (h : Asking C base s) {op : Dispatch.Op}
    (hop : ∀ config, op = .updateConfig config → C config) :
    Asking C base (Dispatch.perform rt s op) := by
  cases op with
  | start =>
    have hsame : s.dispatcher.start.config = s.dispatcher.config ∧
        s.dispatcher.start.executor = s.dispatcher.executor := by
      unfold EventDispatcher.start
      split_ifs <;> exact ⟨rfl, rfl⟩
    refine ⟨hsame.1.symm ▸ h.config, hsame.2.symm ▸ h.manager, fun n a ha => ?_, h.asked⟩
    have ha' : s.dispatcher.start.executor.activeRoutes.lookup n = some a := ha
    rw [hsame.2] at ha'
    exact h.tables n a ha'
  | stop =>
    refine ⟨h.config, h.manager, fun n a ha => ?_, h.asked⟩
    have hnone : s.dispatcher.stop.activeRoute n = none := AList.lookup_empty n
    cases hnone.symm.trans ha
  | updateConfig config => exact ⟨hop config rfl, h.manager, h.tables, h.asked⟩
  | applyInitialState interfaces =>
    show Asking C base (after (Dispatch.applyInitialState rt interfaces) s)
    rw [applyInitialState_after]
    exact run_preserves (appliedDefaults rt) (Asking C base)
      (fun _ i h => asking_appliedDefaults rt h i) _ _ (asking_swept rt h interfaces)
  | handleEvent order event =>
    show Asking C base (after (Dispatch.handleEvent rt order event) s)
    by_cases hr : s.dispatcher.state = .running
    · rw [handleEvent_after rt order event hr]
      exact asking_reacted rt (s := observed event s) ⟨h.config, h.manager, h.tables, h.asked⟩
        order event
    · rw [handleEvent_idle rt order event hr]
      exact h

/-! ### The kernel -/

variable {env : Env} {f : Footprint}

/-- Each entry was there before, or a call has had it in its footprint. -/
structure Stems (env : Env) (k : KernelState) (s : ExecutorState KernelState) : Prop where
  rules : ∀ p ∈ s.kernel.rules, p ∈ k.rules ∨
    ∃ c ∈ s.history, (ofCall env c.executor.routeManager c.call).addRule p
  routes : ∀ q ∈ s.kernel.routes, q ∈ k.routes ∨
    ∃ c ∈ s.history, (ofCall env c.executor.routeManager c.call).addRoute q

theorem keeps_rules_from {G : PolicyRule → Prop} (h : ∀ p, f.addRule p → G p) :
    Keeps f fun k => ∀ p ∈ k.rules, G p where
  tick _ hk := hk
  addRule k p hp hk p' hp' := by
    rcases (KernelState.mem_addRule k p p').mp hp' with rfl | hold
    · exact h p' hp
    · exact hk p' hold
  dropRule k p _ hk p' hp' := hk p' ((KernelState.mem_dropRule k p p').mp hp').2
  addRoute k q _ hk := by
    rw [KernelState.addRoute_rules]
    exact hk
  dropRoute _ _ _ hk := hk

theorem keeps_routes_from {G : Route → Prop} (h : ∀ q, f.addRoute q → G q) :
    Keeps f fun k => ∀ q ∈ k.routes, G q where
  tick _ hk := hk
  addRule k p _ hk := by
    rw [KernelState.addRule_routes]
    exact hk
  dropRule _ _ _ hk := hk
  addRoute k q hq hk q' hq' := by
    rcases (KernelState.mem_addRoute k q q').mp hq' with rfl | hold
    · exact h q' hq
    · exact hk q' hold
  dropRoute k q _ hk q' hq' := hk q' ((KernelState.mem_dropRoute k q q').mp hq').2

theorem callsKeep_stems (env : Env) (k : KernelState) : CallsKeep env.linux (Stems env k) := by
  refine callsKeep_of_footprint fun s s' call hc hs => ?_
  obtain ⟨ok, hhistory⟩ := hc.history
  constructor
  · rw [hhistory]
    refine hc.kernel (fun k' => ∀ p ∈ k'.rules, _) (keeps_rules_from fun p hp => ?_) fun p hp => ?_
    · exact .inr ⟨_, List.mem_cons_self, hp⟩
    · refine (hs.rules p hp).imp_right ?_
      rintro ⟨c, hm, hf⟩
      exact ⟨c, List.mem_cons_of_mem _ hm, hf⟩
  · rw [hhistory]
    refine hc.kernel (fun k' => ∀ q ∈ k'.routes, _) (keeps_routes_from fun q hq => ?_) fun q hq => ?_
    · exact .inr ⟨_, List.mem_cons_self, hq⟩
    · refine (hs.routes q hq).imp_right ?_
      rintro ⟨c, hm, hf⟩
      exact ⟨c, List.mem_cons_of_mem _ hm, hf⟩

theorem Stems.run {k : KernelState} {s : System KernelState} (h : Stems env k s.execState)
    (ops : List Dispatch.Op) :
    Stems env k (Transition.run (Dispatch.perform env.linux) s ops).execState :=
  run_keeps_all (callsKeep_stems env k) (fun _ h => ⟨h.rules, h.routes⟩) ops h

/- What Linux keeps of the policy rule, and of the route, that a rule asks for in a table from the
base on. -/
def RuleOf (C : Config → Prop) (base : ℕ) (p : PolicyRule) : Prop :=
  ∃ config, C config ∧ ∃ rule ∈ config.allRules, ∃ d t, RuleOperator.target? rule = some d ∧
    base ≤ t ∧ p = ruleOf d t rule.priority

def RouteOf (env : Env) (C : Config → Prop) (base : ℕ) (q : Route) : Prop :=
  ∃ config, C config ∧ ∃ rule ∈ config.allRules, ∃ d t, RuleOperator.target? rule = some d ∧
    base ≤ t ∧ route? env rule d t = some q

/-- Each entry was there before, or is asked for by a rule of a configuration. -/
structure Explained (env : Env) (C : Config → Prop) (base : ℕ) (k k' : KernelState) : Prop where
  rules : ∀ p ∈ k'.rules, p ∈ k.rules ∨ RuleOf C base p
  routes : ∀ q ∈ k'.routes, q ∈ k.routes ∨ RouteOf env C base q

theorem Stems.explained {k : KernelState} {s : System KernelState} (h : Stems env k s.execState)
    (ha : Asking C base s) : Explained env C base k s.kernel := by
  constructor
  · intro p hp
    refine (h.rules p hp).imp_right ?_
    rintro ⟨⟨call, e, k', ok⟩, hm, hf⟩
    cases call with
    | applyRule rule t =>
      obtain ⟨d, hd, rfl⟩ := hf
      have hdue := ha.asked _ hm
      obtain ⟨config, hc, hr⟩ := hdue.configured rule t rfl
      exact ⟨config, hc, rule, hr, d, t, hd, hdue.given t rfl, rfl⟩
    | removeRule rule t => cases hf
    | cleanup => cases hf
  · intro q hq
    refine (h.routes q hq).imp_right ?_
    rintro ⟨⟨call, e, k', ok⟩, hm, hf⟩
    cases call with
    | applyRule rule t =>
      obtain ⟨d, hd, hroute⟩ := hf
      have hdue := ha.asked _ hm
      obtain ⟨config, hc, hr⟩ := hdue.configured rule t rfl
      exact ⟨config, hc, rule, hr, d, t, hd, hdue.given t rfl, hroute⟩
    | removeRule rule t => cases hf
    | cleanup => cases hf

/- The base is not 0, nor is any table that a call has been given. -/
theorem Asking.named {s : System KernelState} (h : Asking C base s) :
    ForeignTables.Named s.history := by
  intro c hc hzero
  have hgiven := (h.asked c hc).given 0 hzero
  have hbase := s.dispatcher.executor.routeManager.base_mem.1
  unfold ipv4TableStart at hbase
  rw [h.manager] at hbase
  omega

end NicAutoswitch.Kernel.Provenance
