import NicAutoswitch.Engine.Knowledge
import NicAutoswitch.Engine.TableIndices

/-!
# The life of an active route

Whatever requests the kernel refuses, a route is recorded as some rule of the configuration in
force says, and stays recorded as it is until its interface goes down, the dispatcher is
stopped, or a rule of the same name is applied with the profile of a network.
-/

namespace NicAutoswitch.Engine.RouteLifetime
open HashMaps Schema Monitor Router StateProg Transition TableIndices

/- A rule of the list has been recorded under the name. -/
def RecordedBy (rules : List RouteRule) (t : ℕ) (n : String) (a : ActiveRoute) : Prop :=
  ∃ rule ∈ rules, rule.name = n ∧ RuleOperator.validateRule rule = .ok () ∧ a = entryOf t rule

/- The table of the interface is that of its index. -/
def TableOf (d : EventDispatcher) (i : String) (t : ℕ) : Prop :=
  ∃ idx, d.interfaceIndices.lookup i = some idx ∧ t = d.executor.routeManager.tableIdV4 idx

/- The interfaces that an operation may apply rules for. -/
def Serves (i : String) : Dispatch.Op → Prop
  | .handleEvent _ event => event.interface = some i
  | .applyInitialState interfaces => ∃ info ∈ interfaces, info.name = i
  | .start | .stop | .updateConfig _ => False

/- The profile whose rules an operation applies. -/
def profileFor (d : EventDispatcher) : Dispatch.Op → Option WifiProfile
  | .handleEvent _ (.wifiConnected _ ssid) => d.config.wifiProfiles.lookup ssid
  | .handleEvent _ (.addressChanged i _ _) => (d.currentSsid i).bind d.config.wifiProfiles.lookup
  | _ => none

/- The operation withdraws the route: its interface goes down or away, or all is stopped. -/
def Ends (a : ActiveRoute) : Dispatch.Op → Prop
  | .stop => True
  | .handleEvent _ (.interfaceChanged i .down) => a.interface = i
  | .handleEvent _ (.interfaceChanged i .removed) => a.interface = i
  | _ => False

/-- What an operation makes of the entry of a name. -/
inductive Fate (d d' : EventDispatcher) (n : String) (op : Dispatch.Op) : Prop
  | kept (h : d'.activeRoute n = d.activeRoute n)
  | ended {a : ActiveRoute} (ha : d.activeRoute n = some a) (he : Ends a op)
      (h : d'.activeRoute n = none)
  | default {i : String} {a : ActiveRoute} {t : ℕ} (ho : Serves i op) (hnone : d.activeRoute n = none)
      (h : d'.activeRoute n = some a) (hr : RecordedBy d.config.routing.defaultRules t n a)
      (ht : TableOf d' i t)
  | profile {i : String} {a : ActiveRoute} {t : ℕ} {profile : WifiProfile} (ho : Serves i op)
      (hp : profileFor d op = some profile) (h : d'.activeRoute n = some a)
      (hr : RecordedBy profile.rules t n a) (ht : TableOf d' i t)

variable {κ : Type} (rt : Rtnetlink κ)

/-! ### Calls -/

theorem validate_of_succeeds {index t : ℕ} {s : ExecutorState κ} {rule : RouteRule}
    (h : succeeds rt index t s rule = true) : RuleOperator.validateRule rule = .ok () := by
  cases hv : RuleOperator.validateRule rule with
  | ok u => rfl
  | error e =>
    have hno := (attempted_of_error rt (RuleExecutor.applyRule_invalid rt index t s hv)).1
    exact absurd (hno.symm.trans h) Bool.false_ne_true

theorem RecordedBy.mono {rules rules' : List RouteRule} {t : ℕ} {n : String} {a : ActiveRoute}
    (h : RecordedBy rules t n a) (hs : rules ⊆ rules') : RecordedBy rules' t n a := by
  obtain ⟨rule, hm, hrest⟩ := h
  exact ⟨rule, hs hm, hrest⟩

theorem RecordedBy.table {rules : List RouteRule} {t : ℕ} {n : String} {a : ActiveRoute}
    (h : RecordedBy rules t n a) : a.tableId = t := by
  obtain ⟨rule, _, _, _, rfl⟩ := h
  rfl

theorem entry_applied (t : ℕ) (s : System κ) (rule : RouteRule) (n : String) :
    (applied rt t s rule).dispatcher.activeRoute n = s.dispatcher.activeRoute n ∨
      ∃ a, (applied rt t s rule).dispatcher.activeRoute n = some a ∧ RecordedBy [rule] t n a := by
  obtain ⟨k, ha⟩ := attempted_eq rt 0 t s.execState rule
  have hexec : (applied rt t s rule).dispatcher.executor =
      if succeeds rt 0 t s.execState rule then
        s.dispatcher.executor.trackActiveRoute rule.name rule.routeVia.interface t
      else s.dispatcher.executor := congrArg ExecutorState.executor ha
  unfold EventDispatcher.activeRoute
  rw [hexec]
  split_ifs with hs
  · have hins := lookup_insert_eq_ite s.dispatcher.executor.activeRoutes rule.name n
      ⟨rule.name, rule.routeVia.interface, t⟩
    by_cases hn : n = rule.name
    · rw [if_pos hn] at hins
      exact .inr ⟨_, hins, rule, List.mem_singleton_self rule, hn.symm, validate_of_succeeds rt hs, rfl⟩
    · rw [if_neg hn] at hins
      exact .inl hins
  · exact .inl rfl

theorem entry_run_applied (t : ℕ) (rules : List RouteRule) (s : System κ) (n : String) :
    (run (applied rt t) s rules).dispatcher.activeRoute n = s.dispatcher.activeRoute n ∨
      ∃ a, (run (applied rt t) s rules).dispatcher.activeRoute n = some a ∧
        RecordedBy rules t n a := by
  induction rules generalizing s with
  | nil => exact .inl rfl
  | cons rule rest ih =>
    rw [run_cons]
    rcases ih (applied rt t s rule) with hsame | ⟨a, ha, hr⟩
    · rw [hsame]
      refine (entry_applied rt t s rule n).imp_right ?_
      rintro ⟨a, ha, hr⟩
      exact ⟨a, ha, hr.mono (List.cons_subset_cons rule (List.nil_subset rest))⟩
    · exact .inr ⟨a, ha, hr.mono (List.subset_cons_self rule rest)⟩

/- The loop over the default rules records only what was not active. -/
theorem entry_run_unlessActive (t : ℕ) (rules : List RouteRule) (s : System κ) (n : String) :
    (run (appliedUnlessActive rt t) s rules).dispatcher.activeRoute n =
        s.dispatcher.activeRoute n ∨
      s.dispatcher.activeRoute n = none ∧
        ∃ a, (run (appliedUnlessActive rt t) s rules).dispatcher.activeRoute n = some a ∧
          RecordedBy rules t n a := by
  induction rules generalizing s with
  | nil => exact .inl rfl
  | cons rule rest ih =>
    have hone : (appliedUnlessActive rt t s rule).dispatcher.activeRoute n =
          s.dispatcher.activeRoute n ∨
        s.dispatcher.activeRoute n = none ∧
          ∃ a, (appliedUnlessActive rt t s rule).dispatcher.activeRoute n = some a ∧
            RecordedBy [rule] t n a := by
      unfold appliedUnlessActive
      split_ifs with hactive
      · exact .inl rfl
      · rcases entry_applied rt t s rule n with hsame | ⟨a, ha, hr⟩
        · exact .inl hsame
        · refine .inr ⟨?_, a, ha, hr⟩
          -- the rule of the name was not active
          obtain ⟨r, hm, hn, _⟩ := hr
          rw [List.mem_singleton.mp hm] at hn
          subst hn
          rcases Option.eq_none_or_eq_some (s.dispatcher.activeRoute rule.name) with h | ⟨b, hb⟩
          · exact h
          · exact absurd ((RuleExecutor.isRouteActive_iff _ _).mpr ⟨b, hb⟩) hactive
    rw [run_cons]
    rcases ih (appliedUnlessActive rt t s rule) with hsame | ⟨hnone, a, ha, hr⟩
    · rw [hsame]
      refine hone.imp_right ?_
      rintro ⟨hnone, a, ha, hr⟩
      exact ⟨hnone, a, ha, hr.mono (List.cons_subset_cons rule (List.nil_subset rest))⟩
    · rcases hone with hsame | ⟨_, b, hb, _⟩
      · exact .inr ⟨hsame ▸ hnone, a, ha, hr.mono (List.subset_cons_self rule rest)⟩
      · rw [hb] at hnone
        cases hnone

/-! ### Tables -/

theorem manager_run {ι : Type} (step : System κ → ι → System κ)
    (h : ∀ s i, (step s i).dispatcher.executor.routeManager = s.dispatcher.executor.routeManager)
    (s : System κ) (is : List ι) :
    (run step s is).dispatcher.executor.routeManager = s.dispatcher.executor.routeManager :=
  run_preserves step
    (fun s' => s'.dispatcher.executor.routeManager = s.dispatcher.executor.routeManager)
    (fun s' i hs => (h s' i).trans hs) s is rfl

theorem manager_unlessActive (t : ℕ) (s : System κ) (rule : RouteRule) :
    (appliedUnlessActive rt t s rule).dispatcher.executor.routeManager =
      s.dispatcher.executor.routeManager := by
  unfold appliedUnlessActive
  split_ifs
  · rfl
  · exact applied_manager rt t s rule

theorem TableOf.congr {d d' : EventDispatcher} {i : String} {t : ℕ} (h : TableOf d i t)
    (hk : d'.knowledge = d.knowledge)
    (hm : d'.executor.routeManager = d.executor.routeManager) : TableOf d' i t := by
  obtain ⟨idx, hl, ht⟩ := h
  have hindices : d'.interfaceIndices = d.interfaceIndices :=
    congrArg Knowledge.interfaceIndices hk
  refine ⟨idx, ?_, ?_⟩
  · rw [hindices]
    exact hl
  · rw [hm]
    exact ht

/- The table that is handed out is the one that is kept. -/
theorem tableOf_indexed (s : System κ) (i : String) :
    TableOf (indexed i s).dispatcher i (s.dispatcher.getTableIdForInterface i).1 := by
  unfold indexed EventDispatcher.getTableIdForInterface EventDispatcher.indexForInterface TableOf
  cases h : s.dispatcher.interfaceIndices.lookup i with
  | none => exact ⟨_, AList.lookup_insert s.dispatcher.interfaceIndices, rfl⟩
  | some idx => exact ⟨idx, h, rfl⟩

/- An index that is there is kept when another one is handed out. -/
theorem TableOf.indexed {s : System κ} {i : String} {t : ℕ} (h : TableOf s.dispatcher i t)
    (j : String) : TableOf (indexed j s).dispatcher i t := by
  obtain ⟨idx, hl, ht⟩ := h
  refine ⟨idx, ?_, ht⟩
  show AList.lookup i (EventDispatcher.indexForInterface s.dispatcher.interfaceIndices j).2 = some idx
  unfold EventDispatcher.indexForInterface
  cases hj : s.dispatcher.interfaceIndices.lookup j with
  | some _ => exact hl
  | none =>
    have hne : i ≠ j := by
      rintro rfl
      rw [hl] at hj
      cases hj
    exact (AList.lookup_insert_ne hne).trans hl

theorem TableOf.appliedDefaults {s : System κ} {i : String} {t : ℕ} (h : TableOf s.dispatcher i t)
    (j : String) : TableOf (appliedDefaults rt s j).dispatcher i t := by
  unfold NicAutoswitch.Engine.appliedDefaults
  split_ifs
  · exact h
  · exact (h.indexed j).congr (knowledge_run _ (knowledge_appliedUnlessActive rt _) _ _)
      (manager_run _ (manager_unlessActive rt _) _ _)

/-! ### Handlers -/

theorem entry_appliedDefaults (s : System κ) (i n : String) :
    (appliedDefaults rt s i).dispatcher.activeRoute n = s.dispatcher.activeRoute n ∨
      s.dispatcher.activeRoute n = none ∧
        ∃ a t, (appliedDefaults rt s i).dispatcher.activeRoute n = some a ∧
          RecordedBy s.dispatcher.config.routing.defaultRules t n a ∧
          TableOf (appliedDefaults rt s i).dispatcher i t := by
  unfold appliedDefaults
  split_ifs
  · exact .inl rfl
  · rcases entry_run_unlessActive rt (s.dispatcher.getTableIdForInterface i).1
      s.dispatcher.config.routing.defaultRules (indexed i s) n with hsame | ⟨hnone, a, ha, hr⟩
    · exact .inl hsame
    · exact .inr ⟨hnone, a, _, ha, hr, (tableOf_indexed s i).congr
        (knowledge_run _ (knowledge_appliedUnlessActive rt _) _ _)
        (manager_run _ (manager_unlessActive rt _) _ _)⟩

theorem entry_appliedProfile (s : System κ) (i n : String) (rules : List RouteRule) :
    (run (applied rt (s.dispatcher.getTableIdForInterface i).1) (indexed i s) rules).dispatcher.activeRoute
        n = s.dispatcher.activeRoute n ∨
      ∃ a t, (run (applied rt (s.dispatcher.getTableIdForInterface i).1) (indexed i s)
          rules).dispatcher.activeRoute n = some a ∧ RecordedBy rules t n a ∧
        TableOf (run (applied rt (s.dispatcher.getTableIdForInterface i).1) (indexed i s)
          rules).dispatcher i t := by
  rcases entry_run_applied rt (s.dispatcher.getTableIdForInterface i).1 rules (indexed i s) n with
    hsame | ⟨a, ha, hr⟩
  · exact .inl hsame
  · exact .inr ⟨a, _, ha, hr, (tableOf_indexed s i).congr
      (knowledge_run (applied rt _) (fun _ _ => rfl) _ _)
      (manager_run _ (applied_manager rt _) _ _)⟩

theorem entry_removed {rules : HashMap String RouteRule}
    (hrules : ∀ n rule, rules.lookup n = some rule → rule.name = n) (s : System κ)
    (e : String × ℕ) (n : String) :
    (removeOne rt rules s e).dispatcher.activeRoute n = s.dispatcher.activeRoute n ∨
      n = e.1 ∧ (removeOne rt rules s e).dispatcher.activeRoute n = none := by
  unfold removeOne
  cases hr : rules.lookup e.1 with
  | none => exact .inl rfl
  | some rule =>
    obtain ⟨exec, k, ok, hcall, hexec⟩ := removeRule_cases rt rule e.2 s.execState
    dsimp only
    rw [hcall]
    rcases hexec with rfl | rfl
    · exact .inl rfl
    · have herase := lookup_erase_eq_ite s.dispatcher.executor.activeRoutes rule.name n
      split_ifs at herase with hn
      · exact .inr ⟨hn.trans (hrules e.1 rule hr), herase⟩
      · exact .inl herase

/- A loop that removes routes forgets only names that it works on. -/
theorem entry_run_removed {rules : HashMap String RouteRule}
    (hrules : ∀ n rule, rules.lookup n = some rule → rule.name = n) (todo : List (String × ℕ))
    (s : System κ) (n : String) :
    (run (removeOne rt rules) s todo).dispatcher.activeRoute n = s.dispatcher.activeRoute n ∨
      n ∈ todo.map Prod.fst ∧ (run (removeOne rt rules) s todo).dispatcher.activeRoute n = none := by
  induction todo generalizing s with
  | nil => exact .inl rfl
  | cons e rest ih =>
    rw [run_cons, List.map_cons]
    rcases ih (removeOne rt rules s e) with hsame | ⟨hn, hnone⟩
    · rw [hsame]
      refine (entry_removed rt hrules s e n).imp_right ?_
      rintro ⟨rfl, hnone⟩
      exact ⟨List.mem_cons_self, hnone⟩
    · exact .inr ⟨List.mem_cons_of_mem e.1 hn, hnone⟩

/-! ### Operations -/

variable {rt}

/- The default rules applied for an interface. -/
theorem fate_appliedDefaults {s : System κ} {d : EventDispatcher} {i n : String}
    {op : Dispatch.Op} (ho : Serves i op) (hconfig : s.dispatcher.config = d.config)
    (hentry : s.dispatcher.activeRoute n = d.activeRoute n) :
    Fate d (appliedDefaults rt s i).dispatcher n op := by
  rcases entry_appliedDefaults rt s i n with hsame | ⟨hnone, a, t, ha, hr, ht⟩
  · exact .kept (hsame.trans hentry)
  · rw [hconfig] at hr
    exact .default ho (hentry.symm.trans hnone) ha hr ht

theorem fate_appliedRules {s : System κ} {d : EventDispatcher} {i n : String}
    {op : Dispatch.Op} {ssid : Option String} (ho : Serves i op)
    (hconfig : s.dispatcher.config = d.config)
    (hp : profileFor d op = ssid.bind d.config.wifiProfiles.lookup)
    (hentry : s.dispatcher.activeRoute n = d.activeRoute n) :
    Fate d (appliedRules rt s i ssid).dispatcher n op := by
  unfold appliedRules
  rw [hconfig]
  cases hprofile : ssid.bind d.config.wifiProfiles.lookup with
  | none => exact fate_appliedDefaults ho hconfig hentry
  | some profile =>
    rcases entry_appliedProfile rt s i n profile.rules with hsame | ⟨a, t, ha, hr, ht⟩
    · exact .kept (hsame.trans hentry)
    · exact .profile ho (hp.trans hprofile) ha hr ht

theorem fate_removes {order : RouteOrder} {i : String} {change : InterfaceChange} {s : System κ}
    {n : String}
    (hends : ∀ a : ActiveRoute, a.interface = i →
      Ends a (.handleEvent order (.interfaceChanged i change))) :
    Fate s.dispatcher (run (removeOne rt (EventDispatcher.rulesMap s.dispatcher.config)) s
        (EventDispatcher.dependentRoutes order s.dispatcher.executor.activeRoutes i)).dispatcher n
      (.handleEvent order (.interfaceChanged i change)) := by
  rcases entry_run_removed rt (EventDispatcher.rulesMap_name s.dispatcher.config)
    (EventDispatcher.dependentRoutes order s.dispatcher.executor.activeRoutes i) s n with
    hsame | ⟨hn, hnone⟩
  · exact .kept hsame
  · obtain ⟨⟨name, t⟩, hm, rfl⟩ := List.mem_map.mp hn
    obtain ⟨a, ha, hi, _⟩ := (EventDispatcher.mem_dependentRoutes order _ i name t).mp hm
    exact .ended ha (hends a hi) hnone

theorem fate_reacted (order : RouteOrder) (event : NetworkEvent) (s : System κ) (n : String) :
    Fate s.dispatcher (reacted rt order s event).dispatcher n (.handleEvent order event) := by
  cases event with
  | interfaceChanged i change =>
    cases change with
    | down => exact fate_removes fun _ h => h
    | removed => exact fate_removes fun _ h => h
    | added => exact .kept rfl
    | up =>
      simp only [reacted]
      split_ifs
      · exact fate_appliedDefaults rfl rfl rfl
      · exact .kept rfl
  | wifiConnected i ssid =>
    have ho : Serves i (.handleEvent order (.wifiConnected i ssid)) := rfl
    exact fate_appliedRules (s := { s with dispatcher := s.dispatcher.recordSsid i ssid }) ho rfl
      rfl rfl
  | wifiDisconnected i last =>
    have ho : Serves i (.handleEvent order (.wifiDisconnected i last)) := rfl
    exact fate_appliedDefaults (s := { s with dispatcher := s.dispatcher.forgetSsid i }) ho rfl rfl
  | addressChanged i added removed => exact fate_appliedRules rfl rfl rfl rfl
  | routeChanged i destination gateway added => exact .kept rfl

/- What an event tells of the network has no part in it. -/
theorem Fate.observing {d d' : EventDispatcher} {n : String} {op : Dispatch.Op}
    {event : NetworkEvent} (h : Fate (d.observing event) d' n op) : Fate d d' n op := by
  cases h with
  | kept h => exact .kept h
  | ended ha he h => exact .ended ha he h
  | default ho hnone h hr ht => exact .default ho hnone h hr ht
  | profile ho hp h hr ht =>
    refine .profile ho ?_ h hr ht
    rw [← hp]
    cases op with
    | handleEvent order event => cases event <;> rfl
    | start => rfl
    | stop => rfl
    | applyInitialState interfaces => rfl
    | updateConfig config => rfl

/- The default rules are applied for one interface after another. -/
theorem entry_run_appliedDefaults (rt : Rtnetlink κ) (names : List String) (s : System κ)
    (n : String) :
    (run (appliedDefaults rt) s names).dispatcher.activeRoute n = s.dispatcher.activeRoute n ∨
      s.dispatcher.activeRoute n = none ∧ ∃ i ∈ names, ∃ a t,
        (run (appliedDefaults rt) s names).dispatcher.activeRoute n = some a ∧
          RecordedBy s.dispatcher.config.routing.defaultRules t n a ∧
          TableOf (run (appliedDefaults rt) s names).dispatcher i t := by
  induction names generalizing s with
  | nil => exact .inl rfl
  | cons i rest ih =>
    have hconfig : (appliedDefaults rt s i).dispatcher.config = s.dispatcher.config :=
      (appliedDefaults_view rt s i).config
    rw [run_cons]
    rcases ih (appliedDefaults rt s i) with hsame | ⟨hnone, j, hj, a, t, ha, hr, ht⟩
    · rw [hsame]
      refine (entry_appliedDefaults rt s i n).imp_right ?_
      rintro ⟨hnone, a, t, ha, hr, ht⟩
      refine ⟨hnone, i, List.mem_cons_self, a, t, ha, hr, ?_⟩
      exact run_preserves (appliedDefaults rt) (fun s' => TableOf s'.dispatcher i t)
        (fun _ j h => h.appliedDefaults rt j) _ rest ht
    · rw [hconfig] at hr
      rcases entry_appliedDefaults rt s i n with hsame | ⟨_, b, _, hb, _⟩
      · exact .inr ⟨hsame ▸ hnone, j, List.mem_cons_of_mem i hj, a, t, ha, hr, ht⟩
      · rw [hb] at hnone
        cases hnone

theorem fate_applyInitialState (interfaces : List InterfaceInfo) (s : System κ) (n : String) :
    Fate s.dispatcher (after (Dispatch.applyInitialState rt interfaces) s).dispatcher n
      (.applyInitialState interfaces) := by
  obtain ⟨k, hk⟩ := sweep_ok rt s.execState
  have hswept : (swept rt interfaces s).dispatcher = s.dispatcher.withInterfaces interfaces := by
    rw [swept, after_ok hk]
    rfl
  have hentry : (swept rt interfaces s).dispatcher.activeRoute n = s.dispatcher.activeRoute n := by
    rw [hswept]
    rfl
  have hconfig : (swept rt interfaces s).dispatcher.config = s.dispatcher.config := by
    rw [hswept]
    rfl
  rw [applyInitialState_after]
  rcases entry_run_appliedDefaults rt (s.dispatcher.upNames interfaces) (swept rt interfaces s) n with
    hsame | ⟨hnone, i, hi, a, t, ha, hr, ht⟩
  · exact .kept (hsame.trans hentry)
  · rw [hconfig] at hr
    obtain ⟨info, hm, hname⟩ := List.mem_map.mp hi
    exact .default ⟨info, (List.mem_filter.mp hm).1, hname⟩ (hentry.symm.trans hnone) ha hr ht

/-- What becomes of an entry in one operation, whatever the kernel answers. -/
theorem perform_fate (rt : Rtnetlink κ) (s : System κ) (op : Dispatch.Op) (n : String) :
    Fate s.dispatcher (Dispatch.perform rt s op).dispatcher n op := by
  cases op with
  | start =>
    have hsame : s.dispatcher.start.activeRoute n = s.dispatcher.activeRoute n := by
      unfold EventDispatcher.start
      split_ifs <;> rfl
    exact .kept hsame
  | updateConfig config => exact .kept rfl
  | applyInitialState interfaces => exact fate_applyInitialState interfaces s n
  | stop =>
    have hcleared : s.dispatcher.stop.activeRoute n = none := AList.lookup_empty n
    rcases Option.eq_none_or_eq_some (s.dispatcher.activeRoute n) with hnone | ⟨a, ha⟩
    · exact .kept (hcleared.trans hnone.symm)
    · exact .ended ha trivial hcleared
  | handleEvent order event =>
    show Fate _ (after (Dispatch.handleEvent rt order event) s).dispatcher n _
    by_cases hr : s.dispatcher.state = .running
    · rw [handleEvent_after rt order event hr]
      exact (fate_reacted order event (observed event s) n).observing
    · rw [handleEvent_idle rt order event hr]
      exact .kept rfl

/-! ### Runs -/

/- The operation applies a rule of the name with the profile of a network. -/
def Overwrites (d : EventDispatcher) (n : String) (op : Dispatch.Op) : Prop :=
  ∃ profile rule, profileFor d op = some profile ∧ rule ∈ profile.rules ∧ rule.name = n

/- An active route stays as it is until an operation that withdraws it or applies a rule of its
name with a profile: where it has changed, there was a first such operation, and up to it the
route was the same. -/
theorem changed_by (rt : Rtnetlink κ) (s : System κ) (ops : List Dispatch.Op) (n : String)
    (a : ActiveRoute) (h0 : s.dispatcher.activeRoute n = some a)
    (h : (run (Dispatch.perform rt) s ops).dispatcher.activeRoute n ≠ some a) :
    ∃ pre op, pre ++ [op] <+: ops ∧
      (∀ pre', pre' <+: pre →
        (run (Dispatch.perform rt) s pre').dispatcher.activeRoute n = some a) ∧
      (Ends a op ∨ Overwrites (run (Dispatch.perform rt) s pre).dispatcher n op) := by
  induction ops generalizing s with
  | nil => exact absurd h0 h
  | cons op ops ih =>
    by_cases hstep : (Dispatch.perform rt s op).dispatcher.activeRoute n = some a
    · obtain ⟨pre, op', ⟨rest, hpre⟩, hall, hop⟩ := ih (Dispatch.perform rt s op) hstep h
      refine ⟨op :: pre, op', ⟨rest, congrArg (op :: ·) hpre⟩, ?_, hop⟩
      intro pre' hpre'
      cases pre' with
      | nil => exact h0
      | cons x xs =>
        obtain ⟨rfl, hxs⟩ := List.cons_prefix_cons.mp hpre'
        exact hall xs hxs
    · refine ⟨[], op, ⟨ops, rfl⟩, fun pre' hpre' => List.prefix_nil.mp hpre' ▸ h0, ?_⟩
      cases perform_fate rt s op n with
      | kept hsame => exact absurd (hsame.trans h0) hstep
      | ended ha he _ =>
        rw [h0] at ha
        cases ha
        exact .inl he
      | default _ hnone _ _ _ =>
        rw [h0] at hnone
        cases hnone
      | profile _ hp _ hr _ =>
        obtain ⟨rule, hm, hn, _⟩ := hr
        exact .inr ⟨_, rule, hp, hm, hn⟩

/- The configurations that a run puts into force. -/
def configurations (ops : List Dispatch.Op) : List Config :=
  ops.filterMap fun op =>
    match op with
    | .updateConfig config => some config
    | _ => none

/-- The configuration meets `C`, and each entry is what a valid rule of one that meets it says, in
a table that the manager hands out for some index. -/
structure From (C : Config → Prop) (rm : RouteManager) (d : EventDispatcher) : Prop where
  config : C d.config
  manager : d.executor.routeManager = rm
  bounded : Bounded d.interfaceIndices
  entries : ∀ n a, d.activeRoute n = some a → ∃ config index, C config ∧ index ≤ u8Max ∧
    RecordedBy config.allRules (rm.tableIdV4 index) n a

theorem profileFor_known {d : EventDispatcher} {op : Dispatch.Op} {profile : WifiProfile}
    (h : profileFor d op = some profile) :
    ∃ ssid, d.config.wifiProfiles.lookup ssid = some profile := by
  unfold profileFor at h
  split at h
  · exact ⟨_, h⟩
  · obtain ⟨ssid, _, hl⟩ := Option.bind_eq_some_iff.mp h
    exact ⟨ssid, hl⟩
  · cases h

theorem config_perform (rt : Rtnetlink κ) (s : System κ) (op : Dispatch.Op) :
    (Dispatch.perform rt s op).dispatcher.config = s.dispatcher.config ∨
      op = .updateConfig (Dispatch.perform rt s op).dispatcher.config := by
  cases op with
  | updateConfig config => exact .inr rfl
  | stop => exact .inl rfl
  | start =>
    refine .inl ?_
    show s.dispatcher.start.config = _
    unfold EventDispatcher.start
    split_ifs <;> rfl
  | applyInitialState interfaces => exact .inl (applyInitialState_view rt interfaces s).config
  | handleEvent order event =>
    refine .inl ?_
    by_cases hr : s.dispatcher.state = .running
    · refine (handleEvent_view rt order event hr).config.trans ?_
      cases event <;> rfl
    · exact congrArg (fun s : System κ => s.dispatcher.config) (handleEvent_idle rt order event hr)

theorem callsKeep_manager (rt : Rtnetlink κ) (rm : RouteManager) :
    CallsKeep rt fun s => s.executor.routeManager = rm where
  apply rule t s hs := by
    obtain ⟨e, k, ok, he, hexec⟩ := applyRule_cases rt rule t s
    rw [he]
    rcases hexec with rfl | rfl <;> exact hs
  remove rule t s hs := by
    obtain ⟨e, k, ok, he, hexec⟩ := removeRule_cases rt rule t s
    rw [he]
    rcases hexec with rfl | rfl <;> exact hs
  cleanup s hs := by
    obtain ⟨k, hk⟩ := sweep_ok rt s
    rw [after_ok hk]
    exact hs

theorem manager_perform (rt : Rtnetlink κ) (s : System κ) (op : Dispatch.Op) :
    (Dispatch.perform rt s op).dispatcher.executor.routeManager =
      s.dispatcher.executor.routeManager :=
  perform_keeps_all (callsKeep_manager rt s.dispatcher.executor.routeManager) (fun _ h => h) op rfl

/-! ### Indices -/

theorem bounded_appliedDefaults {k : Knowledge} (h : Bounded k.interfaceIndices) (i : String) :
    Bounded (k.appliedDefaults i).interfaceIndices := by
  unfold Knowledge.appliedDefaults
  split_ifs
  · exact h
  · exact (bounded_indexForInterface h i).2

theorem bounded_appliedRules {k : Knowledge} (h : Bounded k.interfaceIndices) (i : String)
    (ssid : Option String) : Bounded (k.appliedRules i ssid).interfaceIndices := by
  unfold Knowledge.appliedRules
  split
  · exact (bounded_indexForInterface h i).2
  · exact bounded_appliedDefaults h i

theorem bounded_reacted {k : Knowledge} (h : Bounded k.interfaceIndices) (event : NetworkEvent) :
    Bounded (k.reacted event).interfaceIndices := by
  cases event with
  | interfaceChanged i change =>
    cases change with
    | up =>
      show Bounded (if k.shouldApply i then k.appliedDefaults i else k).interfaceIndices
      split_ifs
      · exact bounded_appliedDefaults h i
      · exact h
    | down => exact h
    | added => exact h
    | removed => exact h
  | wifiConnected i ssid =>
    exact bounded_appliedRules (k := { k with currentSsids := k.currentSsids.insert i ssid }) h i _
  | wifiDisconnected i last =>
    exact bounded_appliedDefaults (k := { k with currentSsids := k.currentSsids.erase i }) h i
  | addressChanged i added removed => exact bounded_appliedRules h i _
  | routeChanged i destination gateway added => exact h

theorem bounded_told {k : Knowledge} (h : Bounded k.interfaceIndices) (op : Dispatch.Op) :
    Bounded (k.told op).interfaceIndices := by
  cases op with
  | start => exact h
  | stop => exact h
  | updateConfig config => exact bounded_rebuildIndices h _ _ bounded_empty
  | applyInitialState interfaces =>
    exact run_preserves Knowledge.appliedDefaults (fun k => Bounded k.interfaceIndices)
      (fun _ i hk => bounded_appliedDefaults hk i)
      { k with networkState := interfaces.foldl NetworkState.updateInterface k.networkState } _ h
  | handleEvent order event =>
    unfold Knowledge.told
    dsimp only
    split_ifs
    · exact bounded_reacted (k := { k with networkState := k.networkState.observe event }) h event
    · exact h

theorem bounded_perform (rt : Rtnetlink κ) {s : System κ}
    (h : Bounded s.dispatcher.interfaceIndices) (op : Dispatch.Op) :
    Bounded (Dispatch.perform rt s op).dispatcher.interfaceIndices := by
  have hknown := congrArg Knowledge.interfaceIndices (knowledge_perform rt s op)
  have htold := bounded_told (k := s.dispatcher.knowledge) h op
  rw [← hknown] at htold
  exact htold

/-! ### Whole runs -/

/- An entry that an operation makes. -/
theorem RecordedBy.handed {rm : RouteManager} {d : EventDispatcher} {i n : String} {t : ℕ}
    {a : ActiveRoute} {rules rules' : List RouteRule} (h : RecordedBy rules t n a)
    (hs : rules ⊆ rules') (ht : TableOf d i t) (hb : Bounded d.interfaceIndices)
    (hm : d.executor.routeManager = rm) :
    ∃ index, index ≤ u8Max ∧ RecordedBy rules' (rm.tableIdV4 index) n a := by
  obtain ⟨index, hi, rfl⟩ := ht
  rw [hm] at h
  exact ⟨index, hb i index hi, h.mono hs⟩

theorem from_step {C : Config → Prop} {rm : RouteManager} {s : System κ} {op : Dispatch.Op}
    (hop : ∀ config, op = .updateConfig config → C config) (h : From C rm s.dispatcher) :
    From C rm (Dispatch.perform rt s op).dispatcher := by
  have hmanager := (manager_perform rt s op).trans h.manager
  have hbounded := bounded_perform rt h.bounded op
  refine ⟨?_, hmanager, hbounded, fun n a ha => ?_⟩
  · rcases config_perform rt s op with hsame | hnew
    · rw [hsame]
      exact h.config
    · exact hop _ hnew
  · cases perform_fate rt s op n with
    | kept hsame => exact h.entries n a (hsame.symm.trans ha)
    | ended _ _ hnone =>
      rw [hnone] at ha
      cases ha
    | default _ _ hsome hr ht =>
      rw [hsome] at ha
      cases ha
      obtain ⟨index, hi, hrecorded⟩ := hr.handed (fun rule hm =>
        (Config.mem_allRules s.dispatcher.config rule).mpr (.inl hm)) ht hbounded hmanager
      exact ⟨_, index, h.config, hi, hrecorded⟩
    | profile _ hp hsome hr ht =>
      rw [hsome] at ha
      cases ha
      obtain ⟨ssid, hl⟩ := profileFor_known hp
      obtain ⟨index, hi, hrecorded⟩ := hr.handed (fun rule hm =>
        (Config.mem_allRules s.dispatcher.config rule).mpr (.inr ⟨ssid, _, hl, hm⟩)) ht hbounded
        hmanager
      exact ⟨_, index, h.config, hi, hrecorded⟩

theorem from_launch {C : Config → Prop} {config : Config} (hc : C config) (rm : RouteManager)
    (k : κ) : From C rm (Dispatch.launch config rm k).dispatcher := by
  refine ⟨hc, rfl, bounded_preassign _ 0 bounded_empty, fun n a ha => ?_⟩
  have hnone : (Dispatch.launch config rm k).dispatcher.activeRoute n = none :=
    AList.lookup_empty n
  rw [hnone] at ha
  cases ha

/- Whatever requests fail, each active route is what a valid rule of its name says, in a
configuration that the run has had in force, and in a table of the route manager. -/
theorem active_from_rule (rt : Rtnetlink κ) (config : Config) (rm : RouteManager) (k : κ)
    (ops : List Dispatch.Op) :
    Throughout (Dispatch.perform rt)
      (fun s => From (· ∈ config :: configurations ops) rm s.dispatcher)
      (Dispatch.launch config rm k) ops := by
  apply throughout_of_invariant (Dispatch.perform rt)
    (fun s => From (· ∈ config :: configurations ops) rm s.dispatcher)
    (fun op => ∀ c, op = .updateConfig c → c ∈ config :: configurations ops)
    (fun _ _ hop h => from_step hop h)
  · rintro op hop c rfl
    exact List.mem_cons_of_mem config (List.mem_filterMap.mpr ⟨_, hop, rfl⟩)
  · exact from_launch List.mem_cons_self rm k

/- The route of eth0 is in force, then eth0 goes down. -/
theorem changed_by_down : ∃ pre op,
    pre ++ [op] <+: [.handleEvent .asListed (.interfaceChanged "eth0" .down)] ∧
      (∀ pre', pre' <+: pre →
        (run (Dispatch.perform grantAll) withRoute pre').dispatcher.activeRoute "lan" =
          some ⟨"lan", "eth0", 100⟩) ∧
      (Ends ⟨"lan", "eth0", 100⟩ op ∨
        Overwrites (run (Dispatch.perform grantAll) withRoute pre).dispatcher "lan" op) := by
  refine changed_by grantAll withRoute [.handleEvent .asListed (.interfaceChanged "eth0" .down)]
    "lan" ⟨"lan", "eth0", 100⟩ ?_ ?_
  · decide
  · decide

end NicAutoswitch.Engine.RouteLifetime
