import NicAutoswitch.Engine.Granted

/-!
# The active routes, entry by entry

What each operation does to the entry of a given rule name when every request is
granted.
-/

namespace NicAutoswitch.Engine
open HashMaps Schema Monitor Router StateProg Transition

/- The entry that a rule is recorded with. -/
def entryOf (t : ℕ) (rule : RouteRule) : ActiveRoute :=
  ⟨rule.name, rule.routeVia.interface, t⟩

/- The first rule of the name that can be installed: the one that applying the
default rules records. -/
def firstInstallable (rules : List RouteRule) (n : String) : Option RouteRule :=
  rules.find? fun rule => rule.name = n ∧ RuleOperator.Installable rule

/- The last one: the one whose record is left by applying a profile. -/
def lastInstallable (rules : List RouteRule) (n : String) : Option RouteRule :=
  firstInstallable rules.reverse n

theorem firstInstallable_spec {rules : List RouteRule} {n : String} {rule : RouteRule}
    (h : firstInstallable rules n = some rule) :
    rule ∈ rules ∧ rule.name = n ∧ RuleOperator.Installable rule := by
  have hp := List.find?_some h
  have hm := List.mem_of_find?_eq_some h
  exact ⟨hm, by simpa using hp⟩

theorem lastInstallable_spec {rules : List RouteRule} {n : String} {rule : RouteRule}
    (h : lastInstallable rules n = some rule) :
    rule ∈ rules ∧ rule.name = n ∧ RuleOperator.Installable rule := by
  have hs := firstInstallable_spec h
  exact ⟨List.mem_reverse.mp hs.1, hs.2⟩

theorem firstInstallable_isSome {rules : List RouteRule} {rule : RouteRule} (hm : rule ∈ rules)
    (hi : RuleOperator.Installable rule) : ∃ r, firstInstallable rules rule.name = some r := by
  have hs : (firstInstallable rules rule.name).isSome := by
    unfold firstInstallable
    rw [List.find?_isSome]
    exact ⟨rule, hm, by simpa using hi⟩
  exact Option.isSome_iff_exists.mp hs

theorem firstInstallable_cons (rule : RouteRule) (rest : List RouteRule) (n : String) :
    firstInstallable (rule :: rest) n =
      if rule.name = n ∧ RuleOperator.Installable rule then some rule
      else firstInstallable rest n := by
  unfold firstInstallable
  rw [List.find?_cons]
  split_ifs with h <;> simp [h]

namespace RuleExecutor

theorem lookup_grant (e : RuleExecutor) (rule : RouteRule) (t : ℕ) (n : String) :
    (e.grant rule t).activeRoutes.lookup n =
      if rule.name = n ∧ RuleOperator.Installable rule then some (entryOf t rule)
      else e.activeRoutes.lookup n := by
  unfold grant
  by_cases hi : RuleOperator.Installable rule
  · simp only [hi, if_true, and_true, trackActiveRoute, lookup_insert_eq_ite, eq_comm]
    rfl
  · simp only [hi, if_false, and_false]

theorem isRouteActive_iff (e : RuleExecutor) (n : String) :
    e.isRouteActive n = true ↔ ∃ a, e.activeRoutes.lookup n = some a := by
  unfold isRouteActive
  rw [decide_eq_true_iff, mem_iff_lookup]

theorem lookup_grantDefaults (t : ℕ) (rules : List RouteRule) (e : RuleExecutor) (n : String) :
    (grantDefaults t rules e).activeRoutes.lookup n =
      (e.activeRoutes.lookup n).or ((firstInstallable rules n).map (entryOf t)) := by
  induction rules generalizing e with
  | nil => simp [grantDefaults, firstInstallable]
  | cons rule rest ih =>
    rw [firstInstallable_cons]
    by_cases ha : e.isRouteActive rule.name = true
    · rw [grantDefaults_active t rest ha, ih]
      obtain ⟨a, hl⟩ := (isRouteActive_iff e rule.name).mp ha
      split_ifs with hn
      · rw [← hn.1, hl]
        rfl
      · rfl
    · rw [grantDefaults_fresh t rest ha, ih, lookup_grant]
      have hnone : e.activeRoutes.lookup rule.name = none := by
        cases hl : e.activeRoutes.lookup rule.name with
        | none => rfl
        | some a => exact absurd ((isRouteActive_iff e rule.name).mpr ⟨a, hl⟩) ha
      split_ifs with hn
      · rw [← hn.1, hnone]
        rfl
      · rfl

theorem lookup_grantRules (t : ℕ) (rules : List RouteRule) (e : RuleExecutor) (n : String) :
    (grantRules t rules e).activeRoutes.lookup n =
      ((lastInstallable rules n).map (entryOf t)).or (e.activeRoutes.lookup n) := by
  refine run_last (fun e rule => grant e rule t) (fun e => e.activeRoutes.lookup n)
    (fun rule => decide (rule.name = n ∧ RuleOperator.Installable rule)) (entryOf t)
    (fun _ => True) (fun _ _ h => h) (fun e rule _ => ?_) e rules trivial
  simp only [decide_eq_true_eq]
  exact lookup_grant e rule t n

end RuleExecutor

namespace EventDispatcher

/- The rule under a name is the last one of that name. -/
theorem lookup_rulesMap (config : Config) (n : String) :
    (rulesMap config).lookup n =
      config.allRules.reverse.find? fun rule => decide (rule.name = n) := by
  have hlast := run_last (fun (map : HashMap String RouteRule) r => map.insert r.name r)
    (fun map => map.lookup n) (fun rule => decide (rule.name = n)) id (fun _ => True)
    (fun _ _ h => h)
    (fun map rule _ => by
      simp only [decide_eq_true_eq, eq_comm (a := rule.name)]
      exact lookup_insert_eq_ite map rule.name n rule) ∅ config.allRules trivial
  rw [Option.map_id_fun, id, AList.lookup_empty, Option.or_none] at hlast
  exact hlast

theorem rulesMap_spec {config : Config} {n : String} {rule : RouteRule}
    (h : (rulesMap config).lookup n = some rule) :
    rule ∈ config.allRules ∧ rule.name = n := by
  rw [lookup_rulesMap] at h
  have hp := List.find?_some h
  have hm := List.mem_of_find?_eq_some h
  exact ⟨List.mem_reverse.mp hm, of_decide_eq_true hp⟩

theorem rulesMap_name (config : Config) (n : String) (rule : RouteRule)
    (h : (rulesMap config).lookup n = some rule) : rule.name = n := (rulesMap_spec h).2

theorem rulesMap_of_distinct {config : Config} (hc : config.DistinctNames) {rule : RouteRule}
    (h : rule ∈ config.allRules) : (rulesMap config).lookup rule.name = some rule := by
  have hs : ((rulesMap config).lookup rule.name).isSome := by
    rw [lookup_rulesMap, List.find?_isSome]
    exact ⟨rule, List.mem_reverse.mpr h, by simp⟩
  obtain ⟨r, hr⟩ := Option.isSome_iff_exists.mp hs
  obtain ⟨hm, hn⟩ := rulesMap_spec hr
  rw [hr, config.rule_eq_of_name hc hm h hn]

theorem mem_dependentRoutes (order : RouteOrder) (active : HashMap String ActiveRoute)
    (i n : String) (t : ℕ) :
    (n, t) ∈ dependentRoutes order active i ↔
      ∃ a, active.lookup n = some a ∧ a.interface = i ∧ a.tableId = t := by
  simp only [dependentRoutes, List.mem_map, List.mem_filter, IterOrder.mem_arrange, beq_iff_eq,
    Prod.mk.injEq]
  apply Iff.intro
  · intro h
    obtain ⟨⟨m, a⟩, ⟨hm, hi⟩, hn, ht⟩ := h
    subst hn
    exact ⟨a, (mem_entries_iff active _ a).mp hm, hi, ht⟩
  · intro h
    obtain ⟨a, hl, hi, ht⟩ := h
    exact ⟨⟨n, a⟩, ⟨(mem_entries_iff active n a).mpr hl, hi⟩, rfl, ht⟩

theorem dependentRoutes_nodup (order : RouteOrder) (active : HashMap String ActiveRoute)
    (i : String) : ((dependentRoutes order active i).map Prod.fst).Nodup := by
  have hkeys : (order.arrange active.entries).NodupKeys :=
    (List.perm_nodupKeys (order.perm _)).mpr active.nodupKeys
  have hsub : ((order.arrange active.entries).filter fun e => e.2.interface == i).NodupKeys :=
    hkeys.sublist List.filter_sublist
  unfold dependentRoutes
  rw [List.map_map]
  exact hsub

/- A removal of the route goes through: its rule is configured, it has a destination,
and its table is accepted. -/
def Removable (d : EventDispatcher) (n : String) (t : ℕ) : Prop :=
  ∃ rule, (rulesMap d.config).lookup n = some rule ∧ (RuleOperator.target? rule).isSome ∧
    d.executor.routeManager.Withdrawable t

end EventDispatcher

theorem RuleExecutor.lookup_withdraw (e : RuleExecutor) (rule : RouteRule) (t : ℕ) (n : String) :
    (e.withdraw rule t).activeRoutes.lookup n =
      if rule.name = n ∧ (RuleOperator.target? rule).isSome ∧ e.routeManager.Withdrawable t then
        none
      else e.activeRoutes.lookup n := by
  unfold withdraw
  by_cases hw : (RuleOperator.target? rule).isSome ∧ e.routeManager.Withdrawable t
  · simp only [hw, if_true, and_true, untrackActiveRoute, lookup_erase_eq_ite, eq_comm]
  · simp only [hw, if_false, and_false]

theorem RuleExecutor.lookup_withdrawAll (rules : HashMap String RouteRule)
    (hrules : ∀ m rule, rules.lookup m = some rule → rule.name = m) (todo : List (String × ℕ))
    (e : RuleExecutor) (n : String) (a : ActiveRoute) :
    (withdrawAll rules todo e).activeRoutes.lookup n = some a ↔
      e.activeRoutes.lookup n = some a ∧ ∀ t, (n, t) ∈ todo →
        ¬ ∃ rule, rules.lookup n = some rule ∧ (RuleOperator.target? rule).isSome ∧
          e.routeManager.Withdrawable t := by
  induction todo generalizing e with
  | nil => simp [withdrawAll]
  | cons entry rest ih =>
    obtain ⟨m, t⟩ := entry
    rw [withdrawAll]
    cases hm : rules.lookup m with
    | none =>
      simp only [ih, List.mem_cons]
      refine and_congr Iff.rfl ⟨?_, fun h t' ht' => h t' (Or.inr ht')⟩
      intro h t' ht'
      rcases ht' with heq | hmem
      · cases heq
        rw [hm]
        exact fun hx => by obtain ⟨r, hr, _⟩ := hx; cases hr
      · exact h t' hmem
    | some rule =>
      have hname := hrules m rule hm
      simp only [ih, List.mem_cons, lookup_withdraw, withdraw_routeManager]
      apply Iff.intro
      · intro h
        obtain ⟨hl, hrest⟩ := h
        split_ifs at hl with hw
        refine ⟨hl, ?_⟩
        intro t' ht'
        rcases ht' with heq | hmem
        · cases heq
          intro hx
          obtain ⟨r, hr, hx⟩ := hx
          rw [hm] at hr
          cases hr
          exact hw ⟨hname, hx⟩
        · exact hrest t' hmem
      · intro h
        obtain ⟨hl, hall⟩ := h
        refine ⟨?_, fun t' ht' => hall t' (Or.inr ht')⟩
        rw [if_neg, hl]
        intro hw
        have hmn : m = n := hname.symm.trans hw.1
        subst hmn
        exact hall t (Or.inl rfl) ⟨rule, hm, hw.2⟩

/-! ### The dispatcher -/

namespace EventDispatcher

abbrev activeRoute (d : EventDispatcher) (n : String) : Option ActiveRoute :=
  d.executor.activeRoutes.lookup n

theorem forall_dependentRoutes (order : RouteOrder) (d : EventDispatcher) (i : String)
    (P : String × ℕ → Prop) :
    (∀ e ∈ dependentRoutes order d.executor.activeRoutes i, P e) ↔
      ∀ n a, d.activeRoute n = some a → a.interface = i → P (n, a.tableId) := by
  have hmem := mem_dependentRoutes order d.executor.activeRoutes i
  refine ⟨fun h n a ha hi => ?_, fun h e he => ?_⟩
  · exact h (n, a.tableId) ((hmem n a.tableId).mpr ⟨a, ha, hi, rfl⟩)
  · obtain ⟨a, ha, hi, ht⟩ := (hmem e.1 e.2).mp he
    have h1 := h e.1 a ha hi
    rw [ht] at h1
    exact h1

theorem activeRoute_grantedDown (d : EventDispatcher) (order : RouteOrder) (i n : String)
    (a : ActiveRoute) :
    (d.grantedDown order i).activeRoute n = some a ↔
      d.activeRoute n = some a ∧ ¬ (a.interface = i ∧ d.Removable n a.tableId) := by
  unfold grantedDown activeRoute
  rw [mapExecutor_executor, RuleExecutor.lookup_withdrawAll _ (rulesMap_name d.config)]
  refine and_congr_right fun hl => ?_
  refine ⟨?_, ?_⟩
  · intro h hx
    exact h a.tableId ((mem_dependentRoutes order _ i n _).mpr ⟨a, hl, hx.1, rfl⟩) hx.2
  · intro h t ht hx
    obtain ⟨a', hl', hi, hta⟩ := (mem_dependentRoutes order _ i n t).mp ht
    rw [hl] at hl'
    cases hl'
    subst hta
    exact h ⟨hi, hx⟩

theorem activeRoute_grantedDefaults (d : EventDispatcher) (i n : String) :
    (d.grantedDefaults i).activeRoute n =
      (d.activeRoute n).or ((firstInstallable d.config.routing.defaultRules n).map
        (entryOf (d.getTableIdForInterface i).1)) := by
  unfold grantedDefaults
  by_cases he : d.config.routing.defaultRules.isEmpty = true
  · rw [if_pos he, List.isEmpty_iff.mp he]
    exact (Option.or_none).symm
  · rw [if_neg he]
    exact RuleExecutor.lookup_grantDefaults _ _ d.executor n

/- What is active after the default rules was so before, or is of the first of its name. -/
theorem active_grantedDefaults {d : EventDispatcher} {i n : String} {a : ActiveRoute}
    (h : (d.grantedDefaults i).activeRoute n = some a) :
    d.activeRoute n = some a ∨ d.activeRoute n = none ∧
      ∃ rule, firstInstallable d.config.routing.defaultRules n = some rule ∧
        entryOf (d.getTableIdForInterface i).1 rule = a := by
  rw [activeRoute_grantedDefaults] at h
  rcases Option.or_eq_some_iff.mp h with hold | ⟨hnone, hnew⟩
  · exact Or.inl hold
  · exact Or.inr ⟨hnone, Option.map_eq_some_iff.mp hnew⟩

theorem activeRoute_grantedRulesFor_profile {d : EventDispatcher} {ssid : Option String}
    {profile : WifiProfile} (i n : String)
    (h : ssid.bind d.config.wifiProfiles.lookup = some profile) :
    (d.grantedRulesFor i ssid).activeRoute n =
      ((lastInstallable profile.rules n).map (entryOf (d.getTableIdForInterface i).1)).or
        (d.activeRoute n) := by
  unfold grantedRulesFor
  rw [h]
  exact RuleExecutor.lookup_grantRules _ _ d.executor n

/- After the rules of a profile, it is of the last of its name, or was so before. -/
theorem active_grantedRulesFor_profile {d : EventDispatcher} {ssid : Option String}
    {profile : WifiProfile} {i n : String} {a : ActiveRoute}
    (hp : ssid.bind d.config.wifiProfiles.lookup = some profile)
    (h : (d.grantedRulesFor i ssid).activeRoute n = some a) :
    (∃ rule, lastInstallable profile.rules n = some rule ∧
        entryOf (d.getTableIdForInterface i).1 rule = a) ∨ d.activeRoute n = some a := by
  rw [activeRoute_grantedRulesFor_profile i n hp] at h
  rcases Option.or_eq_some_iff.mp h with hnew | ⟨_, hold⟩
  · exact Or.inl (Option.map_eq_some_iff.mp hnew)
  · exact Or.inr hold

theorem grantedRulesFor_none {d : EventDispatcher} {ssid : Option String} (i : String)
    (h : ssid.bind d.config.wifiProfiles.lookup = none) :
    d.grantedRulesFor i ssid = d.grantedDefaults i := by
  unfold grantedRulesFor
  rw [h]

/- Two dispatchers that differ in their executor and their indices alone. -/
structure SameView (d d' : EventDispatcher) : Prop where
  config : d'.config = d.config
  networkState : d'.networkState = d.networkState
  currentSsids : d'.currentSsids = d.currentSsids
  state : d'.state = d.state

theorem SameView.refl (d : EventDispatcher) : SameView d d := ⟨rfl, rfl, rfl, rfl⟩

theorem SameView.trans {d d' d'' : EventDispatcher} (h : SameView d d') (h' : SameView d' d'') :
    SameView d d'' :=
  ⟨h'.config.trans h.config, h'.networkState.trans h.networkState,
    h'.currentSsids.trans h.currentSsids, h'.state.trans h.state⟩

theorem grantedDefaults_view (d : EventDispatcher) (i : String) :
    SameView d (d.grantedDefaults i) := by
  unfold grantedDefaults
  split
  · exact SameView.refl d
  · exact ⟨rfl, rfl, rfl, rfl⟩

theorem grantedRulesFor_view (d : EventDispatcher) (i : String) (ssid : Option String) :
    SameView d (d.grantedRulesFor i ssid) := by
  unfold grantedRulesFor
  split
  · exact ⟨rfl, rfl, rfl, rfl⟩
  · exact grantedDefaults_view d i

theorem grantedUp_view (d : EventDispatcher) (i : String) : SameView d (d.grantedUp i) := by
  unfold grantedUp
  split
  · exact grantedDefaults_view d i
  · exact SameView.refl d

/- An event reaction changes the record of SSIDs, but nothing else of the view. -/
theorem grantedReaction_fixed (d : EventDispatcher) (order : RouteOrder)
    (event : NetworkEvent) : (d.grantedReaction order event).config = d.config ∧
      (d.grantedReaction order event).networkState = d.networkState ∧
      (d.grantedReaction order event).state = d.state := by
  cases event with
  | interfaceChanged i change =>
    cases change with
    | up =>
      have h1 := grantedUp_view d i
      exact ⟨h1.config, h1.networkState, h1.state⟩
    | down => exact ⟨rfl, rfl, rfl⟩
    | added => exact ⟨rfl, rfl, rfl⟩
    | removed => exact ⟨rfl, rfl, rfl⟩
  | wifiConnected i ssid =>
    have h1 := grantedRulesFor_view (d.recordSsid i ssid) i (some ssid)
    exact ⟨h1.config, h1.networkState, h1.state⟩
  | wifiDisconnected i last =>
    have h1 := grantedDefaults_view (d.forgetSsid i) i
    exact ⟨h1.config, h1.networkState, h1.state⟩
  | addressChanged i added removed =>
    have h1 := grantedRulesFor_view d i (d.currentSsid i)
    exact ⟨h1.config, h1.networkState, h1.state⟩
  | routeChanged i destination gateway added => exact ⟨rfl, rfl, rfl⟩

/- Applying the default rules once more, for another interface, adds nothing. -/
theorem activeRoute_grantedDefaults_twice (d : EventDispatcher) (i j n : String) :
    ((d.grantedDefaults i).grantedDefaults j).activeRoute n =
      (d.grantedDefaults i).activeRoute n := by
  have h1 := activeRoute_grantedDefaults d i n
  have h2 := activeRoute_grantedDefaults (d.grantedDefaults i) j n
  rw [(grantedDefaults_view d i).config] at h2
  rw [h2, h1]
  cases d.activeRoute n <;>
    cases firstInstallable d.config.routing.defaultRules n <;> rfl

theorem activeRoute_foldl_grantedDefaults (name : String) (names : List String)
    (d : EventDispatcher) (n : String) :
    ((name :: names).foldl grantedDefaults d).activeRoute n =
      (d.grantedDefaults name).activeRoute n := by
  induction names generalizing d name with
  | nil => rfl
  | cons other rest ih =>
    rw [List.foldl_cons, ih, activeRoute_grantedDefaults_twice]

theorem foldl_grantedDefaults_view (names : List String) (d : EventDispatcher) :
    SameView d (names.foldl grantedDefaults d) :=
  run_preserves grantedDefaults (SameView d)
    (fun d' name h => h.trans (grantedDefaults_view d' name)) d names (.refl d)

end EventDispatcher

/-! ### Runs under a fixed configuration -/

/- The operations that neither stop the dispatcher nor reload its configuration. -/
def Dispatch.Op.Steady : Dispatch.Op → Prop
  | .start => True
  | .applyInitialState _ => True
  | .handleEvent _ _ => True
  | .stop => False
  | .updateConfig _ => False

/- The dispatcher runs, with this configuration and a manager that can work. -/
structure Live (config : Config) (d : EventDispatcher) : Prop where
  config : d.config = config
  running : d.state = .running
  ready : d.executor.routeManager.Ready

namespace EventDispatcher

theorem grantedEvent_running {d : EventDispatcher} (hr : d.state = .running)
    (order : RouteOrder) (event : NetworkEvent) :
    d.grantedEvent order event = (d.observing event).grantedReaction order event := by
  unfold grantedEvent
  rw [if_neg (not_not.mpr hr)]

theorem live_granted {config : Config} {d : EventDispatcher} {op : Dispatch.Op}
    (hop : op.Steady) (h : Live config d) : Live config (d.granted op) := by
  have hrm := (granted_routeManager d op).symm ▸ h.ready
  cases op with
  | stop => cases hop
  | updateConfig config => cases hop
  | start =>
    have hs : d.start = d := if_pos h.running
    show Live config d.start
    rw [hs]
    exact h
  | applyInitialState interfaces =>
    have hv := foldl_grantedDefaults_view (d.upNames interfaces) (d.withInterfaces interfaces)
    exact ⟨hv.config.trans h.config, hv.state.trans h.running, hrm⟩
  | handleEvent order event =>
    have he : d.granted (.handleEvent order event) = _ := grantedEvent_running h.running order event
    rw [he] at hrm ⊢
    obtain ⟨hc, _, hs⟩ := grantedReaction_fixed (d.observing event) order event
    exact ⟨hc.trans h.config, hs.trans h.running, hrm⟩

theorem live_run {config : Config} {d : EventDispatcher} {ops : List Dispatch.Op}
    (hops : ∀ op ∈ ops, op.Steady) (h : Live config d) : Live config (run granted d ops) :=
  run_invariant granted (Live config) Dispatch.Op.Steady (fun _ _ ho hl => live_granted ho hl)
    d ops hops h

theorem live_launch {κ : Type} (config : Config) {rm : RouteManager} (hr : rm.Ready) (k : κ) :
    Live config (Dispatch.launch config rm k).dispatcher := ⟨rfl, rfl, hr⟩

theorem run_granted {κ : Type} {rt : Rtnetlink κ} (hg : rt.Grants) (s : System κ)
    (ops : List Dispatch.Op) (hr : s.dispatcher.executor.routeManager.Ready) :
    (run (Dispatch.perform rt) s ops).dispatcher = run granted s.dispatcher ops :=
  run_simulates (Dispatch.perform rt) granted System.dispatcher
    (fun d => d.executor.routeManager.Ready)
    (fun d op h => by rw [granted_routeManager]; exact h)
    (fun s op h => perform_granted hg s op h) s ops hr

/-! ### Active routes come from configured rules -/

def FromConfig (d : EventDispatcher) : Prop :=
  ∀ n a, d.activeRoute n = some a → ∃ rule ∈ d.config.allRules,
    rule.name = n ∧ RuleOperator.Installable rule ∧ rule.routeVia.interface = a.interface

theorem fromConfig_grantedDefaults {d : EventDispatcher} (i : String) (h : FromConfig d) :
    FromConfig (d.grantedDefaults i) := by
  intro n a ha
  rw [(grantedDefaults_view d i).config]
  rcases active_grantedDefaults ha with hold | ⟨_, rule, hf, rfl⟩
  · exact h n a hold
  · obtain ⟨hm, hname, hi⟩ := firstInstallable_spec hf
    exact ⟨rule, (Config.mem_allRules _ _).mpr (Or.inl hm), hname, hi, rfl⟩

theorem fromConfig_grantedRulesFor {d : EventDispatcher} (i : String) (ssid : Option String)
    (h : FromConfig d) : FromConfig (d.grantedRulesFor i ssid) := by
  cases hp : ssid.bind d.config.wifiProfiles.lookup with
  | none =>
    rw [grantedRulesFor_none i hp]
    exact fromConfig_grantedDefaults i h
  | some profile =>
    intro n a ha
    rw [(grantedRulesFor_view d i ssid).config]
    rcases active_grantedRulesFor_profile hp ha with ⟨rule, hf, rfl⟩ | hold
    · obtain ⟨hm, hname, hi⟩ := lastInstallable_spec hf
      obtain ⟨s, _, hs⟩ := Option.bind_eq_some_iff.mp hp
      exact ⟨rule, (Config.mem_allRules _ _).mpr (Or.inr ⟨s, profile, hs, hm⟩), hname, hi, rfl⟩
    · exact h n a hold

theorem fromConfig_grantedDown {d : EventDispatcher} (order : RouteOrder) (i : String)
    (h : FromConfig d) : FromConfig (d.grantedDown order i) := by
  intro n a ha
  exact h n a ((activeRoute_grantedDown d order i n a).mp ha).1

theorem fromConfig_foldl {d : EventDispatcher} (names : List String) (h : FromConfig d) :
    FromConfig (names.foldl grantedDefaults d) :=
  run_preserves grantedDefaults FromConfig (fun _ name hd => fromConfig_grantedDefaults name hd)
    d names h

theorem fromConfig_grantedReaction {d : EventDispatcher} (order : RouteOrder)
    (event : NetworkEvent) (h : FromConfig d) : FromConfig (d.grantedReaction order event) := by
  cases event with
  | interfaceChanged i change =>
    cases change with
    | up =>
      show FromConfig (d.grantedUp i)
      unfold grantedUp
      split
      · exact fromConfig_grantedDefaults i h
      · exact h
    | down => exact fromConfig_grantedDown order i h
    | added => exact h
    | removed => exact fromConfig_grantedDown order i h
  | wifiConnected i ssid => exact fromConfig_grantedRulesFor i (some ssid) h
  | wifiDisconnected i last => exact fromConfig_grantedDefaults i h
  | addressChanged i added removed => exact fromConfig_grantedRulesFor i _ h
  | routeChanged i destination gateway added => exact h

theorem fromConfig_granted {d : EventDispatcher} {op : Dispatch.Op} (hop : op.Steady)
    (h : FromConfig d) : FromConfig (d.granted op) := by
  cases op with
  | stop => cases hop
  | updateConfig config => cases hop
  | start =>
    show FromConfig d.start
    unfold start
    split
    · exact h
    · exact h
  | applyInitialState interfaces => exact fromConfig_foldl _ h
  | handleEvent order event =>
    show FromConfig (d.grantedEvent order event)
    unfold grantedEvent
    split
    · exact h
    · exact fromConfig_grantedReaction order event h

theorem fromConfig_run {d : EventDispatcher} {ops : List Dispatch.Op}
    (hops : ∀ op ∈ ops, op.Steady) (h : FromConfig d) : FromConfig (run granted d ops) :=
  run_invariant granted FromConfig Dispatch.Op.Steady (fun _ _ ho hf => fromConfig_granted ho hf)
    d ops hops h

theorem fromConfig_launch {κ : Type} (config : Config) (rm : RouteManager) (k : κ) :
    FromConfig (Dispatch.launch config rm k).dispatcher := by
  intro n a ha
  have hnone : (Dispatch.launch config rm k).dispatcher.activeRoute n = none :=
    AList.lookup_empty n
  rw [hnone] at ha
  cases ha

end EventDispatcher

end NicAutoswitch.Engine
