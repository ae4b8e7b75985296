import NicAutoswitch.Engine.Handlers
import NicAutoswitch.Engine.LinkFlap
import NicAutoswitch.Kernel.Tracking

/-!
# Reloading against starting afresh

A reload replaces the configuration and leaves what is installed. The Up events that
follow apply the default rules of the new configuration, but skip every name that is
active, whatever rule is installed under it.
-/

namespace NicAutoswitch.Kernel.Reload
open HashMaps Schema Monitor Router StateProg Engine Transition Tracking

/-! ### What is installed -/

/- The rule on record for an active name. -/
def ruleOf (s : KernelExec) (n : String) : Option RouteRule :=
  if n ∈ s.executor.activeRoutes then (recordedBy s.history n).map Prod.fst else none

/- A rule as its name, destination, priority and interface. -/
def view (rule : RouteRule) : Option (String × IpNetwork × ℕ × String) :=
  (RuleOperator.target? rule).map fun d => (rule.name, d, rule.priority, rule.routeVia.interface)

def InstalledRules (s : KernelExec) : Set (String × IpNetwork × ℕ × String) :=
  {v | ∃ n rule, ruleOf s n = some rule ∧ view rule = some v}

theorem recordedBy_name {history : List (CallRecord KernelState)} {n : String}
    {x : RouteRule × ℕ} (h : recordedBy history n = some x) : x.1.name = n := by
  have hx := List.find?_some h
  exact of_decide_eq_true hx

theorem ruleOf_name {s : KernelExec} {n : String} {rule : RouteRule}
    (h : ruleOf s n = some rule) : rule.name = n := by
  unfold ruleOf at h
  split_ifs at h
  obtain ⟨x, hx, he⟩ := Option.map_eq_some_iff.mp h
  exact he ▸ recordedBy_name hx

theorem view_name {rule rule' : RouteRule} {v : String × IpNetwork × ℕ × String}
    (h : view rule = some v) (h' : view rule' = some v) : rule.name = rule'.name := by
  obtain ⟨d, _, hv⟩ := Option.map_eq_some_iff.mp h
  obtain ⟨d', _, hv'⟩ := Option.map_eq_some_iff.mp h'
  exact congrArg Prod.fst (hv.trans hv'.symm)

variable {env : Env}

/- An active name has a rule on record, and the rule has a destination. -/
theorem ruleOf_active {s : KernelExec} (h : Recorded env s) {n : String}
    (hn : n ∈ s.executor.activeRoutes) : ∃ rule v, ruleOf s n = some rule ∧ view rule = some v := by
  obtain ⟨a, ha⟩ := (mem_iff_lookup _ n).mp hn
  obtain ⟨rule, t, x, hr, _, he⟩ := h n a ha
  obtain ⟨d, l, hd, _, _⟩ := entries_spec he
  refine ⟨rule, (rule.name, d, rule.priority, rule.routeVia.interface), ?_, ?_⟩
  · unfold ruleOf
    rw [if_pos hn, hr]
    rfl
  · unfold view
    rw [hd]
    rfl

/-! ### Applying the default rules -/

theorem ruleOf_applied (hq : Quiet env) {s : System KernelState}
    (hl : Live s.dispatcher.executor.routeManager) {rule : RouteRule}
    (hlink : RuleOperator.Installable rule → (env.ifindex rule.routeVia.interface).isSome)
    (t : ℕ) (n : String) :
    ruleOf (applied env.plain t s rule).execState n =
      if rule.name = n ∧ RuleOperator.Installable rule then some rule
      else ruleOf s.execState n := by
  have hiff := applyCompletes_iff (k := s.kernel) hq hlink
  show ruleOf (after (RuleExecutor.applyRule env.plain rule 0 t) s.execState) n = _
  by_cases hi : RuleOperator.Installable rule
  · obtain ⟨d, hd⟩ := Option.isSome_iff_exists.mp hi.2
    obtain ⟨l, hx⟩ := Option.isSome_iff_exists.mp (hlink hi)
    obtain ⟨k', he, _⟩ := apply_done (s := s.execState) hl t hd hx (hiff.mpr hi)
    have hmem : n ∈ s.execState.executor.activeRoutes.insert rule.name (entryOf t rule) ↔
        n = rule.name ∨ n ∈ s.execState.executor.activeRoutes := AList.mem_insert _
    have hmem' : n ∈ (s.execState.executor.trackActiveRoute rule.name rule.routeVia.interface
        t).activeRoutes ↔ n = rule.name ∨ n ∈ s.execState.executor.activeRoutes := hmem
    rw [he]
    simp only [ruleOf, recordedBy_apply, hmem', hi, and_true]
    by_cases hn : rule.name = n
    · simp [hn]
    · simp [hn, Ne.symm hn]
  · obtain ⟨k', he, _⟩ := apply_stopped (s := s.execState) hl t (fun hc => hi (hiff.mp hc))
    have hskip : recording ⟨.applyRule rule t, s.execState.executor, s.execState.kernel, false⟩ =
      none := rfl
    rw [he, if_neg (fun h => hi h.2)]
    simp only [ruleOf, recordedBy_skip hskip]

theorem isRouteActive_of_ruleOf {s : System KernelState} {n : String} {rule : RouteRule}
    (h : ruleOf s.execState n = some rule) :
    s.dispatcher.executor.isRouteActive n = true := by
  unfold ruleOf at h
  split_ifs at h with hn
  exact decide_eq_true hn

/- A rule is passed over where a rule of its name is on record. -/
theorem ruleOf_unlessActive (hq : Quiet env) {s : System KernelState}
    (hl : Live s.dispatcher.executor.routeManager) (hr : Recorded env s.execState)
    {rule : RouteRule}
    (hlink : RuleOperator.Installable rule → (env.ifindex rule.routeVia.interface).isSome)
    (t : ℕ) (n : String) :
    ruleOf (appliedUnlessActive env.plain t s rule).execState n =
      (ruleOf s.execState n).or
        (if rule.name = n ∧ RuleOperator.Installable rule then some rule else none) := by
  unfold appliedUnlessActive
  split_ifs with ha hn hn
  · obtain ⟨r, _, hx, _⟩ := ruleOf_active hr (of_decide_eq_true ha)
    have hx' : ruleOf s.execState n = some r := hn.1 ▸ hx
    rw [hx']
    rfl
  · exact (Option.or_none).symm
  · have hnone : ruleOf s.execState n = none := by
      cases hx : ruleOf s.execState n with
      | none => rfl
      | some r => exact absurd (hn.1 ▸ isRouteActive_of_ruleOf hx) ha
    rw [ruleOf_applied hq hl hlink, if_pos hn, hnone]
    rfl
  · rw [ruleOf_applied hq hl hlink, if_neg hn]
    exact (Option.or_none).symm

theorem recorded_unlessActive {s : System KernelState}
    (hl : Live s.dispatcher.executor.routeManager) (hr : Recorded env s.execState) (t : ℕ)
    (rule : RouteRule) :
    Live (appliedUnlessActive env.plain t s rule).dispatcher.executor.routeManager ∧
      Recorded env (appliedUnlessActive env.plain t s rule).execState := by
  unfold appliedUnlessActive
  split_ifs
  · exact ⟨hl, hr⟩
  · rw [applied_manager]
    exact ⟨hl, (applyRule_step (s := s.execState) hl rule t).recorded hr⟩

theorem ruleOf_loop (hq : Quiet env) (t : ℕ) (rules : List RouteRule)
    (hlinks : ∀ rule ∈ rules, RuleOperator.Installable rule →
      (env.ifindex rule.routeVia.interface).isSome) {s : System KernelState}
    (hl : Live s.dispatcher.executor.routeManager) (hr : Recorded env s.execState) (n : String) :
    ruleOf (run (appliedUnlessActive env.plain t) s rules).execState n =
      (ruleOf s.execState n).or (firstInstallable rules n) := by
  induction rules generalizing s with
  | nil => exact (Option.or_none).symm
  | cons rule rest ih =>
    have hrest : ∀ r ∈ rest, RuleOperator.Installable r →
      (env.ifindex r.routeVia.interface).isSome := fun r hm => hlinks r (List.mem_cons_of_mem rule hm)
    obtain ⟨hl', hr'⟩ := recorded_unlessActive hl hr t rule
    rw [run_cons, ih hrest hl' hr',
      ruleOf_unlessActive hq hl hr (hlinks rule List.mem_cons_self), firstInstallable_cons,
      Option.or_assoc]
    split_ifs <;> rfl

/-! ### Up events -/

/- What the Up events of a host find: a running dispatcher without SSIDs whose interfaces
are known to be up. -/
structure Settled (env : Env) (c : Config) (s : System KernelState) : Prop where
  live : Live s.dispatcher.executor.routeManager
  recorded : Recorded env s.execState
  config : s.dispatcher.config = c
  running : s.dispatcher.state = .running
  ssids : ∀ i, s.dispatcher.currentSsid i = none

def up (env : Env) (s : System KernelState) (x : RouteOrder × String) : System KernelState :=
  Dispatch.perform env.plain s (.handleEvent x.1 (.interfaceChanged x.2 .up))

/- The Up event of an interface that is up applies the default rules. -/
theorem up_eq {c : Config} {s : System KernelState} (h : Settled env c s)
    {x : RouteOrder × String} (hup : LinkFlap.IsUp s.dispatcher.networkState x.2) :
    up env s x = appliedDefaults env.plain (observed (.interfaceChanged x.2 .up) s) x.2 := by
  have happly : (observed (.interfaceChanged x.2 .up) s).dispatcher.shouldApply x.2 = true := by
    obtain ⟨info, hi, hu⟩ := hup
    have hget := NetworkState.getInterface_withInterface s.dispatcher.networkState x.2 x.2
      fun info => { info with isUp := true }
    rw [if_pos rfl, hi] at hget
    have hnone : x.2 ∉ s.dispatcher.currentSsids := by
      intro hm
      obtain ⟨ssid, hs⟩ := (mem_iff_lookup _ x.2).mp hm
      have hno := h.ssids x.2
      unfold EventDispatcher.currentSsid at hno
      rw [hs] at hno
      cases hno
    have hget' : (observed (.interfaceChanged x.2 .up) s).dispatcher.networkState.getInterface
      x.2 = some { info with isUp := true } := hget
    have hnone' : x.2 ∉ (observed (.interfaceChanged x.2 .up) s).dispatcher.currentSsids := hnone
    unfold EventDispatcher.shouldApply
    rw [hget']
    simpa using hnone'
  show after (Dispatch.handleEvent env.plain x.1 _) s = _
  rw [handleEvent_after env.plain x.1 _ h.running]
  exact if_pos happly

theorem isUp_observe_up {ns : NetworkState} {i : String} (j : String) (h : LinkFlap.IsUp ns i) :
    LinkFlap.IsUp (ns.observe (.interfaceChanged j .up)) i := by
  obtain ⟨info, hi, hu⟩ := h
  have hget := NetworkState.getInterface_withInterface ns j i fun info => { info with isUp := true }
  by_cases hij : i = j
  · subst hij
    rw [if_pos rfl, hi] at hget
    exact ⟨{ info with isUp := true }, hget, rfl⟩
  · rw [if_neg hij, hi] at hget
    exact ⟨info, hget, hu⟩

section Up

variable {c : Config} (hq : Quiet env)
  (hlinks : ∀ rule ∈ c.routing.defaultRules, RuleOperator.Installable rule →
    (env.ifindex rule.routeVia.interface).isSome)
include hq hlinks

theorem up_step {s : System KernelState} (h : Settled env c s) {x : RouteOrder × String}
    (hup : LinkFlap.IsUp s.dispatcher.networkState x.2) :
    Settled env c (up env s x) ∧
      (∀ i, LinkFlap.IsUp s.dispatcher.networkState i →
        LinkFlap.IsUp (up env s x).dispatcher.networkState i) ∧
      ∀ n, ruleOf (up env s x).execState n =
        (ruleOf s.execState n).or (firstInstallable c.routing.defaultRules n) := by
  have hv := appliedDefaults_view env.plain (observed (.interfaceChanged x.2 .up) s) x.2
  have hc : (observed (.interfaceChanged x.2 .up) s).dispatcher.config = c := h.config
  have hrec : Live (appliedDefaults env.plain (observed (.interfaceChanged x.2 .up) s)
        x.2).dispatcher.executor.routeManager ∧
      Recorded env (appliedDefaults env.plain (observed (.interfaceChanged x.2 .up) s)
        x.2).execState := by
    unfold appliedDefaults
    split_ifs
    · exact ⟨h.live, h.recorded⟩
    · exact run_preserves (appliedUnlessActive env.plain _)
        (fun s => Live s.dispatcher.executor.routeManager ∧ Recorded env s.execState)
        (fun s' rule hs => recorded_unlessActive hs.1 hs.2 _ rule) _ _ ⟨h.live, h.recorded⟩
  rw [up_eq h hup]
  refine ⟨⟨hrec.1, hrec.2, hv.config.trans hc, hv.state.trans h.running, fun i => ?_⟩,
    fun i hi => ?_, fun n => ?_⟩
  · unfold EventDispatcher.currentSsid
    rw [hv.currentSsids]
    exact h.ssids i
  · rw [hv.networkState]
    exact isUp_observe_up x.2 hi
  · unfold appliedDefaults
    rw [hc]
    split_ifs with he
    · rw [List.isEmpty_iff.mp he]
      exact (Option.or_none).symm
    · exact ruleOf_loop hq _ _ hlinks (s := indexed x.2 (observed _ s)) h.live h.recorded n

/- The first Up event adds the default rules whose names are free, and the others nothing. -/
theorem ruleOf_ups (ups : List (RouteOrder × String)) {s : System KernelState}
    (h : Settled env c s) (hups : ∀ x ∈ ups, LinkFlap.IsUp s.dispatcher.networkState x.2)
    (n : String) :
    ruleOf (run (up env) s ups).execState n =
      if ups = [] then ruleOf s.execState n
      else (ruleOf s.execState n).or (firstInstallable c.routing.defaultRules n) := by
  induction ups generalizing s with
  | nil => rfl
  | cons x rest ih =>
    obtain ⟨h1, hkeep, hrule⟩ := up_step hq hlinks h (hups x List.mem_cons_self)
    have hrest : ∀ y ∈ rest, LinkFlap.IsUp (up env s x).dispatcher.networkState y.2 :=
      fun y hy => hkeep y.2 (hups y (List.mem_cons_of_mem x hy))
    rw [run_cons, ih h1 hrest, hrule, if_neg (List.cons_ne_nil x rest)]
    split_ifs
    · rfl
    · cases ruleOf s.execState n <;> cases firstInstallable c.routing.defaultRules n <;> rfl

end Up

/-! ### Two runs -/

/- A dispatcher created with the configuration, given what is known of the interfaces. -/
def fresh (c : Config) (rm : RouteManager) (k : KernelState) (ns : NetworkState) :
    System KernelState :=
  { Dispatch.launch c rm k with
    dispatcher := { (Dispatch.launch c rm k).dispatcher with networkState := ns } }

/- The condition on the state before the reload: each rule on record is, as it was
installed, the default rule of its name in the new configuration; where no interface is
up, no rule is on record. -/
def Matches (c : Config) (ups : List (RouteOrder × String)) (s : KernelExec) : Prop :=
  ∀ n rule, ruleOf s n = some rule →
    ups ≠ [] ∧ ∃ r, firstInstallable c.routing.defaultRules n = some r ∧ view r = view rule

/- Free names are filled as in a fresh start, so only the names on record can differ. -/
theorem sameRules_iff {s s' s0 : KernelExec} {c : Config} {ups : List (RouteOrder × String)}
    (hs : ∀ n rule, ruleOf s n = some rule → ∃ v, view rule = some v)
    (hs' : ∀ n, ruleOf s' n = if ups = [] then ruleOf s n
      else (ruleOf s n).or (firstInstallable c.routing.defaultRules n))
    (h0 : ∀ n, ruleOf s0 n = if ups = [] then none
      else firstInstallable c.routing.defaultRules n) :
    InstalledRules s' = InstalledRules s0 ↔ Matches c ups s := by
  apply Iff.intro
  · intro heq n rule hr
    obtain ⟨v, hv⟩ := hs n rule hr
    have hmem : v ∈ InstalledRules s' := by
      refine ⟨n, rule, ?_, hv⟩
      rw [hs', hr]
      split_ifs <;> rfl
    rw [heq] at hmem
    obtain ⟨m, r, hm, hrv⟩ := hmem
    have hmn : m = n := by
      rw [← ruleOf_name hm, ← ruleOf_name hr]
      exact view_name hrv hv
    rw [h0, hmn] at hm
    split_ifs at hm with hups
    exact ⟨hups, r, hm, hrv.trans hv.symm⟩
  · intro hmatch
    ext v
    apply Iff.intro
    · intro hv
      obtain ⟨n, rule, hr, hrv⟩ := hv
      rw [hs'] at hr
      cases hx : ruleOf s n with
      | some rule0 =>
        obtain ⟨hups, r, hf, hview⟩ := hmatch n rule0 hx
        rw [if_neg hups, hx] at hr
        cases hr
        exact ⟨n, r, by rw [h0, if_neg hups, hf], hview.trans hrv⟩
      | none =>
        rw [hx] at hr
        split_ifs at hr with hups
        exact ⟨n, rule, by rw [h0, if_neg hups]; exact hr, hrv⟩
    · intro hv
      obtain ⟨n, r, hr, hrv⟩ := hv
      rw [h0] at hr
      split_ifs at hr with hups
      cases hx : ruleOf s n with
      | some rule0 =>
        obtain ⟨_, r', hf, hview⟩ := hmatch n rule0 hx
        have hrr : r' = r := Option.some_inj.mp (hf.symm.trans hr)
        exact ⟨n, rule0, by rw [hs', if_neg hups, hx]; rfl, by rw [← hview, hrr, hrv]⟩
      | none => exact ⟨n, r, by rw [hs', if_neg hups, hx]; exact hr, hrv⟩

/- A reload and the Up events of interfaces that are up install what a fresh dispatcher
installs exactly where every rule on record is a default rule of the new configuration. -/
theorem reload_converges_iff (env : Env) (hq : Quiet env) {rm : RouteManager} (hl : Live rm)
    (c0 : Config) (k k0 : KernelState) (ops : List Dispatch.Op) (c : Config)
    (ups : List (RouteOrder × String)) (s : System KernelState)
    (hs : s = run (Dispatch.perform env.plain) (Dispatch.launch c0 rm k) ops)
    (hrun : s.dispatcher.state = .running) (hssid : ∀ i, s.dispatcher.currentSsid i = none)
    (hlinks : ∀ rule ∈ c.routing.defaultRules, RuleOperator.Installable rule →
      (env.ifindex rule.routeVia.interface).isSome)
    (hups : ∀ x ∈ ups, LinkFlap.IsUp s.dispatcher.networkState x.2) :
    InstalledRules (run (up env) (Dispatch.perform env.plain s (.updateConfig c)) ups).execState =
        InstalledRules (run (up env) (fresh c rm k0 s.dispatcher.networkState) ups).execState ↔
      Matches c ups s.execState := by
  obtain ⟨hm, hrec⟩ := known_run env hl c0 k ops
  rw [← hs] at hm hrec
  have hreloaded : Settled env c (Dispatch.perform env.plain s (.updateConfig c)) :=
    ⟨hm.symm ▸ hl, hrec, rfl, hrun, hssid⟩
  have hfresh : Settled env c (fresh c rm k0 s.dispatcher.networkState) :=
    ⟨hl, (known_run env hl c k0 []).2, rfl, rfl, fun i => AList.lookup_empty i⟩
  refine sameRules_iff (fun n rule hr => ?_) (ruleOf_ups hq hlinks ups hreloaded hups)
    (ruleOf_ups hq hlinks ups hfresh hups)
  have hn := of_decide_eq_true (isRouteActive_of_ruleOf hr)
  obtain ⟨r, v, hr', hv⟩ := ruleOf_active hrec hn
  rw [hr] at hr'
  cases hr'
  exact ⟨v, hv⟩

/-! ### A rule with a new priority -/

def eth0Ups : List (RouteOrder × String) := [(.asListed, "eth0")]

theorem eth0_up : ∀ x ∈ eth0Ups, LinkFlap.IsUp lanStarted.dispatcher.networkState x.2 :=
  List.forall_mem_singleton.mpr
    ⟨{ name := "eth0", interfaceType := .lan, isUp := true }, by decide, rfl⟩

theorem reload_converges_iff_lan :
    InstalledRules (run (up noFault)
          (Dispatch.perform noFault.plain lanStarted (.updateConfig lanOnly)) eth0Ups).execState =
        InstalledRules (run (up noFault)
          (fresh lanOnly connected .empty lanStarted.dispatcher.networkState) eth0Ups).execState ↔
      Matches lanOnly eth0Ups lanStarted.execState :=
  reload_converges_iff noFault noFault_quiet connected_live lanOnly .empty .empty
    [.applyInitialState eth0Up] lanOnly eth0Ups lanStarted rfl (by decide)
    (fun i => AList.lookup_empty i) (List.forall_mem_singleton.mpr fun _ => by decide) eth0_up

/- The rule of the new configuration has another priority. -/
def lanUrgent : Config := { lanOnly with routing := ⟨[{ lanRule with priority := 50 }]⟩ }

/- The old rule stays, under the name of the new one. -/
theorem lan_rule_keeps_priority :
    InstalledRules (run (up noFault)
        (Dispatch.perform noFault.plain lanStarted (.updateConfig lanUrgent)) eth0Ups).execState ≠
      InstalledRules (run (up noFault)
        (fresh lanUrgent connected .empty lanStarted.dispatcher.networkState)
        eth0Ups).execState := by
  intro heq
  have hfresh : ("lan", lan, 50, "eth0") ∈ InstalledRules (run (up noFault)
      (fresh lanUrgent connected .empty lanStarted.dispatcher.networkState)
      eth0Ups).execState := ⟨"lan", { lanRule with priority := 50 }, by decide, rfl⟩
  rw [← heq] at hfresh
  obtain ⟨n, rule, hr, hv⟩ := hfresh
  have hnew : view { lanRule with priority := 50 } = some ("lan", lan, 50, "eth0") := rfl
  have hname : n = "lan" := (ruleOf_name hr).symm.trans (view_name hv hnew)
  have hold : ruleOf (run (up noFault)
      (Dispatch.perform noFault.plain lanStarted (.updateConfig lanUrgent)) eth0Ups).execState
      "lan" = some lanRule := by decide
  rw [hname, hold] at hr
  cases hr
  exact absurd hv (by decide)

end NicAutoswitch.Kernel.Reload
