import NicAutoswitch.Engine.LinkState

/-!
# Link flaps

An interface goes down, or away, and comes up again. What its loss withdraws comes
back with the Up event only where that event applies the default rules.
-/

namespace NicAutoswitch.Engine.LinkFlap
open HashMaps Schema Monitor Router StateProg Transition LinkState

def IsUp (ns : NetworkState) (i : String) : Prop :=
  ∃ info, ns.getInterface i = some info ∧ info.isUp = true

/- Every active pair of rule name and interface is active again. -/
def Restored (d d' : EventDispatcher) : Prop :=
  ∀ n a, d.activeRoute n = some a → ∃ b, d'.activeRoute n = some b ∧ b.interface = a.interface

/- The condition: each route that the loss withdraws is the one of a default rule, the
loss was not a removal, and the interface is connected to no WiFi network. -/
def FlapSafe (d : EventDispatcher) (i : String) (change : InterfaceChange) : Prop :=
  ∀ n a, d.activeRoute n = some a → a.interface = i →
    d.executor.routeManager.Withdrawable a.tableId →
      change = .down ∧ i ∉ d.currentSsids ∧
        ∃ rule ∈ d.config.routing.defaultRules, rule.name = n

def lost (d : EventDispatcher) (order : RouteOrder) (i : String) (change : InterfaceChange) :
    EventDispatcher :=
  d.grantedEvent order (.interfaceChanged i change)

/-! ### The loss -/

/- Under distinct names an active route is removable once its table is accepted. -/
theorem removable_iff {d : EventDispatcher} (hc : d.config.DistinctNames)
    (hf : EventDispatcher.FromConfig d) {n : String} {a : ActiveRoute}
    (ha : d.activeRoute n = some a) :
    d.Removable n a.tableId ↔ d.executor.routeManager.Withdrawable a.tableId := by
  apply Iff.intro
  · intro h
    obtain ⟨_, _, _, hw⟩ := h
    exact hw
  · intro hw
    obtain ⟨rule, hm, hn, hi, _⟩ := hf n a ha
    have hl := EventDispatcher.rulesMap_of_distinct hc hm
    rw [hn] at hl
    exact ⟨rule, hl, hi.2, hw⟩

theorem activeRoute_lost {d : EventDispatcher} (hr : d.state = .running)
    (hc : d.config.DistinctNames) (hf : EventDispatcher.FromConfig d) (order : RouteOrder)
    (i : String) {change : InterfaceChange} (hch : change = .down ∨ change = .removed)
    (n : String) (a : ActiveRoute) :
    (lost d order i change).activeRoute n = some a ↔ d.activeRoute n = some a ∧
      ¬ (a.interface = i ∧ d.executor.routeManager.Withdrawable a.tableId) := by
  have hdown : ∀ ns : NetworkState, lost d order i change =
      EventDispatcher.grantedDown (d.observing (.interfaceChanged i change)) order i := by
    intro _
    unfold lost
    rw [EventDispatcher.grantedEvent_running hr]
    rcases hch with rfl | rfl <;> rfl
  rw [hdown d.networkState, EventDispatcher.activeRoute_grantedDown]
  refine and_congr_right fun ha => ?_
  have hrem := removable_iff hc hf ha
  rw [← hrem]
  rfl

theorem lost_fixed {d : EventDispatcher} (hr : d.state = .running) (order : RouteOrder)
    (i : String) {change : InterfaceChange} (hch : change = .down ∨ change = .removed) :
    (lost d order i change).config = d.config ∧
      (lost d order i change).currentSsids = d.currentSsids ∧
      (lost d order i change).networkState =
        d.networkState.observe (.interfaceChanged i change) ∧
      (lost d order i change).state = .running := by
  unfold lost
  rw [EventDispatcher.grantedEvent_running hr]
  rcases hch with rfl | rfl <;> exact ⟨rfl, rfl, rfl, hr⟩

/-! ### The return -/

theorem up_after_down {ns : NetworkState} {i : String} {info : InterfaceInfo}
    (h : ns.getInterface i = some info) :
    ((ns.observe (.interfaceChanged i .down)).observe (.interfaceChanged i .up)).getInterface i =
      some { info with isUp := true } := by
  have hdown := NetworkState.getInterface_withInterface ns i i fun x => { x with isUp := false }
  rw [if_pos rfl, h] at hdown
  have hup := NetworkState.getInterface_withInterface
    (ns.withInterface i fun x => { x with isUp := false }) i i fun x => { x with isUp := true }
  rw [if_pos rfl, hdown] at hup
  exact hup

theorem up_after_removed (ns : NetworkState) (i : String) :
    ((ns.observe (.interfaceChanged i .removed)).observe
      (.interfaceChanged i .up)).getInterface i = none := by
  have hgone := NetworkState.getInterface_removeInterface ns i i
  rw [if_pos rfl] at hgone
  have hup := NetworkState.getInterface_withInterface (ns.removeInterface i) i i
    fun x => { x with isUp := true }
  rw [if_pos rfl, hgone] at hup
  exact hup

/- The Up event applies the default rules exactly after a Down event of an interface
that is connected to no network. -/
theorem shouldApply_after {d : EventDispatcher} (hr : d.state = .running) (order : RouteOrder)
    {i : String} {change : InterfaceChange} (hch : change = .down ∨ change = .removed)
    (hup : IsUp d.networkState i) :
    ((lost d order i change).observing (.interfaceChanged i .up)).shouldApply i = true ↔
      change = .down ∧ i ∉ d.currentSsids := by
  obtain ⟨_, hssid, hns, _⟩ := lost_fixed hr order i hch
  obtain ⟨info, hl, _⟩ := hup
  unfold EventDispatcher.shouldApply EventDispatcher.observing
  rw [hssid, hns]
  rcases hch with rfl | rfl
  · rw [up_after_down hl]
    simp
  · rw [up_after_removed]
    simp

def flapped (d : EventDispatcher) (o1 o2 : RouteOrder) (i : String) (change : InterfaceChange) :
    EventDispatcher :=
  (lost d o1 i change).grantedEvent o2 (.interfaceChanged i .up)

theorem activeRoute_flapped {d : EventDispatcher} (hr : d.state = .running) (o1 o2 : RouteOrder)
    {i : String} {change : InterfaceChange} (hch : change = .down ∨ change = .removed)
    (hup : IsUp d.networkState i) (n : String) :
    ∃ t, (flapped d o1 o2 i change).activeRoute n =
      if change = .down ∧ i ∉ d.currentSsids then
        ((lost d o1 i change).activeRoute n).or
          ((firstInstallable d.config.routing.defaultRules n).map (entryOf t))
      else (lost d o1 i change).activeRoute n := by
  obtain ⟨hcfg, _, _, hrun⟩ := lost_fixed hr o1 i hch
  have hshould := shouldApply_after hr o1 hch hup
  refine ⟨(((lost d o1 i change).observing (.interfaceChanged i .up)).getTableIdForInterface i).1,
    ?_⟩
  unfold flapped
  rw [EventDispatcher.grantedEvent_running hrun, ← hcfg]
  show EventDispatcher.activeRoute (EventDispatcher.grantedUp _ i) n = _
  unfold EventDispatcher.grantedUp
  by_cases hs : change = .down ∧ i ∉ d.currentSsids
  · rw [if_pos (hshould.mpr hs), if_pos hs]
    exact EventDispatcher.activeRoute_grantedDefaults _ i n
  · rw [if_neg (fun h => hs (hshould.mp h)), if_neg hs]
    rfl

/- A default rule that was active before goes out of the same interface again. -/
theorem default_returns {d : EventDispatcher} (hc : d.config.DistinctNames)
    (hf : EventDispatcher.FromConfig d) {n : String} {a : ActiveRoute}
    (ha : d.activeRoute n = some a) {rule : RouteRule}
    (hm : rule ∈ d.config.routing.defaultRules) (hn : rule.name = n) :
    ∃ r, firstInstallable d.config.routing.defaultRules n = some r ∧
      r.routeVia.interface = a.interface := by
  obtain ⟨r, hrm, hrn, hri, hrv⟩ := hf n a ha
  have heq : rule = r := d.config.rule_eq_of_name hc
    ((Config.mem_allRules _ _).mpr (Or.inl hm)) hrm (hn.trans hrn.symm)
  subst heq
  obtain ⟨r', hr'⟩ := firstInstallable_isSome hm hri
  rw [hn] at hr'
  obtain ⟨hm', hn', _⟩ := firstInstallable_spec hr'
  have heq' : r' = rule := d.config.rule_eq_of_name hc
    ((Config.mem_allRules _ _).mpr (Or.inl hm')) hrm (hn'.trans hrn.symm)
  exact ⟨r', hr', by rw [heq', hrv]⟩

theorem restored_iff {d : EventDispatcher} (hr : d.state = .running)
    (hc : d.config.DistinctNames) (hf : EventDispatcher.FromConfig d) (o1 o2 : RouteOrder)
    {i : String} {change : InterfaceChange} (hch : change = .down ∨ change = .removed)
    (hup : IsUp d.networkState i) :
    Restored d (flapped d o1 o2 i change) ↔ FlapSafe d i change := by
  refine ⟨?_, ?_⟩
  · intro h n a ha hi hw
    -- the route was withdrawn, so only the default rules can have brought it back
    have hnone : (lost d o1 i change).activeRoute n = none := by
      cases hb : (lost d o1 i change).activeRoute n with
      | none => rfl
      | some b =>
        obtain ⟨hb1, hb2⟩ := (activeRoute_lost hr hc hf o1 i hch n b).mp hb
        rw [ha] at hb1
        cases hb1
        exact absurd ⟨hi, hw⟩ hb2
    obtain ⟨b, hb, _⟩ := h n a ha
    obtain ⟨t, ht⟩ := activeRoute_flapped hr o1 o2 hch hup n
    rw [hb, hnone] at ht
    split_ifs at ht with hs
    obtain ⟨rule, hfirst, _⟩ := Option.map_eq_some_iff.mp ht.symm
    obtain ⟨hm, hname, _⟩ := firstInstallable_spec hfirst
    exact ⟨hs.1, hs.2, rule, hm, hname⟩
  · intro h n a ha
    obtain ⟨t, ht⟩ := activeRoute_flapped hr o1 o2 hch hup n
    have hlost := activeRoute_lost hr hc hf o1 i hch n
    by_cases hw : a.interface = i ∧ d.executor.routeManager.Withdrawable a.tableId
    · obtain ⟨hdown, hssid, rule, hm, hname⟩ := h n a ha hw.1 hw.2
      obtain ⟨r, hfirst, hvia⟩ := default_returns hc hf ha hm hname
      rw [if_pos ⟨hdown, hssid⟩, hfirst] at ht
      cases hb : (lost d o1 i change).activeRoute n with
      | none =>
        rw [hb] at ht
        exact ⟨entryOf t r, ht, hvia⟩
      | some b =>
        have hba := ((hlost b).mp hb).1
        rw [ha] at hba
        cases hba
        exact absurd hw ((hlost a).mp hb).2
    · have hkeep := (hlost a).mpr ⟨ha, hw⟩
      refine ⟨a, ?_, rfl⟩
      rw [ht, hkeep]
      split_ifs <;> rfl

/-! ### Reachable states -/

variable {κ : Type}

/- The state reached from a fresh dispatcher. -/
def reached (rt : Rtnetlink κ) (config : Config) (rm : RouteManager) (k : κ)
    (ops : List Dispatch.Op) : System κ :=
  run (Dispatch.perform rt) (Dispatch.launch config rm k) ops

/- The daemon's state after the loss of the interface and its return. -/
def flap (rt : Rtnetlink κ) (s : System κ) (o1 o2 : RouteOrder) (i : String)
    (change : InterfaceChange) : System κ :=
  handle rt (handle rt s (o1, .interfaceChanged i change)) (o2, .interfaceChanged i .up)

/- A flap of an interface restores every active pair exactly where all that it withdraws
are default rules, after a Down event, with no SSID recorded. -/
theorem flap_restores_iff {rt : Rtnetlink κ} (hg : rt.Grants) {config : Config}
    (hc : config.DistinctNames) {rm : RouteManager} (hr : rm.Ready) (k : κ)
    {ops : List Dispatch.Op} (hops : ∀ op ∈ ops, op.Steady) (o1 o2 : RouteOrder) {i : String}
    {change : InterfaceChange} (hch : change = .down ∨ change = .removed)
    (hup : IsUp (reached rt config rm k ops).dispatcher.networkState i) :
    Restored (reached rt config rm k ops).dispatcher
        (flap rt (reached rt config rm k ops) o1 o2 i change).dispatcher ↔
      FlapSafe (reached rt config rm k ops).dispatcher i change := by
  have hd : (reached rt config rm k ops).dispatcher = _ :=
    EventDispatcher.run_granted hg (Dispatch.launch config rm k) ops hr
  have hlive : Live config (reached rt config rm k ops).dispatcher := by
    rw [hd]
    exact EventDispatcher.live_run hops (EventDispatcher.live_launch config hr k)
  have hf : EventDispatcher.FromConfig (reached rt config rm k ops).dispatcher := by
    rw [hd]
    exact EventDispatcher.fromConfig_run hops (EventDispatcher.fromConfig_launch config rm k)
  generalize reached rt config rm k ops = s at hlive hf hup ⊢
  have h1 : (handle rt s (o1, .interfaceChanged i change)).dispatcher =
      lost s.dispatcher o1 i change := perform_granted hg s _ hlive.ready
  have hlive1 : Live config (handle rt s (o1, .interfaceChanged i change)).dispatcher := by
    have hsteady : (Dispatch.Op.handleEvent o1 (.interfaceChanged i change)).Steady := trivial
    rw [h1]
    exact EventDispatcher.live_granted hsteady hlive
  have h2 : (flap rt s o1 o2 i change).dispatcher = flapped s.dispatcher o1 o2 i change := by
    have hp := perform_granted hg (handle rt s (o1, .interfaceChanged i change))
      (.handleEvent o2 (.interfaceChanged i .up)) hlive1.ready
    rw [h1] at hp
    exact hp
  rw [h2]
  exact restored_iff hlive.running (hlive.config.symm ▸ hc) hf o1 o2 hch hup

def overCorp : RouteRule := ⟨"corp", .cidr (.v4 ⟨0x0a010000, 16, len16_v4⟩), ⟨"wlan0"⟩, 50⟩

/- Two interfaces and a profile whose rule goes out of wlan0. -/
def corpWifi : Config :=
  { twoLinks with wifiProfiles := AList.insert "corp" ⟨"wlan0", [overCorp]⟩ ∅ }

def corpJoined : List Dispatch.Op :=
  [.applyInitialState bothUp, .handleEvent .asListed (.wifiConnected "wlan0" "corp")]

theorem corpWifi_distinct : corpWifi.DistinctNames := by
  unfold Config.DistinctNames
  decide

theorem corpJoined_steady : ∀ op ∈ corpJoined, op.Steady := by
  intro op hop
  simp only [corpJoined, List.mem_cons, List.not_mem_nil, or_false] at hop
  rcases hop with rfl | rfl <;> exact trivial

theorem wlan_up_after_join :
    IsUp (reached grantAll corpWifi .default () corpJoined).dispatcher.networkState "wlan0" :=
  ⟨{ name := "wlan0", interfaceType := .wlan, isUp := true, ssid := some "corp" },
    by decide, rfl⟩

theorem flap_restores_iff_corp :
    Restored (reached grantAll corpWifi .default () corpJoined).dispatcher
        (flap grantAll (reached grantAll corpWifi .default () corpJoined) .asListed .asListed
          "wlan0" .down).dispatcher ↔
      FlapSafe (reached grantAll corpWifi .default () corpJoined).dispatcher "wlan0" .down :=
  flap_restores_iff grantAll_grants corpWifi_distinct (Or.inl rfl) () corpJoined_steady
    .asListed .asListed (Or.inl rfl) wlan_up_after_join

/- The recorded SSID keeps the Up event from applying anything. -/
theorem corp_rule_lost_by_flap :
    ¬ Restored (reached grantAll corpWifi .default () corpJoined).dispatcher
      (flap grantAll (reached grantAll corpWifi .default () corpJoined) .asListed .asListed
        "wlan0" .down).dispatcher := by
  intro h
  obtain ⟨b, hb, _⟩ := h "corp" ⟨"corp", "wlan0", 100⟩ (by decide)
  have hnone : (flap grantAll (reached grantAll corpWifi .default () corpJoined) .asListed
    .asListed "wlan0" .down).dispatcher.activeRoute "corp" = none := by decide
  rw [hnone] at hb
  cases hb

end NicAutoswitch.Engine.LinkFlap
