import NicAutoswitch.Engine.ActiveRoutes

/-!
# Active routes and the state of the links

Setting an interface down withdraws its routes. The default rules come back with
the next event of any other interface, whatever interface they go out of, and
with an Up event of the interface only in some cases.
-/

namespace NicAutoswitch.Engine.LinkState
open HashMaps Schema Monitor Router StateProg Transition

/- A known interface of an active route is up. -/
def ActiveUp (d : EventDispatcher) : Prop :=
  ∀ n a info, d.activeRoute n = some a → d.networkState.getInterface a.interface = some info →
    info.isUp = true

theorem activeUp_iff (d : EventDispatcher) :
    ActiveUp d ↔ ∀ n a, d.activeRoute n = some a → ¬ d.networkState.KnownDown a.interface := by
  refine ⟨?_, ?_⟩
  · intro h n a ha hd
    obtain ⟨info, hl, hu⟩ := hd
    have hup := h n a info ha hl
    rw [hu] at hup
    cases hup
  · intro h n a info ha hl
    cases hu : info.isUp with
    | true => rfl
    | false => exact absurd ⟨info, hl, hu⟩ (h n a ha)

/- The default rules that applying them would record go out of no interface that `ns`
knows to be down. -/
def DefaultsUp (d : EventDispatcher) (ns : NetworkState) : Prop :=
  ∀ n rule, d.activeRoute n = none →
    firstInstallable d.config.routing.defaultRules n = some rule →
      ¬ ns.KnownDown rule.routeVia.interface

def RulesUp (d : EventDispatcher) (ns : NetworkState) (ssid : Option String) : Prop :=
  match ssid.bind d.config.wifiProfiles.lookup with
  | some profile =>
    ∀ n rule, lastInstallable profile.rules n = some rule → ¬ ns.KnownDown rule.routeVia.interface
  | none => DefaultsUp d ns

/- The condition on an event: a Down event finds only routes that can be removed, and
the rules that any other event applies go out of interfaces not known to be down. -/
def Safe (d : EventDispatcher) (event : NetworkEvent) : Prop :=
  let ns := d.networkState.observe event
  match event with
  | .interfaceChanged i .down => (d.networkState.getInterface i).isSome →
      ∀ n a, d.activeRoute n = some a → a.interface = i → d.Removable n a.tableId
  | .interfaceChanged i .up => (d.observing event).shouldApply i = true → DefaultsUp d ns
  | .wifiConnected _ ssid => RulesUp d ns (some ssid)
  | .wifiDisconnected _ _ => DefaultsUp d ns
  | .addressChanged i _ _ => RulesUp d ns (d.currentSsid i)
  | _ => True

/-! ### One event -/

/- What applying rules does: routes not replaced stay, and no link has gone down. -/
theorem defaults_step (d : EventDispatcher) (ns : NetworkState) (i : String)
    (h : ∀ n a, d.activeRoute n = some a → ¬ ns.KnownDown a.interface) :
    (∀ n a, (d.grantedDefaults i).activeRoute n = some a → ¬ ns.KnownDown a.interface) ↔
      DefaultsUp d ns := by
  refine ⟨?_, ?_⟩
  · intro hd n rule hn hf
    have hl := EventDispatcher.activeRoute_grantedDefaults d i n
    rw [hn, hf] at hl
    exact hd n _ hl
  · intro hs n a ha
    rcases EventDispatcher.active_grantedDefaults ha with hold | ⟨hn, rule, hf, rfl⟩
    · exact h n a hold
    · exact hs n rule hn hf

theorem up_step (d : EventDispatcher) (ns : NetworkState) (i : String)
    (h : ∀ n a, d.activeRoute n = some a → ¬ ns.KnownDown a.interface) :
    (∀ n a, (d.grantedUp i).activeRoute n = some a → ¬ ns.KnownDown a.interface) ↔
      (d.shouldApply i = true → DefaultsUp d ns) := by
  unfold EventDispatcher.grantedUp
  split_ifs with hs
  · rw [defaults_step d ns i h]
    exact ⟨fun hd _ => hd, fun hd => hd hs⟩
  · exact iff_of_true h (fun ht => absurd ht hs)

theorem rules_step (d : EventDispatcher) (ns : NetworkState) (i : String) (ssid : Option String)
    (h : ∀ n a, d.activeRoute n = some a → ¬ ns.KnownDown a.interface) :
    (∀ n a, (d.grantedRulesFor i ssid).activeRoute n = some a → ¬ ns.KnownDown a.interface) ↔
      RulesUp d ns ssid := by
  unfold RulesUp
  cases hp : ssid.bind d.config.wifiProfiles.lookup with
  | none =>
    rw [EventDispatcher.grantedRulesFor_none i hp]
    exact defaults_step d ns i h
  | some profile =>
    refine ⟨?_, ?_⟩
    · intro hd n rule hf
      have hl := EventDispatcher.activeRoute_grantedRulesFor_profile i n hp
      rw [hf] at hl
      exact hd n _ hl
    · intro hs n a ha
      rcases EventDispatcher.active_grantedRulesFor_profile hp ha with ⟨rule, hf, rfl⟩ | hold
      · exact hs n rule hf
      · exact h n a hold

theorem down_step (d : EventDispatcher) (order : RouteOrder) (i : String)
    (h : ∀ n a, d.activeRoute n = some a → ¬ d.networkState.KnownDown a.interface) :
    (∀ n a, (d.grantedDown order i).activeRoute n = some a →
        ¬ (d.networkState.observe (.interfaceChanged i .down)).KnownDown a.interface) ↔
      ((d.networkState.getInterface i).isSome →
        ∀ n a, d.activeRoute n = some a → a.interface = i → d.Removable n a.tableId) := by
  refine ⟨?_, ?_⟩
  · intro hd hk n a ha hi
    by_contra hr
    have hstay := (EventDispatcher.activeRoute_grantedDown d order i n a).mpr
      ⟨ha, fun hx => hr hx.2⟩
    have hdown := NetworkState.knownDown_after_down hk
    rw [← hi] at hdown
    exact hd n a hstay (hi ▸ hdown)
  · intro hs n a ha hdown
    obtain ⟨hl, hkeep⟩ := (EventDispatcher.activeRoute_grantedDown d order i n a).mp ha
    rcases NetworkState.knownDown_observe hdown with hold | hnew
    · exact h n a hl hold
    · obtain ⟨he, hk⟩ := hnew
      cases he
      exact hkeep ⟨rfl, hs hk n a hl rfl⟩

theorem event_step {d : EventDispatcher} (hr : d.state = .running) (order : RouteOrder)
    (event : NetworkEvent) (h : ActiveUp d) :
    ActiveUp (d.grantedEvent order event) ↔ Safe d event := by
  have hbase := (activeUp_iff d).mp h
  have hns : (d.grantedEvent order event).networkState = d.networkState.observe event := by
    rw [EventDispatcher.grantedEvent_running hr]
    exact (EventDispatcher.grantedReaction_fixed _ order event).2.1
  rw [activeUp_iff, hns, EventDispatcher.grantedEvent_running hr]
  -- outside a Down event no link has gone down
  have hkeep : (∀ i, event ≠ .interfaceChanged i .down) → ∀ n a, d.activeRoute n = some a →
      ¬ (d.networkState.observe event).KnownDown a.interface := by
    intro hne n a ha hd
    rcases NetworkState.knownDown_observe hd with hold | hnew
    · exact hbase n a ha hold
    · exact hne _ hnew.1
  cases event with
  | interfaceChanged i change =>
    cases change with
    | down => exact down_step d order i hbase
    | added =>
      have hk := hkeep (fun _ he => by cases he)
      exact iff_of_true hk trivial
    | removed =>
      have hk := hkeep (fun _ he => by cases he)
      refine iff_of_true ?_ trivial
      intro n a ha
      exact hk n a ((EventDispatcher.activeRoute_grantedDown _ order i n a).mp ha).1
    | up =>
      have hk := hkeep (fun _ he => by cases he)
      have hu := up_step (d.observing (.interfaceChanged i .up)) _ i hk
      exact hu
  | wifiConnected i ssid => exact rules_step _ _ i (some ssid) (hkeep fun _ he => by cases he)
  | wifiDisconnected i last => exact defaults_step _ _ i (hkeep fun _ he => by cases he)
  | addressChanged i added removed =>
    exact rules_step _ _ i (d.currentSsid i) (hkeep fun _ he => by cases he)
  | routeChanged i destination gateway added =>
    exact iff_of_true (hkeep fun _ he => by cases he) trivial

/-! ### Runs -/

variable {κ : Type}

/- The daemon after it has applied the initial state. -/
def started (rt : Rtnetlink κ) (config : Config) (rm : RouteManager) (k : κ)
    (interfaces : List InterfaceInfo) : System κ :=
  Dispatch.perform rt (Dispatch.launch config rm k) (.applyInitialState interfaces)

def handle (rt : Rtnetlink κ) (s : System κ) (x : RouteOrder × NetworkEvent) : System κ :=
  Dispatch.perform rt s (.handleEvent x.1 x.2)

/- Where an interface that is up is configured, the default rules go out of no interface
that was found to be down. -/
def InitialSafe (config : Config) (interfaces : List InterfaceInfo) : Prop :=
  (∃ info ∈ interfaces, info.isUp = true ∧ info.name ∈ config.interfaces) →
    ∀ n rule, firstInstallable config.routing.defaultRules n = some rule →
      ¬ (interfaces.foldl NetworkState.updateInterface .new).KnownDown rule.routeVia.interface

theorem started_dispatcher {rt : Rtnetlink κ} (hg : rt.Grants) (config : Config)
    {rm : RouteManager} (hr : rm.Ready) (k : κ) (interfaces : List InterfaceInfo) :
    (started rt config rm k interfaces).dispatcher =
      (Dispatch.launch config rm k).dispatcher.granted (.applyInitialState interfaces) :=
  perform_granted hg (Dispatch.launch config rm k) _ hr

theorem upNames_nil_iff (d : EventDispatcher) (interfaces : List InterfaceInfo) :
    d.upNames interfaces = [] ↔
      ¬ ∃ info ∈ interfaces, info.isUp = true ∧ info.name ∈ d.config.interfaces := by
  simp only [EventDispatcher.upNames, List.map_eq_nil_iff, List.filter_eq_nil_iff,
    Bool.and_eq_true, decide_eq_true_eq, not_exists, not_and]

theorem activeUp_started {rt : Rtnetlink κ} (hg : rt.Grants) (config : Config)
    {rm : RouteManager} (hr : rm.Ready) (k : κ) (interfaces : List InterfaceInfo) :
    ActiveUp (started rt config rm k interfaces).dispatcher ↔ InitialSafe config interfaces := by
  rw [started_dispatcher hg config hr k interfaces, activeUp_iff]
  have hnone : ∀ n, ((Dispatch.launch config rm k).dispatcher.withInterfaces
      interfaces).activeRoute n = none := fun n => AList.lookup_empty n
  have hns : ((Dispatch.launch config rm k).dispatcher.granted
      (.applyInitialState interfaces)).networkState =
        interfaces.foldl NetworkState.updateInterface .new :=
    (EventDispatcher.foldl_grantedDefaults_view _ _).networkState
  rw [hns]
  show (∀ n a, EventDispatcher.activeRoute (EventDispatcher.grantedInitialState _ _) n = some a →
    _) ↔ _
  unfold EventDispatcher.grantedInitialState
  cases hup : (Dispatch.launch config rm k).dispatcher.upNames interfaces with
  | nil =>
    have hno := (upNames_nil_iff _ interfaces).mp hup
    refine iff_of_true ?_ (fun hex => absurd hex hno)
    intro n a ha
    have hn : some a = none := ha.symm.trans (hnone n)
    cases hn
  | cons name rest =>
    have hex : ∃ info ∈ interfaces, info.isUp = true ∧ info.name ∈ config.interfaces := by
      by_contra hno
      have hnil := (upNames_nil_iff (Dispatch.launch config rm k).dispatcher interfaces).mpr hno
      rw [hup] at hnil
      cases hnil
    simp only [EventDispatcher.activeRoute_foldl_grantedDefaults]
    rw [defaults_step _ _ name (fun n a ha => by rw [hnone n] at ha; cases ha)]
    refine ⟨?_, ?_⟩
    · intro hd _ n rule hf
      exact hd n rule (hnone n) hf
    · intro hs n rule _ hf
      exact hs hex n rule hf

/- What one event keeps exactly where it is safe holds throughout exactly the runs from a
good initial state whose events are all safe. -/
theorem throughout_events_iff {rt : Rtnetlink κ} (hg : rt.Grants) (config : Config)
    {rm : RouteManager} (hr : rm.Ready) (k : κ) (interfaces : List InterfaceInfo)
    (events : List (RouteOrder × NetworkEvent)) (P : EventDispatcher → Prop)
    (S : EventDispatcher → NetworkEvent → Prop)
    (hevent : ∀ d order event, d.state = .running → P d →
      (P (d.grantedEvent order event) ↔ S d event)) :
    Throughout (handle rt) (fun s => P s.dispatcher) (started rt config rm k interfaces) events ↔
      P (started rt config rm k interfaces).dispatcher ∧
        Along (handle rt) (fun s x => S s.dispatcher x.2)
          (started rt config rm k interfaces) events := by
  have hlive : Live config (started rt config rm k interfaces).dispatcher := by
    rw [started_dispatcher hg config hr k interfaces]
    exact EventDispatcher.live_granted trivial (EventDispatcher.live_launch config hr k)
  have hkeep : ∀ s x, Live config s.dispatcher → Live config (handle rt s x).dispatcher := by
    intro s x hl
    rw [handle, perform_granted hg s _ hl.ready]
    exact EventDispatcher.live_granted trivial hl
  have hstep : ∀ s x, Live config s.dispatcher → P s.dispatcher →
      (P (handle rt s x).dispatcher ↔ S s.dispatcher x.2) := by
    intro s x hl hu
    rw [handle, perform_granted hg s _ hl.ready]
    exact hevent s.dispatcher x.1 x.2 hl.running hu
  have hiff := fun h0 => throughout_iff_along (handle rt) (fun s => Live config s.dispatcher)
    (fun s => P s.dispatcher) (fun s x => S s.dispatcher x.2) hkeep hstep
    (started rt config rm k interfaces) events hlive h0
  apply Iff.intro
  · intro h
    have h0 : P (started rt config rm k interfaces).dispatcher := h [] List.nil_prefix
    exact ⟨h0, (hiff h0).mp h⟩
  · intro h
    exact (hiff h.1).mpr h.2

/- An active route goes out of no known interface that is down, at any point of a run,
exactly when the initial state and every event are safe. -/
theorem active_up_iff_safe {rt : Rtnetlink κ} (hg : rt.Grants) (config : Config)
    {rm : RouteManager} (hr : rm.Ready) (k : κ) (interfaces : List InterfaceInfo)
    (events : List (RouteOrder × NetworkEvent)) :
    Throughout (handle rt) (fun s => ActiveUp s.dispatcher)
        (started rt config rm k interfaces) events ↔
      InitialSafe config interfaces ∧
        Along (handle rt) (fun s x => Safe s.dispatcher x.2)
          (started rt config rm k interfaces) events := by
  rw [← activeUp_started hg config hr k interfaces]
  exact throughout_events_iff hg config hr k interfaces events ActiveUp Safe
    fun _ order event hrun hd => event_step hrun order event hd

def toEth0 : RouteRule := ⟨"lan", .cidr (.v4 ⟨0x0a000000, 8, len8_v4⟩), ⟨"eth0"⟩, 100⟩

/- Two interfaces and one default rule, which goes out of eth0. -/
def twoLinks : Config where
  interfaces := (AList.insert "eth0" ⟨.lan, .name "eth0", 100⟩ ∅).insert "wlan0"
    ⟨.wlan, .name "wlan0", 100⟩
  routing := ⟨[toEth0]⟩

def bothUp : List InterfaceInfo :=
  [{ name := "eth0", interfaceType := .lan, isUp := true },
    { name := "wlan0", interfaceType := .wlan, isUp := true }]

def ethDown : RouteOrder × NetworkEvent := ⟨.asListed, .interfaceChanged "eth0" .down⟩
def wlanUp : RouteOrder × NetworkEvent := ⟨.asListed, .interfaceChanged "wlan0" .up⟩

theorem active_up_iff_safe_two_links :
    Throughout (handle grantAll) (fun s => ActiveUp s.dispatcher)
        (started grantAll twoLinks .default () bothUp) [ethDown, wlanUp] ↔
      InitialSafe twoLinks bothUp ∧
        Along (handle grantAll) (fun s x => Safe s.dispatcher x.2)
          (started grantAll twoLinks .default () bothUp) [ethDown, wlanUp] :=
  active_up_iff_safe grantAll_grants twoLinks (Or.inl rfl) () bothUp [ethDown, wlanUp]

/- After eth0 has gone down, the Up event of wlan0 brings its rule back. -/
theorem wlan_up_restores_eth0_rule :
    ¬ Throughout (handle grantAll) (fun s => ActiveUp s.dispatcher)
      (started grantAll twoLinks .default () bothUp) [ethDown, wlanUp] := by
  intro h
  have hup := h _ List.prefix_rfl "lan" ⟨"lan", "eth0", 100⟩
    { name := "eth0", interfaceType := .lan } (by decide) (by decide)
  cases hup

end NicAutoswitch.Engine.LinkState
