import NicAutoswitch.Engine.LinkState

/-!
# One table for each interface

A rule is installed in the table of the interface whose event applies it, and its
route goes out of the interface that the rule names. The two agree only where the
rules that are applied together name one interface.
-/

namespace NicAutoswitch.Engine.OwnTables
open HashMaps Schema Monitor Router Transition LinkState

/- Routes out of different interfaces are in different tables. -/
def Apart (active : String → Option ActiveRoute) : Prop :=
  ∀ n m a b, active n = some a → active m = some b → a.interface ≠ b.interface →
    a.tableId ≠ b.tableId

def TablesApart (d : EventDispatcher) : Prop := Apart d.activeRoute

/-! ### Rules recorded in one table -/

/- The rules recorded together name one interface, and no entry of another interface
stays in their table. -/
def OneInterface (active : String → Option ActiveRoute) (t : ℕ) (new : String → Option RouteRule) :
    Prop :=
  (∀ n m r r', new n = some r → new m = some r' → r.routeVia.interface = r'.routeVia.interface) ∧
    ∀ n m r a, new n = some r → new m = none → active m = some a → a.tableId = t →
      a.interface = r.routeVia.interface

theorem apart_recorded {active active' : String → Option ActiveRoute} {t : ℕ}
    {new : String → Option RouteRule}
    (he : ∀ n, active' n = ((new n).map (entryOf t)).or (active n)) (h : Apart active) :
    Apart active' ↔ OneInterface active t new := by
  have hnew : ∀ n r, new n = some r → active' n = some (entryOf t r) := by
    intro n r hr
    rw [he, hr]
    rfl
  have hold : ∀ n, new n = none → active' n = active n := by
    intro n hn
    rw [he, hn]
    rfl
  apply Iff.intro
  · intro ha
    refine ⟨fun n m r r' hr hr' => ?_, fun n m r a hr hm hact ht => ?_⟩
    · by_contra hne
      exact ha n m _ _ (hnew n r hr) (hnew m r' hr') hne rfl
    · by_contra hne
      exact ha m n a _ ((hold m hm).trans hact) (hnew n r hr) hne ht
  · intro ho n m a b ha hb hne ht
    cases hn : new n with
    | some r =>
      rw [hnew n r hn] at ha
      cases ha
      cases hm : new m with
      | some r' =>
        rw [hnew m r' hm] at hb
        cases hb
        exact hne (ho.1 n m r r' hn hm)
      | none =>
        rw [hold m hm] at hb
        exact hne (ho.2 n m r b hn hm hb ht.symm).symm
    | none =>
      rw [hold n hn] at ha
      cases hm : new m with
      | some r' =>
        rw [hnew m r' hm] at hb
        cases hb
        exact hne (ho.2 m n r' a hm hn ha ht)
      | none =>
        rw [hold m hm] at hb
        exact h n m a b ha hb hne ht

/- The default rules that applying them would record, by name. -/
def newDefaults (d : EventDispatcher) (n : String) : Option RouteRule :=
  match d.activeRoute n with
  | some _ => none
  | none => firstInstallable d.config.routing.defaultRules n

def newRules (d : EventDispatcher) (ssid : Option String) (n : String) : Option RouteRule :=
  match ssid.bind d.config.wifiProfiles.lookup with
  | some profile => lastInstallable profile.rules n
  | none => newDefaults d n

/- The condition on rules that an event of the interface applies. -/
def KeepsApart (d : EventDispatcher) (i : String) (new : String → Option RouteRule) : Prop :=
  OneInterface d.activeRoute (d.getTableIdForInterface i).1 new

theorem defaults_step (d : EventDispatcher) (i : String) (h : TablesApart d) :
    TablesApart (d.grantedDefaults i) ↔ KeepsApart d i (newDefaults d) := by
  refine apart_recorded (fun n => ?_) h
  rw [EventDispatcher.activeRoute_grantedDefaults, newDefaults]
  cases d.activeRoute n with
  | some a => rfl
  | none => exact (Option.or_none).symm

theorem rules_step (d : EventDispatcher) (i : String) (ssid : Option String)
    (h : TablesApart d) :
    TablesApart (d.grantedRulesFor i ssid) ↔ KeepsApart d i (newRules d ssid) := by
  cases hp : ssid.bind d.config.wifiProfiles.lookup with
  | none =>
    have hd := defaults_step d i h
    have hn : newRules d ssid = newDefaults d := by
      funext n
      unfold newRules
      rw [hp]
    rw [EventDispatcher.grantedRulesFor_none i hp, hn]
    exact hd
  | some profile =>
    refine apart_recorded (fun n => ?_) h
    unfold newRules
    rw [EventDispatcher.activeRoute_grantedRulesFor_profile i n hp, hp]

/-! ### One event -/

def Safe (d : EventDispatcher) (event : NetworkEvent) : Prop :=
  match event with
  | .interfaceChanged i .up =>
    (d.observing event).shouldApply i = true → KeepsApart d i (newDefaults d)
  | .wifiConnected i ssid => KeepsApart d i (newRules d (some ssid))
  | .wifiDisconnected i _ => KeepsApart d i (newDefaults d)
  | .addressChanged i _ _ => KeepsApart d i (newRules d (d.currentSsid i))
  | _ => True

theorem up_step (d : EventDispatcher) (i : String) (h : TablesApart d) :
    TablesApart (d.grantedUp i) ↔
      (d.shouldApply i = true → KeepsApart d i (newDefaults d)) := by
  unfold EventDispatcher.grantedUp
  split_ifs with hs
  · rw [defaults_step d i h]
    exact ⟨fun hk _ => hk, fun hk => hk hs⟩
  · exact iff_of_true h (fun ht => absurd ht hs)

/- Withdrawing routes separates no less. -/
theorem down_apart (d : EventDispatcher) (order : RouteOrder) (i : String) (h : TablesApart d) :
    TablesApart (d.grantedDown order i) := by
  intro n m a b ha hb
  have ha' := ((EventDispatcher.activeRoute_grantedDown d order i n a).mp ha).1
  have hb' := ((EventDispatcher.activeRoute_grantedDown d order i m b).mp hb).1
  exact h n m a b ha' hb'

theorem event_step {d : EventDispatcher} (hr : d.state = .running) (order : RouteOrder)
    (event : NetworkEvent) (h : TablesApart d) :
    TablesApart (d.grantedEvent order event) ↔ Safe d event := by
  rw [EventDispatcher.grantedEvent_running hr]
  cases event with
  | interfaceChanged i change =>
    cases change with
    | up => exact up_step (d.observing (.interfaceChanged i .up)) i h
    | down => exact iff_of_true (down_apart _ order i h) trivial
    | removed => exact iff_of_true (down_apart _ order i h) trivial
    | added => exact iff_of_true h trivial
  | wifiConnected i ssid => exact rules_step _ i (some ssid) h
  | wifiDisconnected i last => exact defaults_step _ i h
  | addressChanged i added removed => exact rules_step _ i (d.currentSsid i) h
  | routeChanged i destination gateway added => exact iff_of_true h trivial

/-! ### Runs -/

variable {κ : Type}

/- Where an interface that is up is configured, the default rules go out of one
interface. -/
def InitialSafe (config : Config) (interfaces : List InterfaceInfo) : Prop :=
  (∃ info ∈ interfaces, info.isUp = true ∧ info.name ∈ config.interfaces) →
    ∀ n m r r', firstInstallable config.routing.defaultRules n = some r →
      firstInstallable config.routing.defaultRules m = some r' →
        r.routeVia.interface = r'.routeVia.interface

theorem apart_started {rt : Rtnetlink κ} (hg : rt.Grants) (config : Config)
    {rm : RouteManager} (hr : rm.Ready) (k : κ) (interfaces : List InterfaceInfo) :
    TablesApart (started rt config rm k interfaces).dispatcher ↔
      InitialSafe config interfaces := by
  rw [started_dispatcher hg config hr k interfaces]
  have hnone : ∀ n, ((Dispatch.launch config rm k).dispatcher.withInterfaces
      interfaces).activeRoute n = none := fun n => AList.lookup_empty n
  have hapart : TablesApart ((Dispatch.launch config rm k).dispatcher.withInterfaces
      interfaces) := by
    intro n m a b ha
    rw [hnone n] at ha
    cases ha
  have hex := upNames_nil_iff (Dispatch.launch config rm k).dispatcher interfaces
  show TablesApart (EventDispatcher.grantedInitialState _ _) ↔ _
  unfold EventDispatcher.grantedInitialState
  cases hup : (Dispatch.launch config rm k).dispatcher.upNames interfaces with
  | nil => exact iff_of_true hapart (fun hx => absurd hx (hex.mp hup))
  | cons name rest =>
    have hx := not_not.mp (fun hno => List.cons_ne_nil name rest (hup.symm.trans (hex.mpr hno)))
    have hnew : newDefaults ((Dispatch.launch config rm k).dispatcher.withInterfaces interfaces) =
        firstInstallable config.routing.defaultRules := by
      funext n
      unfold newDefaults
      rw [hnone n]
      rfl
    have hfirst : ∀ n, EventDispatcher.activeRoute _ n = _ :=
      EventDispatcher.activeRoute_foldl_grantedDefaults name rest
        ((Dispatch.launch config rm k).dispatcher.withInterfaces interfaces)
    have hiff := defaults_step _ name hapart
    unfold TablesApart at hiff ⊢
    rw [funext hfirst, hiff, KeepsApart, OneInterface, hnew]
    refine ⟨fun h _ => h.1, fun h => ⟨h hx, fun n m r a _ _ ha => ?_⟩⟩
    rw [hnone m] at ha
    cases ha

/- Active routes out of different interfaces never share a table exactly in the runs whose
initial state and events apply rules of one interface to a table. -/
theorem tables_apart_iff_safe {rt : Rtnetlink κ} (hg : rt.Grants) (config : Config)
    {rm : RouteManager} (hr : rm.Ready) (k : κ) (interfaces : List InterfaceInfo)
    (events : List (RouteOrder × NetworkEvent)) :
    Throughout (handle rt) (fun s => TablesApart s.dispatcher)
        (started rt config rm k interfaces) events ↔
      InitialSafe config interfaces ∧
        Along (handle rt) (fun s x => Safe s.dispatcher x.2)
          (started rt config rm k interfaces) events := by
  rw [← apart_started hg config hr k interfaces]
  exact throughout_events_iff hg config hr k interfaces events TablesApart Safe
    fun _ order event hrun hd => event_step hrun order event hd

def toWlan0 : RouteRule := ⟨"wifi", .cidr (.v4 ⟨0xac100000, 12, len12_v4⟩), ⟨"wlan0"⟩, 200⟩

/- Two interfaces, with a default rule for each. -/
def ruleEach : Config := { twoLinks with routing := ⟨[toEth0, toWlan0]⟩ }

theorem tables_apart_iff_safe_rule_each :
    Throughout (handle grantAll) (fun s => TablesApart s.dispatcher)
        (started grantAll ruleEach .default () bothUp) [ethDown, wlanUp] ↔
      InitialSafe ruleEach bothUp ∧
        Along (handle grantAll) (fun s x => Safe s.dispatcher x.2)
          (started grantAll ruleEach .default () bothUp) [ethDown, wlanUp] :=
  tables_apart_iff_safe grantAll_grants ruleEach (Or.inl rfl) () bothUp [ethDown, wlanUp]

/- Both rules are installed for the first of the two interfaces, in its table. -/
theorem two_rules_share_table :
    ¬ Throughout (handle grantAll) (fun s => TablesApart s.dispatcher)
      (started grantAll ruleEach .default () bothUp) [] := by
  intro h
  have hd := h [] List.nil_prefix "lan" "wifi" ⟨"lan", "eth0", 101⟩ ⟨"wifi", "wlan0", 101⟩
    (by decide) (by decide) (by decide)
  exact hd rfl

end NicAutoswitch.Engine.OwnTables
