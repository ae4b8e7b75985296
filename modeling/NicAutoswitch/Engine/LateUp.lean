import NicAutoswitch.Engine.LinkState

/-!
# An interface that is up at startup and one that comes up later

The initial state applies the default rules for interfaces that are configured, an Up
event for any interface that is known.
-/

namespace NicAutoswitch.Engine.LateUp
open HashMaps Schema Monitor Router StateProg Transition LinkState

def activeNames (d : EventDispatcher) : Set String := {n | (d.activeRoute n).isSome}

/- The interfaces, with those of the name up or down. -/
def withUp (interfaces : List InterfaceInfo) (i : String) (isUp : Bool) : List InterfaceInfo :=
  interfaces.map fun info => if info.name = i then { info with isUp := isUp } else info

/- Some configured interface is up, so that the initial state applies the default rules. -/
def AppliesInitially (config : Config) (interfaces : List InterfaceInfo) : Prop :=
  ∃ info ∈ interfaces, info.isUp = true ∧ info.name ∈ config.interfaces

/- The condition: the interface is configured, or another one that is configured is up, or
there is no default rule to apply. -/
def SameEitherWay (config : Config) (interfaces : List InterfaceInfo) (i : String) : Prop :=
  i ∈ config.interfaces ∨
    (∃ info ∈ interfaces, info.name ≠ i ∧ info.isUp = true ∧ info.name ∈ config.interfaces) ∨
    ∀ rule ∈ config.routing.defaultRules, ¬ RuleOperator.Installable rule

variable {κ : Type} {rt : Rtnetlink κ} {config : Config} {rm : RouteManager}
  {interfaces : List InterfaceInfo} {i : String}

theorem installable_iff (rules : List RouteRule) :
    (∃ n, (firstInstallable rules n).isSome) ↔ ∃ rule ∈ rules, RuleOperator.Installable rule := by
  apply Iff.intro
  · rintro ⟨n, h⟩
    obtain ⟨rule, hr⟩ := Option.isSome_iff_exists.mp h
    obtain ⟨hm, _, hi⟩ := firstInstallable_spec hr
    exact ⟨rule, hm, hi⟩
  · rintro ⟨rule, hm, hi⟩
    obtain ⟨r, hr⟩ := firstInstallable_isSome hm hi
    exact ⟨rule.name, by rw [hr]; rfl⟩

/- With the interface up, the initial state applies the rules if it is configured, or if
another interface that is up is. -/
theorem appliesInitially_withUp (hi : i ∈ interfaces.map (·.name)) :
    AppliesInitially config (withUp interfaces i true) ↔ i ∈ config.interfaces ∨
      ∃ info ∈ interfaces, info.name ≠ i ∧ info.isUp = true ∧ info.name ∈ config.interfaces := by
  unfold AppliesInitially withUp
  apply Iff.intro
  · rintro ⟨_, hm, hu, hc⟩
    obtain ⟨info, hinfo, rfl⟩ := List.mem_map.mp hm
    by_cases hn : info.name = i
    · rw [if_pos hn] at hc
      exact Or.inl (hn ▸ hc)
    · rw [if_neg hn] at hu hc
      exact Or.inr ⟨info, hinfo, hn, hu, hc⟩
  · rintro (hc | ⟨info, hinfo, hn, hu, hc⟩)
    · obtain ⟨info, hinfo, hn⟩ := List.mem_map.mp hi
      refine ⟨_, List.mem_map.mpr ⟨info, hinfo, if_pos hn⟩, rfl, ?_⟩
      show info.name ∈ config.interfaces
      rw [hn]
      exact hc
    · exact ⟨info, List.mem_map.mpr ⟨info, hinfo, if_neg hn⟩, hu, hc⟩

/-! ### Startup -/

theorem mem_activeNames_started (hg : rt.Grants) (hr : rm.Ready) (k : κ) (n : String) :
    n ∈ activeNames (started rt config rm k interfaces).dispatcher ↔
      AppliesInitially config interfaces ∧
        (firstInstallable config.routing.defaultRules n).isSome := by
  have hnone : ∀ m, ((Dispatch.launch config rm k).dispatcher.withInterfaces
      interfaces).activeRoute m = none := fun m => AList.lookup_empty m
  rw [started_dispatcher hg config hr k interfaces]
  show (EventDispatcher.activeRoute (EventDispatcher.grantedInitialState _ _) n).isSome ↔ _
  unfold EventDispatcher.grantedInitialState
  cases hup : (Dispatch.launch config rm k).dispatcher.upNames interfaces with
  | nil =>
    have hno := (upNames_nil_iff _ interfaces).mp hup
    refine iff_of_false ?_ fun h => hno h.1
    rw [List.foldl_nil, hnone n]
    exact Bool.false_ne_true
  | cons name rest =>
    have hex : AppliesInitially config interfaces := by
      by_contra hno
      have hnil := (upNames_nil_iff (Dispatch.launch config rm k).dispatcher interfaces).mpr hno
      rw [hup] at hnil
      cases hnil
    rw [EventDispatcher.activeRoute_foldl_grantedDefaults,
      EventDispatcher.activeRoute_grantedDefaults, hnone n, Option.none_or, Option.isSome_map]
    exact (and_iff_right hex).symm

theorem started_networkState (hg : rt.Grants) (hr : rm.Ready) (k : κ) :
    (started rt config rm k interfaces).dispatcher.networkState =
      interfaces.foldl NetworkState.updateInterface .new := by
  rw [started_dispatcher hg config hr k interfaces]
  exact (EventDispatcher.foldl_grantedDefaults_view _ _).networkState

theorem started_ssids (hg : rt.Grants) (hr : rm.Ready) (k : κ) :
    (started rt config rm k interfaces).dispatcher.currentSsids = ∅ := by
  rw [started_dispatcher hg config hr k interfaces]
  exact (EventDispatcher.foldl_grantedDefaults_view _ _).currentSsids

theorem started_live (hg : rt.Grants) (hr : rm.Ready) (k : κ) :
    Live config (started rt config rm k interfaces).dispatcher := by
  rw [started_dispatcher hg config hr k interfaces]
  exact EventDispatcher.live_granted trivial (EventDispatcher.live_launch config hr k)

/-! ### The Up event -/

theorem known_foldl (l : List InterfaceInfo) (ns : NetworkState)
    (h : i ∈ l.map (·.name) ∨ (ns.getInterface i).isSome) :
    ((l.foldl NetworkState.updateInterface ns).getInterface i).isSome := by
  induction l generalizing ns with
  | nil => simpa using h
  | cons info rest ih =>
    rw [List.foldl_cons]
    refine ih _ ?_
    have hget : (ns.updateInterface info).getInterface i =
        if i = info.name then some info else ns.getInterface i :=
      lookup_insert_eq_ite ns.interfaces info.name i info
    rw [hget]
    split_ifs with hn
    · exact Or.inr rfl
    · rcases h with hm | hs
      · exact Or.inl ((List.mem_cons.mp hm).resolve_left hn)
      · exact Or.inr hs

/- The Up event of a known interface without an SSID applies the default rules. -/
theorem shouldApply_up {d : EventDispatcher} (hk : (d.networkState.getInterface i).isSome)
    (hs : d.currentSsids = ∅) : (d.observing (.interfaceChanged i .up)).shouldApply i = true := by
  obtain ⟨info, hl⟩ := Option.isSome_iff_exists.mp hk
  have hget := NetworkState.getInterface_withInterface d.networkState i i
    fun info => { info with isUp := true }
  rw [if_pos rfl, hl] at hget
  have hknown : (d.observing (.interfaceChanged i .up)).networkState.getInterface i =
    some { info with isUp := true } := hget
  unfold EventDispatcher.shouldApply
  rw [hknown]
  show (true && !decide (i ∈ d.currentSsids)) = true
  rw [hs]
  rfl

theorem mem_activeNames_lateUp (hg : rt.Grants) (hr : rm.Ready) (k : κ)
    (hi : i ∈ interfaces.map (·.name)) (order : RouteOrder) (n : String) :
    n ∈ activeNames (handle rt (started rt config rm k interfaces)
        (order, .interfaceChanged i .up)).dispatcher ↔
      (firstInstallable config.routing.defaultRules n).isSome := by
  have hlive : Live config (started rt config rm k interfaces).dispatcher := started_live hg hr k
  have hknown : ((started rt config rm k interfaces).dispatcher.networkState.getInterface i
      ).isSome := by
    rw [started_networkState hg hr k]
    exact known_foldl interfaces .new (Or.inl hi)
  have happly := shouldApply_up hknown (started_ssids hg hr k)
  have hold : n ∈ activeNames (started rt config rm k interfaces).dispatcher ↔ _ :=
    mem_activeNames_started hg hr k n
  rw [handle, perform_granted hg _ _ hlive.ready]
  show (EventDispatcher.activeRoute (EventDispatcher.grantedEvent _ _ _) n).isSome ↔ _
  rw [EventDispatcher.grantedEvent_running hlive.running]
  show (EventDispatcher.activeRoute (EventDispatcher.grantedUp _ i) n).isSome ↔ _
  unfold EventDispatcher.grantedUp
  rw [if_pos happly, EventDispatcher.activeRoute_grantedDefaults, Option.isSome_or,
    Option.isSome_map, Bool.or_eq_true]
  show n ∈ activeNames (started rt config rm k interfaces).dispatcher ∨
    (firstInstallable (started rt config rm k interfaces).dispatcher.config.routing.defaultRules n
      ).isSome = true ↔ _
  rw [hold, hlive.config]
  exact or_iff_right_of_imp And.right

/- Startup with the interface up leaves the same rules active as startup with it down and
its Up event exactly if the interface is configured, another one that is configured is up,
or no default rule can be applied. -/
theorem late_up_iff (hg : rt.Grants) (config : Config) {rm : RouteManager} (hr : rm.Ready)
    (k k' : κ) (interfaces : List InterfaceInfo) (i : String)
    (hi : i ∈ interfaces.map (·.name)) (order : RouteOrder) :
    activeNames (started rt config rm k (withUp interfaces i true)).dispatcher =
        activeNames (handle rt (started rt config rm k' (withUp interfaces i false))
          (order, .interfaceChanged i .up)).dispatcher ↔
      SameEitherWay config interfaces i := by
  have hnames : (withUp interfaces i false).map (·.name) = interfaces.map (·.name) := by
    unfold withUp
    rw [List.map_map]
    refine List.map_congr_left fun info _ => ?_
    show (if info.name = i then _ else info : InterfaceInfo).name = info.name
    split_ifs <;> rfl
  rw [Set.ext_iff]
  simp only [mem_activeNames_started hg hr k, appliesInitially_withUp hi,
    mem_activeNames_lateUp hg hr k' (hnames.symm ▸ hi) order]
  have hsome := installable_iff config.routing.defaultRules
  unfold SameEitherWay
  rw [← or_assoc]
  apply Iff.intro
  · intro h
    by_cases hex : ∃ rule ∈ config.routing.defaultRules, RuleOperator.Installable rule
    · obtain ⟨n, hn⟩ := hsome.mpr hex
      exact Or.inl ((h n).mpr hn).1
    · exact Or.inr fun rule hm hins => hex ⟨rule, hm, hins⟩
  · rintro (h | h) n
    · exact and_iff_right h
    · have hno : ¬ (firstInstallable config.routing.defaultRules n).isSome := by
        intro hn
        obtain ⟨rule, hm, hins⟩ := hsome.mp ⟨n, hn⟩
        exact h rule hm hins
      exact iff_of_false (fun hx => hno hx.2) hno

/- The interface wlan0 alone, which is configured in `twoLinks`. -/
def onlyWlan : List InterfaceInfo := [{ name := "wlan0", interfaceType := .wlan }]

theorem late_up_iff_wlan :
    activeNames (started grantAll twoLinks .default () (withUp onlyWlan "wlan0" true)).dispatcher =
        activeNames (handle grantAll (started grantAll twoLinks .default ()
          (withUp onlyWlan "wlan0" false)) (.asListed, .interfaceChanged "wlan0" .up)).dispatcher ↔
      SameEitherWay twoLinks onlyWlan "wlan0" :=
  late_up_iff grantAll_grants twoLinks (Or.inl rfl) () () onlyWlan "wlan0" (by decide) .asListed

/- The same rule, and eth0 alone is configured. -/
def onlyEth : Config where
  interfaces := AList.insert "eth0" ⟨.lan, .name "eth0", 100⟩ ∅
  routing := ⟨[toEth0]⟩

/- An interface that is not configured applies the rule when it comes up, and does not when
it is up at startup. -/
theorem unconfigured_up_applies :
    activeNames (started grantAll onlyEth .default () (withUp onlyWlan "wlan0" true)).dispatcher ≠
      activeNames (handle grantAll (started grantAll onlyEth .default ()
        (withUp onlyWlan "wlan0" false)) (.asListed, .interfaceChanged "wlan0" .up)).dispatcher := by
  intro h
  have hlate : "lan" ∈ activeNames (handle grantAll (started grantAll onlyEth .default ()
      (withUp onlyWlan "wlan0" false)) (.asListed, .interfaceChanged "wlan0" .up)).dispatcher :=
    show Option.isSome _ = true by decide
  rw [← h] at hlate
  exact absurd hlate (show ¬ Option.isSome _ = true by decide)

end NicAutoswitch.Engine.LateUp
