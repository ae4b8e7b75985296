import NicAutoswitch.Engine.LinkFlap

/-!
# Rules of WiFi profiles

Joining a network applies the rules of its profile. Nothing withdraws them when the
network is left or another one is joined.
-/

namespace NicAutoswitch.Engine.WifiRules
open HashMaps Schema Monitor Router StateProg Transition

/- The name is that of a default rule, or of a rule of a network that is recorded. -/
def Owned (config : Config) (ssids : HashMap String String) (n : String) : Prop :=
  (∃ rule ∈ config.routing.defaultRules, rule.name = n) ∨
    ∃ i ssid profile, ssids.lookup i = some ssid ∧
      config.wifiProfiles.lookup ssid = some profile ∧ ∃ rule ∈ profile.rules, rule.name = n

def OnlyConnected (d : EventDispatcher) : Prop :=
  ∀ n a, d.activeRoute n = some a → Owned d.config d.currentSsids n

/- The network that is recorded for the interface and gives way to `next` is recorded
for another interface too, or none of its rules is active. -/
def DropSafe (d : EventDispatcher) (i : String) (next : Option String) : Prop :=
  ∀ ssid, d.currentSsids.lookup i = some ssid → next ≠ some ssid →
    (∃ j, j ≠ i ∧ d.currentSsids.lookup j = some ssid) ∨
      ∀ profile, d.config.wifiProfiles.lookup ssid = some profile →
        ∀ rule ∈ profile.rules, d.activeRoute rule.name = none

def Safe (d : EventDispatcher) : Dispatch.Op → Prop
  | .handleEvent _ (.wifiConnected i ssid) => DropSafe d i (some ssid)
  | .handleEvent _ (.wifiDisconnected i _) => DropSafe d i none
  | _ => True

/-! ### A name has one owner -/

theorem profile_names_nodup {config : Config} (hc : config.DistinctNames) :
    ((config.wifiProfiles.entries.flatMap fun e => e.2.rules).map RouteRule.name).Nodup := by
  have h : (config.allRules.map RouteRule.name).Nodup := hc
  unfold Config.allRules values at h
  rw [List.flatMap_map, List.map_append] at h
  exact (List.nodup_append.mp h).2.1

theorem default_not_profile {config : Config} (hc : config.DistinctNames) {ssid : String}
    {profile : WifiProfile} (hp : config.wifiProfiles.lookup ssid = some profile)
    {r r' : RouteRule} (hr : r ∈ config.routing.defaultRules) (hr' : r' ∈ profile.rules) :
    r.name ≠ r'.name := by
  have h : (config.allRules.map RouteRule.name).Nodup := hc
  unfold Config.allRules at h
  rw [List.map_append] at h
  have hdis := (List.nodup_append.mp h).2.2
  refine hdis r.name (List.mem_map_of_mem hr) r'.name (List.mem_map_of_mem ?_)
  exact List.mem_flatMap.mpr ⟨profile, (mem_values_iff _ _).mpr ⟨ssid, hp⟩, hr'⟩

theorem profile_unique {config : Config} (hc : config.DistinctNames) {s s' : String}
    {p p' : WifiProfile} (hp : config.wifiProfiles.lookup s = some p)
    (hp' : config.wifiProfiles.lookup s' = some p') {r r' : RouteRule} (hr : r ∈ p.rules)
    (hr' : r' ∈ p'.rules) (hn : r.name = r'.name) : s = s' := by
  by_contra hne
  have hnd := profile_names_nodup hc
  rw [List.map_flatMap] at hnd
  have hpair := (List.nodup_flatMap.mp hnd).2
  have hsymm : Std.Symm (Function.onFun List.Disjoint
      fun e : Σ _ : String, WifiProfile => e.2.rules.map RouteRule.name) :=
    ⟨fun _ _ h => h.symm⟩
  have hdis := hpair.forall ((mem_entries_iff _ s p).mpr hp) ((mem_entries_iff _ s' p').mpr hp')
    (fun he => hne (congrArg Sigma.fst he))
  exact hdis (List.mem_map_of_mem hr) (hn ▸ List.mem_map_of_mem hr')

/-! ### One operation -/

/- The active routes of `d'` are those of `d` and others with an owner. -/
structure Adds (ssids : HashMap String String) (d d' : EventDispatcher) : Prop where
  keeps : ∀ n a, d.activeRoute n = some a → ∃ b, d'.activeRoute n = some b
  owned : ∀ n b, d'.activeRoute n = some b →
    (∃ a, d.activeRoute n = some a) ∨ Owned d.config ssids n

theorem adds_defaults (ssids : HashMap String String) (d : EventDispatcher) (i : String) :
    Adds ssids d (d.grantedDefaults i) := by
  have hd := EventDispatcher.activeRoute_grantedDefaults d i
  refine ⟨?_, ?_⟩
  · intro n a ha
    exact ⟨a, by rw [hd, ha]; rfl⟩
  · intro n b hb
    rcases EventDispatcher.active_grantedDefaults hb with hold | ⟨_, rule, hf, _⟩
    · exact Or.inl ⟨b, hold⟩
    · obtain ⟨hm, hname, _⟩ := firstInstallable_spec hf
      exact Or.inr (Or.inl ⟨rule, hm, hname⟩)

theorem adds_rulesFor {ssids : HashMap String String} (d : EventDispatcher) (i : String)
    {ssid : Option String} (hs : ∀ s, ssid = some s → ∃ j, ssids.lookup j = some s) :
    Adds ssids d (d.grantedRulesFor i ssid) := by
  cases hp : ssid.bind d.config.wifiProfiles.lookup with
  | none =>
    rw [EventDispatcher.grantedRulesFor_none i hp]
    exact adds_defaults ssids d i
  | some profile =>
    have hd := fun n => EventDispatcher.activeRoute_grantedRulesFor_profile i n hp
    obtain ⟨s, hs1, hs2⟩ := Option.bind_eq_some_iff.mp hp
    obtain ⟨j, hj⟩ := hs s hs1
    refine ⟨?_, ?_⟩
    · intro n a ha
      rw [hd, ha]
      cases lastInstallable profile.rules n with
      | none => exact ⟨a, rfl⟩
      | some rule => exact ⟨_, rfl⟩
    · intro n b hb
      rcases EventDispatcher.active_grantedRulesFor_profile hp hb with ⟨rule, hf, _⟩ | hold
      · obtain ⟨hm, hname, _⟩ := lastInstallable_spec hf
        exact Or.inr (Or.inr ⟨j, s, profile, hj, hs2, rule, hm, hname⟩)
      · exact Or.inl ⟨b, hold⟩

/- Adding owned routes changes nothing in whether all routes have an owner. -/
theorem owned_iff_of_adds {ssids : HashMap String String} {d d' : EventDispatcher}
    (h : Adds ssids d d') :
    (∀ n b, d'.activeRoute n = some b → Owned d.config ssids n) ↔
      ∀ n a, d.activeRoute n = some a → Owned d.config ssids n := by
  refine ⟨?_, ?_⟩
  · intro ho n a ha
    obtain ⟨b, hb⟩ := h.keeps n a ha
    exact ho n b hb
  · intro ho n b hb
    rcases h.owned n b hb with hold | hnew
    · obtain ⟨a, ha⟩ := hold
      exact ho n a ha
    · exact hnew

/- Replacing one record of an SSID leaves all routes owned exactly when it is safe to
drop the old one. -/
theorem owned_iff_dropSafe {d : EventDispatcher} (hc : d.config.DistinctNames)
    (h : OnlyConnected d) {i : String} {next : Option String} {ssids : HashMap String String}
    (hi : ssids.lookup i = next) (hj : ∀ j, j ≠ i → ssids.lookup j = d.currentSsids.lookup j) :
    (∀ n a, d.activeRoute n = some a → Owned d.config ssids n) ↔ DropSafe d i next := by
  refine ⟨?_, ?_⟩
  · intro ho ssid hold hnext
    by_cases hother : ∃ j, j ≠ i ∧ d.currentSsids.lookup j = some ssid
    · exact Or.inl hother
    · refine Or.inr ?_
      intro profile hp rule hrule
      cases ha : d.activeRoute rule.name with
      | none => rfl
      | some a =>
        exfalso
        rcases ho rule.name a ha with hdef | hprof
        · obtain ⟨r, hr, hn⟩ := hdef
          exact default_not_profile hc hp hr hrule hn
        · obtain ⟨j, s, p, hl, hp', r, hr, hn⟩ := hprof
          have hs : s = ssid := profile_unique hc hp' hp hr hrule hn
          subst hs
          by_cases hji : j = i
          · subst hji
            exact hnext (hi.symm.trans hl)
          · exact hother ⟨j, hji, (hj j hji).symm.trans hl⟩
  · intro hs n a ha
    rcases h n a ha with hdef | hprof
    · exact Or.inl hdef
    · obtain ⟨j, s, p, hl, hp, rule, hrule, hn⟩ := hprof
      by_cases hji : j = i
      · subst hji
        by_cases hnext : next = some s
        · exact Or.inr ⟨j, s, p, hi.trans hnext, hp, rule, hrule, hn⟩
        · rcases hs s hl hnext with hother | hnone
          · obtain ⟨j', hne, hl'⟩ := hother
            exact Or.inr ⟨j', s, p, (hj j' hne).trans hl', hp, rule, hrule, hn⟩
          · have hinactive := hnone p hp rule hrule
            rw [hn, ha] at hinactive
            cases hinactive
      · exact Or.inr ⟨j, s, p, (hj j hji).trans hl, hp, rule, hrule, hn⟩

theorem connected_step {d : EventDispatcher} (hc : d.config.DistinctNames)
    (h : OnlyConnected d) (i ssid : String) :
    OnlyConnected ((d.recordSsid i ssid).grantedRulesFor i (some ssid)) ↔
      DropSafe d i (some ssid) := by
  have hv := EventDispatcher.grantedRulesFor_view (d.recordSsid i ssid) i (some ssid)
  have hnew : (d.recordSsid i ssid).currentSsids.lookup i = some ssid := AList.lookup_insert _
  have hrec : ∀ s, some ssid = some s →
      ∃ j, (d.recordSsid i ssid).currentSsids.lookup j = some s :=
    fun s hs => ⟨i, by rw [hnew, hs]⟩
  have hadds := adds_rulesFor (d.recordSsid i ssid) i hrec
  unfold OnlyConnected
  rw [hv.config, hv.currentSsids, owned_iff_of_adds hadds]
  exact owned_iff_dropSafe hc h hnew (fun j hj => AList.lookup_insert_ne hj)

theorem disconnected_step {d : EventDispatcher} (hc : d.config.DistinctNames)
    (h : OnlyConnected d) (i : String) :
    OnlyConnected ((d.forgetSsid i).grantedDefaults i) ↔ DropSafe d i none := by
  have hv := EventDispatcher.grantedDefaults_view (d.forgetSsid i) i
  have hadds := adds_defaults (d.forgetSsid i).currentSsids (d.forgetSsid i) i
  unfold OnlyConnected
  rw [hv.config, hv.currentSsids, owned_iff_of_adds hadds]
  exact owned_iff_dropSafe hc h (AList.lookup_erase _ _) (fun j hj => AList.lookup_erase_ne hj)

/- The other operations leave the records alone and add owned routes at most. -/
theorem onlyConnected_defaults {d : EventDispatcher} (h : OnlyConnected d) (i : String) :
    OnlyConnected (d.grantedDefaults i) := by
  have hv := EventDispatcher.grantedDefaults_view d i
  unfold OnlyConnected
  rw [hv.config, hv.currentSsids, owned_iff_of_adds (adds_defaults d.currentSsids d i)]
  exact h

theorem onlyConnected_foldl {d : EventDispatcher} (names : List String) (h : OnlyConnected d) :
    OnlyConnected (names.foldl EventDispatcher.grantedDefaults d) :=
  run_preserves EventDispatcher.grantedDefaults OnlyConnected
    (fun _ name hd => onlyConnected_defaults hd name) d names h

theorem onlyConnected_down {d : EventDispatcher} (h : OnlyConnected d) (order : RouteOrder)
    (i : String) : OnlyConnected (d.grantedDown order i) := by
  intro n a ha
  exact h n a ((EventDispatcher.activeRoute_grantedDown d order i n a).mp ha).1

theorem onlyConnected_address {d : EventDispatcher} (h : OnlyConnected d) (i : String) :
    OnlyConnected (d.grantedRulesFor i (d.currentSsid i)) := by
  have hv := EventDispatcher.grantedRulesFor_view d i (d.currentSsid i)
  have hrec : ∀ s, d.currentSsid i = some s → ∃ j, d.currentSsids.lookup j = some s :=
    fun s hs => ⟨i, hs⟩
  have hadds := adds_rulesFor d i hrec
  unfold OnlyConnected
  rw [hv.config, hv.currentSsids, owned_iff_of_adds hadds]
  exact h

theorem granted_step {config : Config} (hc : config.DistinctNames) {d : EventDispatcher}
    {op : Dispatch.Op} (hop : op.Steady) (hl : Live config d) (h : OnlyConnected d) :
    OnlyConnected (d.granted op) ↔ Safe d op := by
  have hcd : d.config.DistinctNames := hl.config.symm ▸ hc
  cases op with
  | stop => cases hop
  | updateConfig config => cases hop
  | start =>
    have hs : d.start = d := if_pos hl.running
    refine iff_of_true ?_ trivial
    show OnlyConnected d.start
    rw [hs]
    exact h
  | applyInitialState interfaces =>
    refine iff_of_true ?_ trivial
    have hw : OnlyConnected (d.withInterfaces interfaces) := h
    exact onlyConnected_foldl (d.upNames interfaces) hw
  | handleEvent order event =>
    have he : d.granted (.handleEvent order event) = _ :=
      EventDispatcher.grantedEvent_running hl.running order event
    have ho : OnlyConnected (d.observing event) := h
    rw [he]
    cases event with
    | interfaceChanged i change =>
      refine iff_of_true ?_ trivial
      cases change with
      | down => exact onlyConnected_down ho order i
      | removed => exact onlyConnected_down ho order i
      | added => exact ho
      | up =>
        show OnlyConnected (EventDispatcher.grantedUp _ i)
        unfold EventDispatcher.grantedUp
        split
        · exact onlyConnected_defaults ho i
        · exact ho
    | wifiConnected i ssid =>
      exact connected_step (d := d.observing (.wifiConnected i ssid)) hcd ho i ssid
    | wifiDisconnected i last =>
      exact disconnected_step (d := d.observing (.wifiDisconnected i last)) hcd ho i
    | addressChanged i added removed => exact iff_of_true (onlyConnected_address ho i) trivial
    | routeChanged i destination gateway added => exact iff_of_true ho trivial

/-! ### Runs -/

variable {κ : Type}

/- Only the rules of connected networks are in force, at any point of a run, exactly when
no step drops a network whose rules are active and that no other interface is in. -/
theorem only_connected_iff_safe {rt : Rtnetlink κ} (hg : rt.Grants) {config : Config}
    (hc : config.DistinctNames) {rm : RouteManager} (hr : rm.Ready) (k : κ)
    {ops : List Dispatch.Op} (hops : ∀ op ∈ ops, op.Steady) :
    Throughout (Dispatch.perform rt) (fun s => OnlyConnected s.dispatcher)
        (Dispatch.launch config rm k) ops ↔
      Along (Dispatch.perform rt) (fun s op => Safe s.dispatcher op)
        (Dispatch.launch config rm k) ops := by
  have h0 : OnlyConnected (Dispatch.launch config rm k).dispatcher := by
    intro n a ha
    have hnone : some a = none := ha.symm.trans (AList.lookup_empty n)
    cases hnone
  refine throughout_iff_along_of_along (Dispatch.perform rt) (fun s => Live config s.dispatcher)
    _ _ (fun _ op => op.Steady) ?_ ?_ _ ops ((along_const _ _ _ ops).mpr hops)
    (EventDispatcher.live_launch config hr k) h0
  · intro s op hop hl
    rw [perform_granted hg s op hl.ready]
    exact EventDispatcher.live_granted hop hl
  · intro s op hop hl hd
    rw [perform_granted hg s op hl.ready]
    exact granted_step hc hop hl hd

/- A network with one rule is joined and left. -/
def joinAndLeave : List Dispatch.Op :=
  [.handleEvent .asListed (.wifiConnected "wlan0" "corp"),
    .handleEvent .asListed (.wifiDisconnected "wlan0" (some "corp"))]

theorem joinAndLeave_steady : ∀ op ∈ joinAndLeave, op.Steady := by
  intro op hop
  simp only [joinAndLeave, List.mem_cons, List.not_mem_nil, or_false] at hop
  rcases hop with rfl | rfl <;> exact trivial

theorem only_connected_iff_safe_corp :
    Throughout (Dispatch.perform grantAll) (fun s => OnlyConnected s.dispatcher)
        (Dispatch.launch LinkFlap.corpWifi .default ()) joinAndLeave ↔
      Along (Dispatch.perform grantAll) (fun s op => Safe s.dispatcher op)
        (Dispatch.launch LinkFlap.corpWifi .default ()) joinAndLeave :=
  only_connected_iff_safe grantAll_grants LinkFlap.corpWifi_distinct (Or.inl rfl) ()
    joinAndLeave_steady

/- The rule of the network stays after the network has been left. -/
theorem corp_rule_outlives_network :
    ¬ Throughout (Dispatch.perform grantAll) (fun s => OnlyConnected s.dispatcher)
      (Dispatch.launch LinkFlap.corpWifi .default ()) joinAndLeave := by
  intro h
  have hssids : ∀ i, (run (Dispatch.perform grantAll)
      (Dispatch.launch LinkFlap.corpWifi .default ())
      joinAndLeave).dispatcher.currentSsids.lookup i = none := fun i => AList.lookup_empty i
  rcases h _ List.prefix_rfl "corp" ⟨"corp", "wlan0", 100⟩ (by decide) with hdef | hprof
  · obtain ⟨rule, hm, hn⟩ := hdef
    have hnames : "corp" ∉ LinkFlap.corpWifi.routing.defaultRules.map RouteRule.name := by decide
    exact hnames (hn ▸ List.mem_map_of_mem hm)
  · obtain ⟨i, ssid, _, hl, _⟩ := hprof
    rw [hssids i] at hl
    cases hl

end NicAutoswitch.Engine.WifiRules
