import NicAutoswitch.Engine.Handlers
import NicAutoswitch.Engine.LinkState
import NicAutoswitch.Monitor.Netlink

/-!
# The two records of SSIDs

The network state keeps an SSID with each interface, the dispatcher keeps a map of its own.
An event edits both in the same way. Only the network state forgets an interface that is
removed, and after the startup no interface becomes known.
-/

namespace NicAutoswitch.Engine.SsidRecords
open HashMaps Schema Monitor Router StateProg Transition

/- The records agree on the interfaces that the network state knows. -/
def SsidsAgree (d : EventDispatcher) : Prop :=
  ∀ i info, d.networkState.getInterface i = some info → info.ssid = d.currentSsid i

/- What an event makes of the SSID of an interface. -/
def ssidAfter (event : NetworkEvent) (i : String) (ssid : Option String) : Option String :=
  match event with
  | .wifiConnected j joined => if i = j then some joined else ssid
  | .wifiDisconnected j _ => if i = j then none else ssid
  | .interfaceChanged _ _ | .addressChanged _ _ _ | .routeChanged _ _ _ _ => ssid

/- The operations that follow the startup. -/
def Later : Dispatch.Op → Prop
  | .applyInitialState _ => False
  | .start | .stop | .handleEvent _ _ | .updateConfig _ => True

/-! ### One event -/

theorem ssid_observe {ns : NetworkState} {event : NetworkEvent} {i : String} {info : InterfaceInfo}
    (h : (ns.observe event).getInterface i = some info) :
    ∃ old, ns.getInterface i = some old ∧ info.ssid = ssidAfter event i old.ssid := by
  have hupdate : ∀ {j : String} {f : InterfaceInfo → InterfaceInfo},
      (∀ old, (if i = j then f old else old).ssid = ssidAfter event i old.ssid) →
      (ns.withInterface j f).getInterface i = some info →
        ∃ old, ns.getInterface i = some old ∧ info.ssid = ssidAfter event i old.ssid := by
    intro j f hf hw
    obtain ⟨old, ho, rfl⟩ := NetworkState.known_withInterface hw
    exact ⟨old, ho, hf old⟩
  cases event with
  | interfaceChanged j change =>
    cases change with
    | up => exact hupdate (fun old => by split_ifs <;> rfl) h
    | down => exact hupdate (fun old => by split_ifs <;> rfl) h
    | added => exact ⟨info, h, rfl⟩
    | removed =>
      have hr := NetworkState.getInterface_removeInterface ns j i
      rw [show (ns.removeInterface j).getInterface i = some info from h] at hr
      split_ifs at hr
      exact ⟨info, hr.symm, rfl⟩
  | wifiConnected j joined => exact hupdate (fun old => apply_ite InterfaceInfo.ssid _ _ _) h
  | wifiDisconnected j last => exact hupdate (fun old => apply_ite InterfaceInfo.ssid _ _ _) h
  | addressChanged j added removed => exact hupdate (fun old => by split_ifs <;> rfl) h
  | routeChanged j destination gateway added => exact ⟨info, h, rfl⟩

theorem currentSsid_noting (d : EventDispatcher) (event : NetworkEvent) (i : String) :
    (d.noting event).currentSsid i = ssidAfter event i (d.currentSsid i) := by
  cases event with
  | wifiConnected j joined => exact lookup_insert_eq_ite d.currentSsids j i joined
  | wifiDisconnected j last => exact lookup_erase_eq_ite d.currentSsids j i
  | interfaceChanged j change => rfl
  | addressChanged j added removed => rfl
  | routeChanged j destination gateway added => rfl

theorem ssidsAgree_event {d : EventDispatcher} (h : SsidsAgree d) (event : NetworkEvent) :
    SsidsAgree ((d.observing event).noting event) := by
  intro i info hi
  rw [(noting_fixed _ event).1] at hi
  obtain ⟨old, ho, hs⟩ := ssid_observe hi
  rw [currentSsid_noting, hs, h i old ho]
  rfl

theorem ssidsAgree_view {d d' : EventDispatcher} (h : SsidsAgree d)
    (hview : EventDispatcher.SameView d d') : SsidsAgree d' := by
  unfold SsidsAgree EventDispatcher.currentSsid
  rw [hview.networkState, hview.currentSsids]
  exact h

/-! ### Runs -/

variable {κ : Type} (rt : Rtnetlink κ)

theorem ssidsAgree_step {s : System κ} (h : SsidsAgree s.dispatcher) {op : Dispatch.Op}
    (hop : Later op) : SsidsAgree (Dispatch.perform rt s op).dispatcher := by
  cases op with
  | start =>
    show SsidsAgree s.dispatcher.start
    unfold EventDispatcher.start
    split_ifs <;> exact h
  | stop => exact h
  | updateConfig config => exact h
  | applyInitialState interfaces => exact absurd hop id
  | handleEvent order event =>
    show SsidsAgree (after (Dispatch.handleEvent rt order event) s).dispatcher
    by_cases hr : s.dispatcher.state = .running
    · exact ssidsAgree_view (ssidsAgree_event h event) (handleEvent_view rt order event hr)
    · rw [handleEvent_idle rt order event hr]
      exact h

/- What is known after the startup is one of the interfaces that were listed. -/
theorem mem_of_known (interfaces : List InterfaceInfo) {ns : NetworkState} {i : String}
    {info : InterfaceInfo}
    (h : (interfaces.foldl NetworkState.updateInterface ns).getInterface i = some info) :
    info ∈ interfaces ∨ ns.getInterface i = some info := by
  induction interfaces generalizing ns with
  | nil => exact Or.inr h
  | cons listed rest ih =>
    rcases ih h with hrest | hns
    · exact Or.inl (List.mem_cons_of_mem listed hrest)
    · have hins := lookup_insert_eq_ite ns.interfaces listed.name i listed
      rw [show (ns.interfaces.insert listed.name listed).lookup i = some info from hns] at hins
      split_ifs at hins
      · exact Or.inl (Option.some.inj hins ▸ List.mem_cons_self)
      · exact Or.inr hins.symm

theorem ssidsAgree_started (config : Config) (rm : RouteManager) (k : κ)
    {interfaces : List InterfaceInfo} (hi : ∀ info ∈ interfaces, info.ssid = none) :
    SsidsAgree (LinkState.started rt config rm k interfaces).dispatcher := by
  refine ssidsAgree_view (fun i info hk => ?_)
    (applyInitialState_view rt interfaces (Dispatch.launch config rm k))
  rcases mem_of_known interfaces hk with hm | hnone
  · exact hi info hm
  · cases hnone

/- `get_interfaces` leaves the SSIDs open. -/
theorem getInterfaces_ssid {m : NetlinkMonitor} {links : List (Except RtError LinkMessage)}
    {interfaces : List InterfaceInfo} (h : m.getInterfaces links = .ok interfaces) :
    ∀ info ∈ interfaces, info.ssid = none := by
  have hcollect : ∀ acc : List InterfaceInfo, (∀ info ∈ acc, info.ssid = none) →
      NetlinkMonitor.collect (fun acc link => acc ++ [NetlinkMonitor.linkToInterfaceInfo link])
        links acc = .ok interfaces → ∀ info ∈ interfaces, info.ssid = none := by
    clear h
    induction links with
    | nil =>
      intro acc hacc hc
      cases hc
      exact hacc
    | cons item rest ih =>
      intro acc hacc hc
      cases item with
      | error e => cases hc
      | ok link =>
        refine ih _ (fun info hm => ?_) hc
        rcases List.mem_append.mp hm with hold | hnew
        · exact hacc info hold
        · rw [List.mem_singleton.mp hnew]
          rfl
  unfold NetlinkMonitor.getInterfaces at h
  cases hm : m.handle with
  | none =>
    rw [hm] at h
    cases h
    exact fun info hin => absurd hin List.not_mem_nil
  | some handle =>
    rw [hm] at h
    exact hcollect [] (fun info hin => absurd hin List.not_mem_nil) h

/- The records agree at every point of a run, whatever the kernel answers. -/
theorem ssid_records_agree (rt : Rtnetlink κ) (config : Config) (rm : RouteManager) (k : κ)
    (interfaces : List InterfaceInfo) (hi : ∀ info ∈ interfaces, info.ssid = none)
    (ops : List Dispatch.Op) (hops : ∀ op ∈ ops, Later op) :
    Throughout (Dispatch.perform rt) (fun s => SsidsAgree s.dispatcher)
      (LinkState.started rt config rm k interfaces) ops :=
  throughout_of_invariant (Dispatch.perform rt) (fun s => SsidsAgree s.dispatcher) Later
    (fun _ _ hop h => ssidsAgree_step rt h hop) (LinkState.started rt config rm k interfaces) ops
    hops (ssidsAgree_started rt config rm k hi)

/- The link of wlan0, which is up. -/
def wifiLink : LinkMessage where
  index := 3
  flags := [.up, .running]
  attributes := [.ifName "wlan0"]

/- A network is joined, wlan0 is removed, a second network is joined on it. -/
def joinings : List Dispatch.Op :=
  [.handleEvent .asListed (.wifiConnected "wlan0" "home"),
    .handleEvent .asListed (.interfaceChanged "wlan0" .removed),
    .updateConfig LinkState.twoLinks,
    .handleEvent .asListed (.wifiConnected "wlan0" "guest"), .stop]

theorem wifiLink_listed :
    (⟨some {}, ∅, []⟩ : NetlinkMonitor).getInterfaces [.ok wifiLink] =
      .ok [NetlinkMonitor.linkToInterfaceInfo wifiLink] := rfl

theorem ssid_records_agree_removed :
    Throughout (Dispatch.perform grantAll) (fun s => SsidsAgree s.dispatcher)
      (LinkState.started grantAll LinkState.twoLinks .default ()
        [NetlinkMonitor.linkToInterfaceInfo wifiLink]) joinings := by
  refine ssid_records_agree grantAll LinkState.twoLinks .default ()
    [NetlinkMonitor.linkToInterfaceInfo wifiLink] (getInterfaces_ssid wifiLink_listed) joinings
    fun op hop => ?_
  simp only [joinings, List.mem_cons, List.not_mem_nil, or_false] at hop
  rcases hop with rfl | rfl | rfl | rfl | rfl <;> trivial

end NicAutoswitch.Engine.SsidRecords
