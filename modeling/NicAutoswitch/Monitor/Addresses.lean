import NicAutoswitch.Lib.Run
import NicAutoswitch.Monitor.State

/-!
# The addresses of the interfaces

An address change takes addresses out of the list of its interface and appends the new
ones that are not there yet. No event touches another interface than its own.
-/

namespace NicAutoswitch.Monitor.Addresses
open HashMaps Transition NetworkState

/- Every entry is kept under its name, and lists no address twice. -/
structure WellKept (s : NetworkState) : Prop where
  keyed : ∀ i info, s.getInterface i = some info → info.name = i
  distinct : ∀ i info, s.getInterface i = some info → info.addresses.Nodup

/- What an event does to the state: `addresses` is of an address change, the others of
every event. -/
structure Tracks (s : NetworkState) (e : NetworkEvent) (s' : NetworkState) : Prop where
  addresses : ∀ i added removed info, e = .addressChanged i added removed →
    s.getInterface i = some info →
    ∃ addresses, s'.getInterface i = some { info with addresses } ∧ addresses.Nodup ∧
      ∀ a, a ∈ addresses ↔ (a ∈ info.addresses ∧ a ∉ removed) ∨ a ∈ added
  others : ∀ i, e.interface ≠ some i → s'.getInterface i = s.getInterface i
  unknown : (∀ i, e.interface = some i → s.getInterface i = none) → s' = s

/-! ### The loop over the added addresses -/

theorem mem_pushNew (addresses added : List IpNetwork) (a : IpNetwork) :
    a ∈ NetworkState.pushNew addresses added ↔ a ∈ addresses ∨ a ∈ added := by
  induction added generalizing addresses with
  | nil => simp [NetworkState.pushNew]
  | cons addr rest ih =>
    rw [NetworkState.pushNew, ih, List.mem_cons]
    split_ifs with hm
    · apply Iff.intro
      · rintro (h | h)
        · exact Or.inl h
        · exact Or.inr (Or.inr h)
      · rintro (h | rfl | h)
        · exact Or.inl h
        · exact Or.inl hm
        · exact Or.inr h
    · rw [List.mem_append, List.mem_singleton, or_assoc]

theorem nodup_pushNew {addresses : List IpNetwork} (h : addresses.Nodup)
    (added : List IpNetwork) : (NetworkState.pushNew addresses added).Nodup := by
  induction added generalizing addresses with
  | nil => exact h
  | cons addr rest ih =>
    refine ih ?_
    split_ifs with hm
    · exact h
    · refine List.nodup_append.mpr ⟨h, List.nodup_singleton addr, ?_⟩
      rintro a ha b hb rfl
      exact hm (List.mem_singleton.mp hb ▸ ha)

/-! ### One event -/

theorem withInterface_unknown {s : NetworkState} {i : String} (f : InterfaceInfo → InterfaceInfo)
    (h : s.getInterface i = none) : s.withInterface i f = s := by
  unfold NetworkState.withInterface
  rw [show s.interfaces.lookup i = none from h]

theorem removeInterface_unknown {s : NetworkState} {i : String} (h : s.getInterface i = none) :
    s.removeInterface i = s := by
  have hi : i ∉ s.interfaces := AList.lookup_eq_none.mp h
  exact congrArg NetworkState.mk (AList.ext (List.kerase_of_notMem_keys hi))

theorem wellKept_withInterface {s : NetworkState} (h : WellKept s) (i : String)
    {f : InterfaceInfo → InterfaceInfo} (hname : ∀ info, (f info).name = info.name)
    (haddr : ∀ info, info.addresses.Nodup → (f info).addresses.Nodup) :
    WellKept (s.withInterface i f) := by
  refine ⟨fun j info hj => ?_, fun j info hj => ?_⟩
  all_goals
    obtain ⟨old, ho, rfl⟩ := known_withInterface hj
    have hold := h.keyed j old ho
    have hnodup := h.distinct j old ho
  · split_ifs
    · exact (hname old).trans hold
    · exact hold
  · split_ifs
    · exact haddr old hnodup
    · exact hnodup

theorem wellKept_removeInterface {s : NetworkState} (h : WellKept s) (i : String) :
    WellKept (s.removeInterface i) := by
  have hback : ∀ j info, (s.removeInterface i).getInterface j = some info →
      s.getInterface j = some info := by
    intro j info hj
    rw [getInterface_removeInterface] at hj
    split_ifs at hj
    exact hj
  exact ⟨fun j info hj => h.keyed j info (hback j info hj),
    fun j info hj => h.distinct j info (hback j info hj)⟩

theorem nodup_changed {addresses : List IpNetwork} (h : addresses.Nodup)
    (added removed : List IpNetwork) :
    (pushNew (addresses.filter (· ∉ removed)) added).Nodup :=
  nodup_pushNew (h.filter _) added

theorem wellKept_observe {s : NetworkState} (h : WellKept s) (e : NetworkEvent) :
    WellKept (s.observe e) := by
  cases e with
  | interfaceChanged i change =>
    cases change with
    | up => exact wellKept_withInterface h i (fun _ => rfl) (fun _ hn => hn)
    | down => exact wellKept_withInterface h i (fun _ => rfl) (fun _ hn => hn)
    | added => exact h
    | removed => exact wellKept_removeInterface h i
  | wifiConnected i ssid => exact wellKept_withInterface h i (fun _ => rfl) (fun _ hn => hn)
  | wifiDisconnected i last => exact wellKept_withInterface h i (fun _ => rfl) (fun _ hn => hn)
  | addressChanged i added removed =>
    exact wellKept_withInterface h i (fun _ => rfl) (fun _ hn => nodup_changed hn added removed)
  | routeChanged i destination gateway added => exact h

theorem observe_other (s : NetworkState) {e : NetworkEvent} {i : String}
    (h : e.interface ≠ some i) : (s.observe e).getInterface i = s.getInterface i := by
  have hupdate : ∀ (j : String) (f : InterfaceInfo → InterfaceInfo), some j ≠ some i →
      (s.withInterface j f).getInterface i = s.getInterface i := by
    intro j f hj
    rw [getInterface_withInterface, if_neg fun hx => hj (congrArg some hx.symm)]
  cases e with
  | interfaceChanged j change =>
    cases change with
    | up => exact hupdate j _ h
    | down => exact hupdate j _ h
    | added => rfl
    | removed =>
      exact (getInterface_removeInterface s j i).trans
        (if_neg fun hx => h (congrArg some hx.symm))
  | wifiConnected j ssid => exact hupdate j _ h
  | wifiDisconnected j last => exact hupdate j _ h
  | addressChanged j added removed => exact hupdate j _ h
  | routeChanged j destination gateway added => rfl

theorem observe_unknown {s : NetworkState} {e : NetworkEvent}
    (h : ∀ i, e.interface = some i → s.getInterface i = none) : s.observe e = s := by
  cases e with
  | interfaceChanged i change =>
    have hi := h i rfl
    cases change with
    | up => exact withInterface_unknown _ hi
    | down => exact withInterface_unknown _ hi
    | added => rfl
    | removed => exact removeInterface_unknown hi
  | wifiConnected i ssid => exact withInterface_unknown _ (h i rfl)
  | wifiDisconnected i last => exact withInterface_unknown _ (h i rfl)
  | addressChanged i added removed => exact withInterface_unknown _ (h i rfl)
  | routeChanged i destination gateway added => rfl

theorem observe_addressChanged {s : NetworkState} {i : String} {info : InterfaceInfo}
    (h : s.getInterface i = some info) (added removed : List IpNetwork) :
    (s.observe (.addressChanged i added removed)).getInterface i =
      some { info with addresses := pushNew (info.addresses.filter (· ∉ removed)) added } := by
  refine (getInterface_withInterface s i i _).trans ?_
  rw [if_pos rfl, h]
  rfl

theorem observe_tracks {s : NetworkState} (h : WellKept s) (e : NetworkEvent) :
    Tracks s e (s.observe e) where
  addresses := by
    rintro i added removed info rfl hi
    refine ⟨_, observe_addressChanged hi added removed,
      nodup_changed (h.distinct i info hi) added removed, fun a => ?_⟩
    rw [mem_pushNew, List.mem_filter, decide_eq_true_eq]
  others := fun _ => observe_other s
  unknown := observe_unknown

/-! ### Runs -/

theorem wellKept_updateInterface {s : NetworkState} (h : WellKept s) {info : InterfaceInfo}
    (hn : info.addresses.Nodup) : WellKept (s.updateInterface info) := by
  have hget : ∀ i, (s.updateInterface info).getInterface i =
      if i = info.name then some info else s.getInterface i :=
    fun i => lookup_insert_eq_ite s.interfaces info.name i info
  refine ⟨fun i known hi => ?_, fun i known hi => ?_⟩
  all_goals rw [hget] at hi; split_ifs at hi with hx
  · cases hi
    exact hx.symm
  · exact h.keyed i known hi
  · cases hi
    exact hn
  · exact h.distinct i known hi

theorem wellKept_new : WellKept .new :=
  ⟨fun _ _ hi => (by cases hi), fun _ _ hi => (by cases hi)⟩

/- The state that the startup fills in from a list of interfaces. -/
theorem wellKept_listed {interfaces : List InterfaceInfo}
    (h : ∀ info ∈ interfaces, info.addresses.Nodup) :
    WellKept (interfaces.foldl NetworkState.updateInterface .new) :=
  run_invariant NetworkState.updateInterface WellKept (fun info => info.addresses.Nodup)
    (fun _ _ hn hk => wellKept_updateInterface hk hn) .new interfaces h wellKept_new

/- From a well kept state on, every event is tracked exactly. -/
theorem addresses_tracked (s : NetworkState) (h : WellKept s) (events : List NetworkEvent) :
    Throughout NetworkState.observe WellKept s events ∧
      Along NetworkState.observe
        (fun s e => s.applyEvent e = .ok (s.observe e) ∧ Tracks s e (s.observe e)) s events := by
  refine ⟨fun pre _ => ?_, ?_⟩
  · exact run_preserves NetworkState.observe WellKept (fun _ e hk => wellKept_observe hk e) s pre h
  · exact along_of_invariant NetworkState.observe WellKept _ (fun _ e hk => wellKept_observe hk e)
      (fun s e hk => ⟨applyEvent_observe s e, observe_tracks hk e⟩) s events h

def lanAddress (host : ℕ) : IpNetwork := .v4 ⟨BitVec.ofNat 32 (0x0a000000 + host), 8, len8_v4⟩

def twoLinks : List InterfaceInfo :=
  [{ name := "eth0", interfaceType := .lan, addresses := [lanAddress 1] },
    { name := "wlan0", interfaceType := .wlan }]

/- The last event is of an interface that is no longer known. -/
def renumbering : List NetworkEvent :=
  [.addressChanged "eth0" [lanAddress 2, lanAddress 1, lanAddress 2] [lanAddress 1],
    .addressChanged "wlan0" [lanAddress 3] [], .interfaceChanged "eth0" .removed,
    .addressChanged "eth0" [lanAddress 4] []]

theorem addresses_tracked_renumbering :
    Throughout NetworkState.observe WellKept
        (twoLinks.foldl NetworkState.updateInterface .new) renumbering ∧
      Along NetworkState.observe
        (fun s e => s.applyEvent e = .ok (s.observe e) ∧ Tracks s e (s.observe e))
        (twoLinks.foldl NetworkState.updateInterface .new) renumbering :=
  addresses_tracked _ (wellKept_listed (by decide)) renumbering

end NicAutoswitch.Monitor.Addresses
