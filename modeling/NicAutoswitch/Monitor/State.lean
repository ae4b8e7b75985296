import NicAutoswitch.Error
import NicAutoswitch.Lib.HashMaps
import NicAutoswitch.Monitor.Events

/-!
# Network state (monitor/state.rs)

What the daemon knows of the interfaces. Every event handler returns `Ok(())` in
the source, and so does `applyEvent`.
-/

namespace NicAutoswitch.Monitor
open HashMaps

inductive InterfaceType where
  | lan
  | wlan
  | vpn
  deriving Repr, DecidableEq

structure InterfaceInfo where
  name : String
  interfaceType : InterfaceType
  addresses : List IpNetwork := []
  isUp : Bool := false
  ssid : Option String := none
  deriving Repr, DecidableEq

structure NetworkState where
  interfaces : HashMap String InterfaceInfo := ∅

namespace NetworkState

def new : NetworkState := {}

def getInterface (s : NetworkState) (name : String) : Option InterfaceInfo :=
  s.interfaces.lookup name

def updateInterface (s : NetworkState) (info : InterfaceInfo) : NetworkState :=
  { s with interfaces := s.interfaces.insert info.name info }

def removeInterface (s : NetworkState) (name : String) : NetworkState :=
  { s with interfaces := s.interfaces.erase name }

/- `if let Some(info) = self.interfaces.get_mut(name) { .. }` -/
def withInterface (s : NetworkState) (name : String)
    (f : InterfaceInfo → InterfaceInfo) : NetworkState :=
  match s.interfaces.lookup name with
  | some info => { s with interfaces := s.interfaces.insert name (f info) }
  | none => s

def applyInterfaceChange (s : NetworkState) (interface : String) :
    InterfaceChange → NetworkState
  | .up => s.withInterface interface fun info => { info with isUp := true }
  | .down => s.withInterface interface fun info => { info with isUp := false }
  | .added => s
  | .removed => s.removeInterface interface

def applyWifiConnected (s : NetworkState) (interface ssid : String) : NetworkState :=
  s.withInterface interface fun info => { info with ssid := some ssid, isUp := true }

def applyWifiDisconnected (s : NetworkState) (interface : String) : NetworkState :=
  s.withInterface interface fun info => { info with ssid := none }

/- The loop `for addr in added { if !contains { push } }`. -/
def pushNew : List IpNetwork → List IpNetwork → List IpNetwork
  | addresses, [] => addresses
  | addresses, addr :: rest =>
    pushNew (if addr ∈ addresses then addresses else addresses ++ [addr]) rest

def applyAddressChange (s : NetworkState) (interface : String)
    (added removed : List IpNetwork) : NetworkState :=
  s.withInterface interface fun info =>
    { info with addresses := pushNew (info.addresses.filter (· ∉ removed)) added }

def applyEvent (s : NetworkState) : NetworkEvent → Except NicAutoSwitchError NetworkState
  | .interfaceChanged interface change => .ok (s.applyInterfaceChange interface change)
  | .wifiConnected interface ssid => .ok (s.applyWifiConnected interface ssid)
  | .wifiDisconnected interface _ => .ok (s.applyWifiDisconnected interface)
  | .addressChanged interface added removed =>
    .ok (s.applyAddressChange interface added removed)
  | .routeChanged _ _ _ _ => .ok s

/- The state that `applyEvent` returns. -/
def observe (s : NetworkState) (e : NetworkEvent) : NetworkState :=
  match s.applyEvent e with
  | .ok s' => s'
  | .error _ => s

theorem applyEvent_observe (s : NetworkState) (e : NetworkEvent) :
    s.applyEvent e = .ok (s.observe e) := by
  cases e <;> rfl

theorem getInterface_withInterface (s : NetworkState) (name x : String)
    (f : InterfaceInfo → InterfaceInfo) :
    (s.withInterface name f).getInterface x =
      if x = name then (s.getInterface name).map f else s.getInterface x := by
  cases h : s.interfaces.lookup name with
  | none =>
    simp only [withInterface, getInterface, h, Option.map_none]
    split
    · next hx => rw [hx, h]
    · rfl
  | some info =>
    simp only [withInterface, getInterface, h, Option.map_some]
    exact lookup_insert_eq_ite s.interfaces name x (f info)

/- What is known after an update was known before it. -/
theorem known_withInterface {s : NetworkState} {name x : String}
    {f : InterfaceInfo → InterfaceInfo} {info : InterfaceInfo}
    (h : (s.withInterface name f).getInterface x = some info) :
    ∃ old, s.getInterface x = some old ∧ info = if x = name then f old else old := by
  rw [getInterface_withInterface] at h
  by_cases hx : x = name
  · rw [if_pos hx] at h
    obtain ⟨old, ho, hi⟩ := Option.map_eq_some_iff.mp h
    exact ⟨old, hx ▸ ho, by rw [if_pos hx, hi]⟩
  · rw [if_neg hx] at h
    exact ⟨info, h, by rw [if_neg hx]⟩

theorem getInterface_removeInterface (s : NetworkState) (name x : String) :
    (s.removeInterface name).getInterface x = if x = name then none else s.getInterface x :=
  lookup_erase_eq_ite s.interfaces name x

/- Whether the state holds the interface and holds it to be down. -/
def KnownDown (s : NetworkState) (name : String) : Prop :=
  ∃ info, s.getInterface name = some info ∧ info.isUp = false

instance (s : NetworkState) (name : String) : Decidable (s.KnownDown name) :=
  match h : s.getInterface name with
  | none => isFalse fun ⟨_, h', _⟩ => by rw [h] at h'; cases h'
  | some info =>
    if hu : info.isUp = false then isTrue ⟨info, h, hu⟩
    else isFalse fun ⟨i, h', hi⟩ => by
      rw [h] at h'
      cases h'
      exact hu hi

theorem knownDown_withInterface {s : NetworkState} {name x : String}
    {f : InterfaceInfo → InterfaceInfo} (h : (s.withInterface name f).KnownDown x) :
    x ≠ name ∧ s.KnownDown x ∨
      x = name ∧ ∃ info, s.getInterface name = some info ∧ (f info).isUp = false := by
  obtain ⟨info, hl, hu⟩ := h
  obtain ⟨old, ho, he⟩ := known_withInterface hl
  by_cases hx : x = name
  · rw [if_pos hx] at he
    exact Or.inr ⟨hx, old, hx ▸ ho, he ▸ hu⟩
  · rw [if_neg hx] at he
    exact Or.inl ⟨hx, old, ho, he ▸ hu⟩

/- An update that does not set an interface down leaves none newly down. -/
theorem knownDown_of_withInterface {s : NetworkState} {name x : String}
    {f : InterfaceInfo → InterfaceInfo} (hf : ∀ info, (f info).isUp = false → info.isUp = false)
    (h : (s.withInterface name f).KnownDown x) : s.KnownDown x := by
  rcases knownDown_withInterface h with hn | hn
  · exact hn.2
  · obtain ⟨rfl, info, hl, hu⟩ := hn
    exact ⟨info, hl, hf info hu⟩

/- Only a Down event can make an interface known to be down. -/
theorem knownDown_observe {s : NetworkState} {e : NetworkEvent} {x : String}
    (h : (s.observe e).KnownDown x) :
    s.KnownDown x ∨ e = .interfaceChanged x .down ∧ (s.getInterface x).isSome := by
  cases e with
  | interfaceChanged i change =>
    cases change with
    | up => exact Or.inl (knownDown_of_withInterface (fun _ hu => by cases hu) h)
    | down =>
      rcases knownDown_withInterface h with hn | hn
      · exact Or.inl hn.2
      · obtain ⟨rfl, info, hl, _⟩ := hn
        exact Or.inr ⟨rfl, by rw [hl]; rfl⟩
    | added => exact Or.inl h
    | removed =>
      obtain ⟨info, hl, hu⟩ := h
      have hr := getInterface_removeInterface s i x
      rw [show (s.removeInterface i).getInterface x = some info from hl] at hr
      split_ifs at hr
      exact Or.inl ⟨info, hr.symm, hu⟩
  | wifiConnected i ssid => exact Or.inl (knownDown_of_withInterface (fun _ hu => by cases hu) h)
  | wifiDisconnected i last =>
    exact Or.inl (knownDown_of_withInterface
      (f := fun info => { info with ssid := none }) (fun _ hu => hu) h)
  | addressChanged i added removed =>
    exact Or.inl (knownDown_of_withInterface (f := fun info =>
      { info with addresses := pushNew (info.addresses.filter (· ∉ removed)) added })
      (fun _ hu => hu) h)
  | routeChanged i d g added => exact Or.inl h

theorem knownDown_after_down {s : NetworkState} {i : String} (h : (s.getInterface i).isSome) :
    (s.observe (.interfaceChanged i .down)).KnownDown i := by
  obtain ⟨info, hl⟩ := Option.isSome_iff_exists.mp h
  refine ⟨{ info with isUp := false }, ?_, rfl⟩
  have hw := getInterface_withInterface s i i fun info => { info with isUp := false }
  rw [if_pos rfl, hl] at hw
  exact hw

end NetworkState

end NicAutoswitch.Monitor
