import NicAutoswitch.Engine.TableIndices

/-!
# The iteration order of the configured interfaces

The order in which a map of the configuration is met differs from one run of the daemon
to the next. New indices are handed out in that order.
-/

namespace NicAutoswitch.Engine.HashOrder
open HashMaps Schema Router TableIndices

/- The entries of the map, met in another order. -/
def SameEntries (m m' : HashMap String InterfaceConfig) : Prop := m'.entries.Perm m.entries

def withInterfaces (config : Config) (m : HashMap String InterfaceConfig) : Config :=
  { config with interfaces := m }

/- A new dispatcher assigns the same indices in whatever order it meets the interfaces. -/
def NewOrderFree (config : Config) (rm : RouteManager) : Prop :=
  ∀ m m', SameEntries config.interfaces m → SameEntries config.interfaces m' → ∀ x,
    (EventDispatcher.new (withInterfaces config m) rm).interfaceIndices.lookup x =
      (EventDispatcher.new (withInterfaces config m') rm).interfaceIndices.lookup x

/- A reload of the dispatcher assigns the same indices in whatever order. -/
def ReloadOrderFree (d : EventDispatcher) (config : Config) : Prop :=
  ∀ m m', SameEntries config.interfaces m → SameEntries config.interfaces m' → ∀ x,
    (d.updateConfig (withInterfaces config m)).interfaceIndices.lookup x =
      (d.updateConfig (withInterfaces config m')).interfaceIndices.lookup x

/-! ### Names met in another order -/

theorem SameEntries.keys {m m' : HashMap String InterfaceConfig} (h : SameEntries m m') :
    m'.keys.Perm m.keys := h.map _

theorem fresh_perm (existing : HashMap String ℕ) {names names' : List String}
    (h : names'.Perm names) : (fresh existing names').Perm (fresh existing names) :=
  h.filter _

/- The map met from its end. -/
def backwards (m : HashMap String InterfaceConfig) : HashMap String InterfaceConfig :=
  ⟨m.entries.reverse, (List.perm_nodupKeys m.entries.reverse_perm).mpr m.nodupKeys⟩

theorem backwards_same (m : HashMap String InterfaceConfig) : SameEntries m (backwards m) :=
  m.entries.reverse_perm

theorem backwards_keys (m : HashMap String InterfaceConfig) :
    (backwards m).keys = m.keys.reverse := List.map_reverse

/- With one new name at most, or with no index left, the order does not matter. -/
theorem reloaded_perm {existing : HashMap String ℕ} {names names' : List String} {nextIdx : ℕ}
    (hp : names'.Perm names)
    (h : (fresh existing names).length ≤ 1 ∨ u8Max ≤ nextIdx) (x : String) :
    reloaded existing names' nextIdx x = reloaded existing names nextIdx x := by
  rcases h with hone | hfull
  · have hfresh : fresh existing names' = fresh existing names := by
      have hperm := fresh_perm existing hp
      match hl : fresh existing names with
      | [] =>
        rw [hl] at hperm
        exact hperm.eq_nil
      | [a] =>
        rw [hl] at hperm
        exact List.perm_singleton.mp hperm
      | a :: b :: rest =>
        rw [hl] at hone
        simp at hone
    unfold reloaded
    rw [hfresh]
  · exact reloaded_exhausted names' names hfull hfull

/- With two new names and an index left, the first new name has another index when the
names are met from the end. -/
theorem reloaded_reverse_ne {existing : HashMap String ℕ} {names : List String} {nextIdx : ℕ}
    (hn : names.Nodup) (h : 1 < (fresh existing names).length) (hleft : nextIdx < u8Max) :
    ∃ x ∈ names, reloaded existing names.reverse nextIdx x ≠ reloaded existing names nextIdx x := by
  match hl : fresh existing names with
  | [] =>
    rw [hl] at h
    cases h
  | a :: rest =>
    have hnodup : (a :: rest).Nodup := hl ▸ hn.filter _
    have ha : a ∉ rest := (List.nodup_cons.mp hnodup).1
    obtain ⟨hmem, hnone⟩ := (mem_fresh existing names a).mp (hl ▸ List.mem_cons_self)
    have hback : fresh existing names.reverse = rest.reverse ++ [a] := by
      have hrev : fresh existing names.reverse = (fresh existing names).reverse :=
        List.filter_reverse
      rw [hrev, hl, List.reverse_cons]
    have hlast : (rest.reverse ++ [a]).idxOf a = rest.length := by
      rw [List.idxOf_append_of_notMem (fun hin => ha (List.mem_reverse.mp hin)),
        List.idxOf_cons_self, List.length_reverse, Nat.add_zero]
    have hrest : 0 < rest.length := by
      rw [hl, List.length_cons] at h
      omega
    refine ⟨a, hmem, ?_⟩
    rw [reloaded_fresh _ _ hnone, reloaded_fresh _ _ hnone, hback, hl, hlast,
      List.idxOf_cons_self, Nat.add_zero, if_pos hleft]
    split_ifs
    · intro he
      have hidx := Option.some_inj.mp he
      omega
    · intro he
      cases he

/-! ### Indices -/

theorem updateConfig_orderFree_iff (d : EventDispatcher) (config : Config) :
    ReloadOrderFree d config ↔
      (fresh d.interfaceIndices config.interfaces.keys).length ≤ 1 ∨
        d.interfaceIndices.entries.length % 256 = 255 := by
  have hsize : u8Max ≤ d.interfaceIndices.entries.length % 256 ↔
      d.interfaceIndices.entries.length % 256 = 255 := by
    unfold u8Max
    omega
  rw [← hsize]
  apply Iff.intro
  · intro h
    by_contra hne
    rw [not_or, not_le, not_le] at hne
    obtain ⟨x, hx, hdiff⟩ := reloaded_reverse_ne (AList.keys_nodup config.interfaces) hne.1 hne.2
    have hsame := h config.interfaces (backwards config.interfaces) (List.Perm.refl _)
      (backwards_same _) x
    have hx' : x ∈ (backwards config.interfaces).keys := by
      rw [backwards_keys]
      exact List.mem_reverse.mpr hx
    rw [lookup_updateConfig, lookup_updateConfig] at hsame
    change (if x ∈ config.interfaces.keys then
      reloaded _ config.interfaces.keys _ x else none) =
        if x ∈ (backwards config.interfaces).keys then
          reloaded _ (backwards config.interfaces).keys _ x else none at hsame
    rw [if_pos hx, if_pos hx', backwards_keys] at hsame
    exact hdiff hsame.symm
  · intro h m m' hm hm' x
    have horder : ∀ m, SameEntries config.interfaces m →
        (d.updateConfig (withInterfaces config m)).interfaceIndices.lookup x =
          (d.updateConfig config).interfaceIndices.lookup x := by
      intro m hm
      rw [lookup_updateConfig, lookup_updateConfig]
      change (if x ∈ m.keys then reloaded _ m.keys _ x else none) = _
      rw [reloaded_perm hm.keys h x]
      simp only [hm.keys.mem_iff]
    rw [horder m hm, horder m' hm']

/- What `new` assigns is what a reload of a dispatcher without indices assigns. -/
theorem new_orderFree_iff (config : Config) (rm : RouteManager) :
    NewOrderFree config rm ↔ config.interfaces.keys.length ≤ 1 := by
  have hreload : ∀ c x, (EventDispatcher.new c rm).interfaceIndices.lookup x =
      ((EventDispatcher.new {} rm).updateConfig c).interfaceIndices.lookup x := by
    intro c x
    rw [lookup_new, lookup_updateConfig]
    rfl
  have hiff : NewOrderFree config rm ↔ ReloadOrderFree (EventDispatcher.new {} rm) config := by
    unfold NewOrderFree ReloadOrderFree
    simp only [hreload]
  have hall : ∀ names : List String, fresh ∅ names = names := by
    intro names
    exact List.filter_eq_self.mpr fun x _ => by rw [AList.lookup_empty]; rfl
  rw [hiff, updateConfig_orderFree_iff]
  change (fresh ∅ config.interfaces.keys).length ≤ 1 ∨ (0 : ℕ) % 256 = 255 ↔ _
  rw [hall]
  simp

/- The indices do not depend on the order exactly where at most one interface is new, or a
reload has no index left to give. -/
theorem indices_order_free_iff (config : Config) (rm : RouteManager) (d : EventDispatcher) :
    (NewOrderFree config rm ↔ config.interfaces.keys.length ≤ 1) ∧
    (ReloadOrderFree d config ↔
      (fresh d.interfaceIndices config.interfaces.keys).length ≤ 1 ∨
        d.interfaceIndices.entries.length % 256 = 255) :=
  ⟨new_orderFree_iff config rm, updateConfig_orderFree_iff d config⟩

def wiredPair : HashMap String InterfaceConfig :=
  (AList.insert "b" (ethernet "b") ∅).insert "a" (ethernet "a")

/- Two configured interfaces, met in either order by a new dispatcher, and by the reload of
one that had no interface. -/
theorem two_orders_differ :
    ¬ NewOrderFree { interfaces := wiredPair } .default ∧
      ¬ ReloadOrderFree (EventDispatcher.new {} .default) { interfaces := wiredPair } := by
  constructor
  · intro h
    have ha := h wiredPair (backwards wiredPair) (List.Perm.refl _) (backwards_same _) "a"
    revert ha
    decide
  · intro h
    have ha := h wiredPair (backwards wiredPair) (List.Perm.refl _) (backwards_same _) "a"
    revert ha
    decide

end NicAutoswitch.Engine.HashOrder
