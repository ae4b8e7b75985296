import NicAutoswitch.Engine.Dispatcher
import NicAutoswitch.Lib.Run

/-!
# Interface indices and routing tables

An interface is given its routing table through an index. The index of a new
interface is the size of the map, but a reload drops entries, so that the size
can fall below an index that is still in use.
-/

namespace NicAutoswitch.Engine.TableIndices
open HashMaps Schema Router Transition

/- The operations that read or change the indices. -/
inductive IndexOp where
  | getTableIdForInterface (interface : String)
  | updateConfig (config : Config)

def allocate (d : EventDispatcher) : IndexOp → EventDispatcher
  | .getTableIdForInterface interface => (d.getTableIdForInterface interface).2
  | .updateConfig config => d.updateConfig config

/- Two interfaces of the map never share an index. -/
def Injective (m : HashMap String ℕ) : Prop :=
  ∀ x y i, m.lookup x = some i → m.lookup y = some i → x = y

/- Two interfaces never share an index, and hence never a table. -/
def TablesDistinct (d : EventDispatcher) : Prop :=
  ∀ x y i j, d.interfaceIndices.lookup x = some i → d.interfaceIndices.lookup y = some j →
    x ≠ y → i ≠ j ∧ d.executor.routeManager.tableIdV4 i ≠ d.executor.routeManager.tableIdV4 j

theorem tablesDistinct_iff (d : EventDispatcher) :
    TablesDistinct d ↔ Injective d.interfaceIndices := by
  refine ⟨?_, ?_⟩
  · intro h x y i hx hy
    by_contra hne
    exact (h x y i i hx hy hne).1 rfl
  · intro h x y i j hx hy hne
    have hij : i ≠ j := fun he => hne (h x y i hx (he ▸ hy))
    refine ⟨hij, ?_⟩
    unfold RouteManager.tableIdV4
    omega

/-! ### The indices after a reload -/

/- The names that a reload gives a new index, in order. -/
def fresh (existing : HashMap String ℕ) (names : List String) : List String :=
  names.filter fun name => (existing.lookup name).isNone

theorem mem_fresh (existing : HashMap String ℕ) (names : List String) (x : String) :
    x ∈ fresh existing names ↔ x ∈ names ∧ existing.lookup x = none := by
  simp [fresh, List.mem_filter]

/- The index a reload gives to the interface at hand, if it gives one. -/
def reloaded (existing : HashMap String ℕ) (names : List String) (nextIdx : ℕ)
    (x : String) : Option ℕ :=
  match existing.lookup x with
  | some idx => some idx
  | none =>
    let idx := nextIdx + (fresh existing names).idxOf x
    if idx < u8Max then some idx else none

theorem reloaded_kept {existing : HashMap String ℕ} {x : String} {idx : ℕ}
    (names : List String) (nextIdx : ℕ) (h : existing.lookup x = some idx) :
    reloaded existing names nextIdx x = some idx := by
  simp only [reloaded, h]

theorem reloaded_fresh {existing : HashMap String ℕ} {x : String} (names : List String)
    (nextIdx : ℕ) (h : existing.lookup x = none) :
    reloaded existing names nextIdx x =
      if nextIdx + (fresh existing names).idxOf x < u8Max then
        some (nextIdx + (fresh existing names).idxOf x)
      else none := by
  simp only [reloaded, h]

theorem fresh_cons_kept {existing : HashMap String ℕ} {name : String} {idx : ℕ}
    (names : List String) (h : existing.lookup name = some idx) :
    fresh existing (name :: names) = fresh existing names := by
  simp [fresh, h]

theorem fresh_cons_fresh {existing : HashMap String ℕ} {name : String} (names : List String)
    (h : existing.lookup name = none) :
    fresh existing (name :: names) = name :: fresh existing names := by
  simp [fresh, h]

/- A later name moves up by one place for each new name before it. -/
theorem reloaded_cons_ne (existing : HashMap String ℕ) {name x : String}
    (names : List String) (nextIdx : ℕ) (h : existing.lookup name = none) (hx : x ≠ name) :
    reloaded existing (name :: names) nextIdx x = reloaded existing names (nextIdx + 1) x := by
  cases he : existing.lookup x with
  | some idx => rw [reloaded_kept _ _ he, reloaded_kept _ _ he]
  | none =>
    have hi : nextIdx + (name :: fresh existing names).idxOf x =
        nextIdx + 1 + (fresh existing names).idxOf x := by
      rw [List.idxOf_cons_ne _ (Ne.symm hx)]
      omega
    rw [reloaded_fresh _ _ he, reloaded_fresh _ _ he, fresh_cons_fresh names h, hi]

theorem reloaded_exhausted {existing : HashMap String ℕ} {x : String} (names names' : List String)
    {nextIdx nextIdx' : ℕ} (h : u8Max ≤ nextIdx) (h' : u8Max ≤ nextIdx') :
    reloaded existing names nextIdx x = reloaded existing names' nextIdx' x := by
  cases he : existing.lookup x with
  | some idx => rw [reloaded_kept _ _ he, reloaded_kept _ _ he]
  | none =>
    rw [reloaded_fresh _ _ he, reloaded_fresh _ _ he, if_neg (by omega), if_neg (by omega)]

theorem lookup_rebuildIndices (existing : HashMap String ℕ) (names : List String)
    (hn : names.Nodup) (nextIdx : ℕ) (indices : HashMap String ℕ) (x : String) :
    (EventDispatcher.rebuildIndices existing names nextIdx indices).lookup x =
      if x ∈ names then (reloaded existing names nextIdx x).or (indices.lookup x)
      else indices.lookup x := by
  induction names generalizing nextIdx indices with
  | nil => simp [EventDispatcher.rebuildIndices]
  | cons name names ih =>
    obtain ⟨hname, hn'⟩ := List.nodup_cons.mp hn
    unfold EventDispatcher.rebuildIndices
    cases he : existing.lookup name with
    | some idx =>
      simp only [ih hn', lookup_insert_eq_ite]
      by_cases hx : x = name
      · subst hx
        simp [hname, reloaded_kept _ _ he]
      · have hr : reloaded existing (name :: names) nextIdx x =
            reloaded existing names nextIdx x := by
          unfold reloaded
          rw [fresh_cons_kept names he]
        simp [hx, hr]
    | none =>
      by_cases hlt : nextIdx < u8Max
      · simp only [if_pos hlt, ih hn', lookup_insert_eq_ite]
        by_cases hx : x = name
        · subst hx
          simp [hname, reloaded_fresh _ _ he, fresh_cons_fresh names he, hlt]
        · simp [hx, reloaded_cons_ne existing names nextIdx he hx]
      · simp only [if_neg hlt, ih hn']
        by_cases hx : x = name
        · subst hx
          simp [hname, reloaded_fresh _ _ he, fresh_cons_fresh names he, hlt]
        · have hr : reloaded existing (name :: names) nextIdx x =
              reloaded existing names nextIdx x :=
            reloaded_exhausted _ _ (by omega) (by omega)
          simp [hx, hr]

/- Every index is below the bound at first, and a new dispatcher assigns as a reload of
an empty map would. -/
theorem preassign_eq_rebuild (names : List String) (idx : ℕ) (indices : HashMap String ℕ) :
    EventDispatcher.preassign idx names indices =
      EventDispatcher.rebuildIndices ∅ names idx indices := by
  have hfull : ∀ (names : List String) (idx : ℕ) (indices : HashMap String ℕ), u8Max ≤ idx →
      EventDispatcher.rebuildIndices ∅ names idx indices = indices := by
    intro names
    induction names with
    | nil => intro idx indices h; rfl
    | cons name names ih =>
      intro idx indices h
      unfold EventDispatcher.rebuildIndices
      rw [AList.lookup_empty]
      simp only [if_neg (not_lt.mpr h)]
      exact ih idx indices h
  induction names generalizing idx indices with
  | nil => rfl
  | cons name names ih =>
    unfold EventDispatcher.preassign
    rw [ih]
    by_cases h : idx < u8Max
    · rw [if_pos h, EventDispatcher.rebuildIndices, AList.lookup_empty]
      simp only [if_pos h]
    · rw [if_neg h, hfull names _ _ (by omega), hfull (name :: names) _ _ (by omega)]

/-! ### What keeps the indices apart -/

/- The indices that a reload hands out. -/
def HandedOut (d : EventDispatcher) (config : Config) (idx : ℕ) : Prop :=
  let size := d.interfaceIndices.entries.length % 256
  size ≤ idx ∧ idx < size + (fresh d.interfaceIndices config.interfaces.keys).length ∧
    idx < u8Max

/- The condition on an operation: the indices about to be handed out are not held by
an interface that keeps its own. -/
def Safe (d : EventDispatcher) : IndexOp → Prop
  | .getTableIdForInterface interface =>
    d.interfaceIndices.lookup interface = none →
      ∀ x, d.interfaceIndices.lookup x ≠ some (d.interfaceIndices.entries.length % 256)
  | .updateConfig config =>
    ∀ x ∈ config.interfaces.keys, ∀ idx, d.interfaceIndices.lookup x = some idx →
      ¬ HandedOut d config idx

theorem injective_insert {m : HashMap String ℕ} {name : String} {idx : ℕ} (h : Injective m)
    (hn : m.lookup name = none) :
    Injective (m.insert name idx) ↔ ∀ x, m.lookup x ≠ some idx := by
  refine ⟨?_, ?_⟩
  · intro hi x hx
    have hne : x ≠ name := fun he => by rw [he, hn] at hx; cases hx
    have h1 : (m.insert name idx).lookup x = some idx := by
      rw [lookup_insert_eq_ite, if_neg hne, hx]
    exact hne (hi x name idx h1 (AList.lookup_insert m))
  · intro hfree x y i hx hy
    rw [lookup_insert_eq_ite] at hx hy
    split_ifs at hx hy with hxn hyn hyn
    · rw [hxn, hyn]
    · cases hx
      exact absurd hy (hfree y)
    · cases hy
      exact absurd hx (hfree x)
    · exact h x y i hx hy

theorem lookup_step (d : EventDispatcher) (interface : String)
    (h : Injective d.interfaceIndices) :
    Injective (d.getTableIdForInterface interface).2.interfaceIndices ↔
      Safe d (.getTableIdForInterface interface) := by
  unfold EventDispatcher.getTableIdForInterface EventDispatcher.indexForInterface Safe
  cases hl : d.interfaceIndices.lookup interface with
  | some idx => simp [h, hl]
  | none =>
    simp only [hl, forall_const]
    exact injective_insert h hl

/- A lookup leaves what is in the map, and gives a new name the size. -/
theorem lookup_getTableId (d : EventDispatcher) (interface x : String) :
    (d.getTableIdForInterface interface).2.interfaceIndices.lookup x =
      (d.interfaceIndices.lookup x).or
        (if x = interface then some (d.interfaceIndices.entries.length % 256) else none) := by
  unfold EventDispatcher.getTableIdForInterface EventDispatcher.indexForInterface
  cases hl : d.interfaceIndices.lookup interface with
  | some idx =>
    split_ifs with hx
    · rw [hx, hl]
      rfl
    · exact (Option.or_none).symm
  | none =>
    simp only [lookup_insert_eq_ite]
    split_ifs with hx
    · rw [hx, hl]
      rfl
    · exact (Option.or_none).symm

theorem lookup_updateConfig (d : EventDispatcher) (config : Config) (x : String) :
    (d.updateConfig config).interfaceIndices.lookup x =
      if x ∈ config.interfaces.keys then
        reloaded d.interfaceIndices config.interfaces.keys
          (d.interfaceIndices.entries.length % 256) x
      else none := by
  simp only [EventDispatcher.updateConfig,
    lookup_rebuildIndices _ _ (AList.keys_nodup config.interfaces), AList.lookup_empty,
    Option.or_none]

/- Among the new names, the index names the interface. -/
theorem fresh_index_inj {existing : HashMap String ℕ} {names : List String} {x y : String}
    (hx : x ∈ names) (hex : existing.lookup x = none)
    (he : (fresh existing names).idxOf x = (fresh existing names).idxOf y) : x = y :=
  (List.idxOf_inj ((mem_fresh existing names x).mpr ⟨hx, hex⟩)).mp he

/- An index that is handed out is the one of a new name after the reload. -/
theorem handedOut_lookup {d : EventDispatcher} {config : Config} {idx : ℕ}
    (h : HandedOut d config idx) :
    ∃ y, d.interfaceIndices.lookup y = none ∧
      (d.updateConfig config).interfaceIndices.lookup y = some idx := by
  obtain ⟨hle, hlt, hmax⟩ := h
  have hnd : (fresh d.interfaceIndices config.interfaces.keys).Nodup :=
    (AList.keys_nodup config.interfaces).filter _
  have hk : idx - d.interfaceIndices.entries.length % 256 <
      (fresh d.interfaceIndices config.interfaces.keys).length := by omega
  have hidx := hnd.idxOf_getElem _ hk
  obtain ⟨hyk, hyn⟩ := (mem_fresh _ _ _).mp (List.getElem_mem hk)
  refine ⟨_, hyn, ?_⟩
  rw [lookup_updateConfig, if_pos hyk, reloaded_fresh _ _ hyn, hidx, if_pos (by omega),
    Nat.add_sub_cancel' hle]

/- A new name is given an index that is handed out. -/
theorem handedOut_of_lookup {d : EventDispatcher} {config : Config} {y : String} {idx : ℕ}
    (hy : y ∈ config.interfaces.keys) (hn : d.interfaceIndices.lookup y = none)
    (h : (d.updateConfig config).interfaceIndices.lookup y = some idx) :
    HandedOut d config idx ∧ idx = d.interfaceIndices.entries.length % 256 +
      (fresh d.interfaceIndices config.interfaces.keys).idxOf y := by
  have hpos := List.idxOf_lt_length_of_mem ((mem_fresh d.interfaceIndices _ y).mpr ⟨hy, hn⟩)
  rw [lookup_updateConfig, if_pos hy, reloaded_fresh _ _ hn] at h
  split_ifs at h with hlt
  cases h
  exact ⟨⟨by omega, by omega, hlt⟩, rfl⟩

theorem updateConfig_kept {d : EventDispatcher} {config : Config} {x : String} {idx : ℕ}
    (hx : x ∈ config.interfaces.keys) (h : d.interfaceIndices.lookup x = some idx) :
    (d.updateConfig config).interfaceIndices.lookup x = some idx := by
  rw [lookup_updateConfig, if_pos hx, reloaded_kept _ _ h]

theorem reload_step (d : EventDispatcher) (config : Config)
    (h : Injective d.interfaceIndices) :
    Injective (d.updateConfig config).interfaceIndices ↔ Safe d (.updateConfig config) := by
  apply Iff.intro
  · intro hi x hx idx hxi hout
    obtain ⟨y, hyn, hy⟩ := handedOut_lookup hout
    have hxy := hi x y idx (updateConfig_kept hx hxi) hy
    rw [hxy, hyn] at hxi
    cases hxi
  · intro hs x y i hx hy
    have hkeys : ∀ z, (d.updateConfig config).interfaceIndices.lookup z = some i →
        z ∈ config.interfaces.keys := by
      intro z hz
      rw [lookup_updateConfig] at hz
      split_ifs at hz with hk
      exact hk
    have hxk := hkeys x hx
    have hyk := hkeys y hy
    cases hex : d.interfaceIndices.lookup x with
    | some idx =>
      have hxi := (updateConfig_kept hxk hex).symm.trans hx
      cases hxi
      cases hey : d.interfaceIndices.lookup y with
      | some idy =>
        have hyi := (updateConfig_kept hyk hey).symm.trans hy
        cases hyi
        exact h x y _ hex hey
      | none => exact absurd (handedOut_of_lookup hyk hey hy).1 (hs x hxk _ hex)
    | none =>
      obtain ⟨hout, hxi⟩ := handedOut_of_lookup hxk hex hx
      cases hey : d.interfaceIndices.lookup y with
      | some idy =>
        have hyi := (updateConfig_kept hyk hey).symm.trans hy
        cases hyi
        exact absurd hout (hs y hyk _ hey)
      | none =>
        obtain ⟨_, hyi⟩ := handedOut_of_lookup hyk hey hy
        exact fresh_index_inj hxk hex (by omega)

/- A new dispatcher assigns what a reload of a dispatcher without interfaces would. -/
theorem lookup_new (config : Config) (rm : RouteManager) (x : String) :
    (EventDispatcher.new config rm).interfaceIndices.lookup x =
      if x ∈ config.interfaces.keys then reloaded ∅ config.interfaces.keys 0 x else none := by
  simp only [EventDispatcher.new, preassign_eq_rebuild,
    lookup_rebuildIndices _ _ (AList.keys_nodup config.interfaces), AList.lookup_empty,
    Option.or_none]

theorem new_injective (config : Config) (rm : RouteManager) :
    Injective (EventDispatcher.new config rm).interfaceIndices := by
  intro x y i hx hy
  rw [lookup_new] at hx hy
  split_ifs at hx hy with hxk hyk
  rw [reloaded_fresh _ _ (AList.lookup_empty x)] at hx
  rw [reloaded_fresh _ _ (AList.lookup_empty y)] at hy
  split_ifs at hx hy with hltx hlty
  cases hx
  have he := Option.some.inj hy
  exact fresh_index_inj hxk (AList.lookup_empty x) (by omega)

theorem allocate_step (d : EventDispatcher) (op : IndexOp) (h : TablesDistinct d) :
    TablesDistinct (allocate d op) ↔ Safe d op := by
  rw [tablesDistinct_iff] at h ⊢
  cases op with
  | getTableIdForInterface interface => exact lookup_step d interface h
  | updateConfig config => exact reload_step d config h

/- Two interfaces never share a table exactly in the runs whose operations hand out
only indices that nobody keeps. -/
theorem tables_distinct_iff_safe (config : Config) (rm : RouteManager) (ops : List IndexOp) :
    Throughout allocate TablesDistinct (EventDispatcher.new config rm) ops ↔
      Along allocate Safe (EventDispatcher.new config rm) ops :=
  throughout_iff_along allocate (fun _ => True) TablesDistinct Safe (fun _ _ _ => trivial)
    (fun d op _ h => allocate_step d op h) _ ops trivial
    ((tablesDistinct_iff _).mpr (new_injective config rm))

def ethernet (name : String) : InterfaceConfig := ⟨.lan, .name name, 100⟩

/- The interface a is dropped, b keeps index 1, and c is then given the size, 1. -/
theorem reload_then_lookup_shares_table :
    ¬ Throughout allocate TablesDistinct
      (EventDispatcher.new
        { interfaces := (AList.insert "b" (ethernet "b") ∅).insert "a" (ethernet "a") } .default)
      [.updateConfig { interfaces := AList.insert "b" (ethernet "b") ∅ },
        .getTableIdForInterface "c"] := by
  intro h
  have hd := h _ List.prefix_rfl
  exact (hd "b" "c" 1 1 (by decide) (by decide) (by decide)).1 rfl

/-! ### Indices fit their type -/

def Bounded (indices : HashMap String ℕ) : Prop :=
  ∀ i idx, indices.lookup i = some idx → idx ≤ u8Max

theorem bounded_empty : Bounded ∅ := by
  intro i idx h
  rw [AList.lookup_empty] at h
  cases h

theorem bounded_insert {indices : HashMap String ℕ} (h : Bounded indices) {idx : ℕ}
    (hidx : idx ≤ u8Max) (name : String) : Bounded (indices.insert name idx) := by
  intro i idx' hi
  rw [lookup_insert_eq_ite] at hi
  split_ifs at hi
  · cases hi
    exact hidx
  · exact h i idx' hi

theorem bounded_preassign (names : List String) (idx : ℕ) {indices : HashMap String ℕ}
    (h : Bounded indices) : Bounded (EventDispatcher.preassign idx names indices) := by
  induction names generalizing idx indices with
  | nil => exact h
  | cons name names ih =>
    unfold EventDispatcher.preassign
    split_ifs with hlt
    · exact ih (idx + 1) (bounded_insert h hlt.le name)
    · exact ih (idx + 1) h

theorem bounded_rebuildIndices {existing : HashMap String ℕ} (he : Bounded existing)
    (names : List String) (nextIdx : ℕ) {indices : HashMap String ℕ} (h : Bounded indices) :
    Bounded (EventDispatcher.rebuildIndices existing names nextIdx indices) := by
  induction names generalizing nextIdx indices with
  | nil => exact h
  | cons name names ih =>
    unfold EventDispatcher.rebuildIndices
    cases hl : existing.lookup name with
    | some idx => exact ih nextIdx (bounded_insert h (he name idx hl) name)
    | none =>
      dsimp only
      split_ifs with hlt
      · exact ih (nextIdx + 1) (bounded_insert h hlt.le name)
      · exact ih nextIdx h

theorem bounded_indexForInterface {indices : HashMap String ℕ} (h : Bounded indices) (i : String) :
    (EventDispatcher.indexForInterface indices i).1 ≤ u8Max ∧
      Bounded (EventDispatcher.indexForInterface indices i).2 := by
  cases hl : indices.lookup i with
  | some idx =>
    simp only [EventDispatcher.indexForInterface, hl]
    exact ⟨h i idx hl, h⟩
  | none =>
    have hlt : indices.entries.length % 256 ≤ u8Max := Nat.le_of_lt_succ (Nat.mod_lt _ (by decide))
    simp only [EventDispatcher.indexForInterface, hl]
    exact ⟨hlt, bounded_insert h hlt i⟩

end NicAutoswitch.Engine.TableIndices
