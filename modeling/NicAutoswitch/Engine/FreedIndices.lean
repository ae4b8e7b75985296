import NicAutoswitch.Engine.TableIndices

/-!
# Indices freed by a reload

A reload drops the indices of the interfaces that its configuration does not list.
The dispatcher keeps no record of them: the next index is again the size of the map,
which may be one of those. `freed` is an auxiliary variable that remembers them.
-/

namespace NicAutoswitch.Engine.FreedIndices
open HashMaps Schema Router Transition TableIndices

/- The entries that an operation removes from the map. -/
def dropped (d : EventDispatcher) : IndexOp → List (String × ℕ)
  | .getTableIdForInterface _ => []
  | .updateConfig config =>
    (d.interfaceIndices.entries.filter fun e =>
      ((d.updateConfig config).interfaceIndices.lookup e.1).isNone).map fun e => (e.1, e.2)

/- A dispatcher, and the entries that earlier operations have removed. -/
structure Traced where
  dispatcher : EventDispatcher
  freed : List (String × ℕ) := []

def Traced.allocate (s : Traced) (op : IndexOp) : Traced where
  dispatcher := TableIndices.allocate s.dispatcher op
  freed := dropped s.dispatcher op ++ s.freed

theorem mem_dropped (d : EventDispatcher) (op : IndexOp) (x : String) (i : ℕ) :
    (x, i) ∈ dropped d op ↔ d.interfaceIndices.lookup x = some i ∧
      (allocate d op).interfaceIndices.lookup x = none := by
  cases op with
  | updateConfig config =>
    simp only [dropped, List.mem_map, List.mem_filter, Option.isNone_iff_eq_none, Prod.mk.injEq]
    apply Iff.intro
    · intro h
      obtain ⟨⟨y, j⟩, ⟨hm, hn⟩, hx, hi⟩ := h
      subst hx hi
      exact ⟨(mem_entries_iff _ _ _).mp hm, hn⟩
    · intro h
      exact ⟨⟨x, i⟩, ⟨(mem_entries_iff _ x i).mpr h.1, h.2⟩, rfl, rfl⟩
  | getTableIdForInterface interface =>
    -- a lookup removes nothing
    refine iff_of_false List.not_mem_nil (fun h => ?_)
    have hn : (d.getTableIdForInterface interface).2.interfaceIndices.lookup x = none := h.2
    rw [lookup_getTableId, h.1] at hn
    cases hn

theorem run_dispatcher (s : Traced) (ops : List IndexOp) :
    (run Traced.allocate s ops).dispatcher = run allocate s.dispatcher ops :=
  run_simulates Traced.allocate allocate Traced.dispatcher (fun _ => True)
    (fun _ _ _ => trivial) (fun _ _ _ => rfl) s ops trivial

/- What the record says: some operation of the run has removed the entry. -/
theorem mem_freed (d : EventDispatcher) (ops : List IndexOp) (x : String) (i : ℕ) :
    (x, i) ∈ (run Traced.allocate ⟨d, []⟩ ops).freed ↔
      ∃ pre op, pre ++ [op] <+: ops ∧ (run allocate d pre).interfaceIndices.lookup x = some i ∧
        (run allocate d (pre ++ [op])).interfaceIndices.lookup x = none := by
  induction ops using List.reverseRecOn with
  | nil =>
    refine iff_of_false List.not_mem_nil (fun h => ?_)
    obtain ⟨pre, op, hp, _⟩ := h
    rw [List.prefix_nil] at hp
    exact List.append_ne_nil_of_right_ne_nil pre (List.cons_ne_nil op []) hp
  | append_singleton ops op ih =>
    have hd := run_dispatcher ⟨d, []⟩ ops
    have hlast : (run Traced.allocate ⟨d, []⟩ (ops ++ [op])).freed =
        dropped (run allocate d ops) op ++ (run Traced.allocate ⟨d, []⟩ ops).freed := by
      rw [run_append, ← hd]
      rfl
    have hstep : allocate (run allocate d ops) op = run allocate d (ops ++ [op]) :=
      (run_append allocate d ops [op]).symm
    rw [hlast, List.mem_append, mem_dropped, ih, hstep]
    apply Iff.intro
    · intro h
      rcases h with hnow | hbefore
      · exact ⟨ops, op, List.prefix_rfl, hnow⟩
      · obtain ⟨pre, op', hp, h⟩ := hbefore
        exact ⟨pre, op', hp.trans (List.prefix_append ops [op]), h⟩
    · intro h
      obtain ⟨pre, op', hp, h⟩ := h
      rcases List.prefix_concat_iff.mp hp with heq | hp'
      · obtain ⟨hpre, hop⟩ := List.append_inj' heq rfl
        cases hop
        subst hpre
        exact Or.inl h
      · exact Or.inr ⟨pre, op', hp', h⟩

/-! ### Reuse -/

/- The operation gives the interface this index. -/
def Assigns (d : EventDispatcher) (op : IndexOp) (y : String) (i : ℕ) : Prop :=
  d.interfaceIndices.lookup y ≠ some i ∧ (allocate d op).interfaceIndices.lookup y = some i

/- An interface that the new configuration lists keeps its index. -/
def KeepsListed (d : EventDispatcher) (op : IndexOp) : Prop :=
  ∀ config, op = .updateConfig config → ∀ x ∈ config.interfaces.keys, ∀ i,
    d.interfaceIndices.lookup x = some i → (allocate d op).interfaceIndices.lookup x = some i

/- No index that was freed is given to another interface. -/
def NoReuse (s : Traced) (op : IndexOp) : Prop :=
  ∀ x i, (x, i) ∈ s.freed → ∀ y, y ≠ x → ¬ Assigns s.dispatcher op y i

/- The index that the operation has ready for a name outside the map. -/
def nextIndex (d : EventDispatcher) : IndexOp → String → Option ℕ
  | .getTableIdForInterface interface, y =>
    if y = interface then some (d.interfaceIndices.entries.length % 256) else none
  | .updateConfig config, y =>
    if y ∈ config.interfaces.keys then
      reloaded d.interfaceIndices config.interfaces.keys
        (d.interfaceIndices.entries.length % 256) y
    else none

/- The condition on an operation: the index that it has ready for a new name has not been
freed from another one. -/
def Unspoilt (s : Traced) (op : IndexOp) : Prop :=
  ∀ y i, s.dispatcher.interfaceIndices.lookup y = none → nextIndex s.dispatcher op y = some i →
    ∀ x, (x, i) ∈ s.freed → x = y

theorem keepsListed (d : EventDispatcher) (op : IndexOp) : KeepsListed d op := by
  intro config hop x hx i hi
  subst hop
  exact updateConfig_kept hx hi

/- An index is given to new names only, and is the one ready for them. -/
theorem assigns_iff (d : EventDispatcher) (op : IndexOp) (y : String) (i : ℕ) :
    Assigns d op y i ↔ d.interfaceIndices.lookup y = none ∧ nextIndex d op y = some i := by
  unfold Assigns
  cases op with
  | getTableIdForInterface interface =>
    show _ ∧ (d.getTableIdForInterface interface).2.interfaceIndices.lookup y = some i ↔
      _ ∧ (if y = interface then some (d.interfaceIndices.entries.length % 256) else none) = some i
    rw [lookup_getTableId]
    cases d.interfaceIndices.lookup y with
    | none => simp
    | some j => exact iff_of_false (fun h => h.1 h.2) (fun h => by cases h.1)
  | updateConfig config =>
    show _ ∧ (d.updateConfig config).interfaceIndices.lookup y = some i ↔ _
    rw [lookup_updateConfig, nextIndex]
    cases hy : d.interfaceIndices.lookup y with
    | none => simp
    | some j =>
      refine iff_of_false (fun h => ?_) (fun h => by cases h.1)
      obtain ⟨hne, hi⟩ := h
      split_ifs at hi
      rw [reloaded_kept _ _ hy] at hi
      exact hne hi

theorem noReuse_iff (s : Traced) (op : IndexOp) : NoReuse s op ↔ Unspoilt s op := by
  unfold NoReuse Unspoilt
  simp only [assigns_iff]
  apply Iff.intro
  · intro h y i hy hi x hx
    by_contra hne
    exact h x i hx y (Ne.symm hne) ⟨hy, hi⟩
  · intro h x i hx y hne hyi
    exact hne (h y i hyi.1 hyi.2 x hx).symm

/- A listed interface always keeps its index, and no freed index is reused exactly where
every index that is handed out is unspoilt. -/
theorem freed_not_reused_iff (d : EventDispatcher) (ops : List IndexOp) :
    Along Traced.allocate (fun s op => KeepsListed s.dispatcher op ∧ NoReuse s op) ⟨d, []⟩ ops ↔
      Along Traced.allocate Unspoilt ⟨d, []⟩ ops := by
  refine along_congr Traced.allocate (fun s op => ?_) ⟨d, []⟩ ops
  rw [noReuse_iff]
  exact and_iff_right (keepsListed s.dispatcher op)

/- The interface b is dropped with index 1, and c is then given the size, 1. -/
theorem dropped_index_reused :
    ¬ Along Traced.allocate (fun s op => KeepsListed s.dispatcher op ∧ NoReuse s op)
      ⟨EventDispatcher.new
        { interfaces := (AList.insert "b" (ethernet "b") ∅).insert "a" (ethernet "a") } .default,
        []⟩
      [.updateConfig { interfaces := AList.insert "a" (ethernet "a") ∅ },
        .getTableIdForInterface "c"] := by
  intro h
  exact h.2.1.2 "b" 1 (by decide) "c" (by decide) ⟨by decide, by decide⟩

end NicAutoswitch.Engine.FreedIndices
