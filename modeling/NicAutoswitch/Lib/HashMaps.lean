import Mathlib.Data.List.AList

/-!
# Hash maps and their iteration order

A hash map is an association list with distinct keys. The list is one possible
iteration order; where a program iterates over a map that it has modified, the
order it meets is an arbitrary rearrangement of the list, an `IterOrder`.
-/

namespace HashMaps

variable {α β γ : Type}

/-- A finite map from `α` to `β`. -/
abbrev HashMap (α β : Type) := AList fun _ : α => β

/-- The order in which an iteration meets the entries of a map: any rearrangement. -/
structure IterOrder (γ : Type) where
  arrange : List γ → List γ
  perm : ∀ l, (arrange l).Perm l

/-- The order of the list itself. -/
def IterOrder.asListed : IterOrder γ := ⟨id, fun l => List.Perm.refl l⟩

theorem IterOrder.mem_arrange (o : IterOrder γ) (l : List γ) (x : γ) :
    x ∈ o.arrange l ↔ x ∈ l := (o.perm l).mem_iff

/-- The values met by an iteration in list order. -/
def values (m : HashMap α β) : List β := m.entries.map fun e => e.2

/-- The same keys, in the same order. -/
def mapValues (f : β → γ) (m : HashMap α β) : HashMap α γ where
  entries := m.entries.map fun e => ⟨e.1, f e.2⟩
  nodupKeys := by
    have hk : (m.entries.map fun e => (⟨e.1, f e.2⟩ : Sigma fun _ : α => γ)).keys =
        m.entries.keys := by
      unfold List.keys
      rw [List.map_map]
      rfl
    unfold List.NodupKeys
    rw [hk]
    exact m.nodupKeys

theorem values_mapValues (f : β → γ) (m : HashMap α β) :
    values (mapValues f m) = (values m).map f := by
  simp only [values, mapValues, List.map_map]
  rfl

variable [DecidableEq α]

theorem mem_entries_iff (m : HashMap α β) (a : α) (b : β) :
    ⟨a, b⟩ ∈ m.entries ↔ m.lookup a = some b := by
  rw [← AList.mem_lookup_iff]
  rfl

theorem mem_iff_lookup (m : HashMap α β) (a : α) : a ∈ m ↔ ∃ b, m.lookup a = some b := by
  rw [← AList.lookup_isSome, Option.isSome_iff_exists]

theorem lookup_insert_eq_ite (m : HashMap α β) (a x : α) (b : β) :
    (m.insert a b).lookup x = if x = a then some b else m.lookup x := by
  split
  · next h => rw [h, AList.lookup_insert]
  · next h => exact AList.lookup_insert_ne h

theorem lookup_erase_eq_ite (m : HashMap α β) (a x : α) :
    (m.erase a).lookup x = if x = a then none else m.lookup x := by
  split
  · next h => rw [h, AList.lookup_erase]
  · next h => exact AList.lookup_erase_ne h

/-- Keep the entries that satisfy `p`. -/
def retain (p : α → β → Bool) (m : HashMap α β) : HashMap α β where
  entries := m.entries.filter fun e => p e.1 e.2
  nodupKeys := m.nodupKeys.sublist List.filter_sublist

theorem lookup_retain (p : α → β → Bool) (m : HashMap α β) (a : α) (b : β) :
    (retain p m).lookup a = some b ↔ m.lookup a = some b ∧ p a b = true := by
  rw [← mem_entries_iff, ← mem_entries_iff]
  exact List.mem_filter

theorem mem_values_iff (m : HashMap α β) (b : β) :
    b ∈ values m ↔ ∃ a, m.lookup a = some b := by
  simp only [values, List.mem_map]
  refine ⟨?_, ?_⟩
  · rintro ⟨⟨a, c⟩, hm, rfl⟩
    exact ⟨a, (mem_entries_iff m a c).mp hm⟩
  · rintro ⟨a, h⟩
    exact ⟨⟨a, b⟩, (mem_entries_iff m a b).mpr h, rfl⟩

/-- The entries written under distinct keys, one after another. -/
theorem lookup_foldl_insert {ι : Type} (key : ι → α) (val : ι → β) {l : List ι}
    (h : (l.map key).Nodup) (m : HashMap α β) (a : α) (b : β) :
    (l.foldl (fun m x => m.insert (key x) (val x)) m).lookup a = some b ↔
      (∃ x ∈ l, key x = a ∧ val x = b) ∨ a ∉ l.map key ∧ m.lookup a = some b := by
  induction l generalizing m with
  | nil => simp
  | cons x rest ih =>
    obtain ⟨hx, hrest⟩ := List.nodup_cons.mp h
    rw [List.foldl_cons, ih hrest, lookup_insert_eq_ite, List.exists_mem_cons_iff, List.map_cons,
      List.mem_cons]
    by_cases ha : a = key x
    · subst ha
      have hnone : ¬ ∃ y ∈ rest, key y = key x ∧ val y = b := by
        rintro ⟨y, hy, hk, _⟩
        exact hx (List.mem_map.mpr ⟨y, hy, hk⟩)
      simp [hx, hnone]
    · have hne : key x ≠ a := fun he => ha he.symm
      simp [ha, hne]

end HashMaps
