import Mathlib.Algebra.Order.Ring.Int
import Mathlib.Data.List.Forall2
import NicAutoswitch.Lib.HashMaps

/-!
# Documents and how they are read

A document is a text file after parsing: strings, numbers, lists and tables. A record is read
from a table by its keys, whatever their order, or from a list by the order of its fields; a
member that is given twice is refused, a key that no field has is ignored. Nothing here depends
on the records that are read.
-/

namespace Documents
open HashMaps

inductive Value where
  | string (s : String)
  | integer (n : ℤ)
  | float (literal : String)
  | boolean (b : Bool)
  | datetime (literal : String)
  | array (items : List Value)
  | table (members : List (String × Value))

/-- The members of a table. A datetime is handed over as a table with a key of its own. -/
def Value.members : Value → Option (List (String × Value))
  | .table members => some members
  | .datetime literal => some [("$__toml_private_datetime", .string literal)]
  | _ => none

/-- A list or a table that holds nothing. -/
def Value.isEmpty : Value → Bool
  | .array [] | .table [] => true
  | _ => false

variable {α β : Type}

/-! ### Readers -/

def string : Value → Option String
  | .string s => some s
  | _ => none

def boolean : Value → Option Bool
  | .boolean b => some b
  | _ => none

/-- A number of so many bits, without a sign. -/
def unsigned (bits : ℕ) : Value → Option ℕ
  | .integer n => if 0 ≤ n ∧ n.toNat < 2 ^ bits then some n.toNat else none
  | _ => none

/-- What is written as a text of its own. -/
def parsed (parse : String → Option α) (v : Value) : Option α := string v >>= parse

/-- One of a few names, or a table that holds nothing under one of them. -/
def unit (ofTag : String → Option α) : Value → Option α
  | .string s => ofTag s
  | .table [(tag, content)] => if content.isEmpty then ofTag tag else none
  | _ => none

def list (decode : Value → Option α) : Value → Option (List α)
  | .array items => items.mapM decode
  | _ => none

def entry (decode : Value → Option α) (m : String × Value) : Option (Σ _ : String, α) :=
  (decode m.2).map fun a => ⟨m.1, a⟩

/-- A table with keys of its own. -/
def map (decode : Value → Option α) (v : Value) : Option (HashMap String α) := do
  let members ← v.members
  let entries ← members.mapM (entry decode)
  if h : entries.keys.Nodup then some ⟨entries, h⟩ else none

/-- The value of a member that may be absent, but not be there twice. -/
def field (key : String) (members : List (String × Value)) : Option (Option Value) :=
  match members.filter (·.1 == key) with
  | [] => some none
  | [m] => some (some m.2)
  | _ => none

/-- The member with the key, or what stands for it where it is absent. -/
def member (key : String) (absent : Option α) (decode : Value → Option α)
    (members : List (String × Value)) : Option α := do
  match ← field key members with
  | none => absent
  | some v => decode v

def required (key : String) (decode : Value → Option α) : List (String × Value) → Option α :=
  member key none decode

def defaulted (key : String) (decode : Value → Option α) (default : α) :
    List (String × Value) → Option α := member key (some default) decode

/-- The first of the variants that can be read. -/
def untagged (variants : List (Value → Option α)) (v : Value) : Option α :=
  variants.findSome? fun decode => decode v

/-- A record, by the keys of its fields or by their order. Of a list, what comes after the last
field is ignored, and the fields it is too short for are absent. -/
def record (fields : List String) (read : List (String × Value) → Option α) : Value → Option α
  | .array items => read (fields.zip items)
  | v => v.members >>= read

/-- A variant with one member, by its key only. -/
def variant (key : String) (decode : Value → Option β) (make : β → α) (v : Value) : Option α := do
  let members ← v.members
  (required key decode members).map make

/-! ### Reading what has been written -/

theorem unsigned_spec {bits n : ℕ} {v : Value} :
    unsigned bits v = some n ↔ v = .integer n ∧ n < 2 ^ bits := by
  unfold unsigned
  cases v with
  | integer m =>
    simp only [Value.integer.injEq]
    split_ifs with h
    · rw [Option.some_inj]
      omega
    · refine iff_of_false nofun ?_
      rintro ⟨rfl, hn⟩
      exact h ⟨Int.natCast_nonneg n, hn⟩
  | string _ | float _ | boolean _ | datetime _ | array _ | table _ =>
    exact iff_of_false nofun fun h => by cases h.1

theorem mapM_eq_some {f : α → Option β} {l : List α} {l' : List β} :
    l.mapM f = some l' ↔ List.Forall₂ (fun a b => f a = some b) l l' := by
  induction l generalizing l' with
  | nil =>
    rw [List.mapM_nil, List.forall₂_nil_left_iff]
    exact Option.some_inj.trans eq_comm
  | cons a l ih =>
    rw [List.mapM_cons, List.forall₂_cons_left_iff]
    simp only [Option.bind_eq_bind, Option.bind_eq_some_iff, ih, Option.pure_def, Option.some_inj]
    apply Iff.intro
    · rintro ⟨b, hb, bs, hbs, rfl⟩
      exact ⟨b, bs, hb, hbs, rfl⟩
    · rintro ⟨b, bs, hb, hbs, rfl⟩
      exact ⟨b, hb, bs, hbs, rfl⟩

theorem mem_of_mapM {f : α → Option β} {l : List α} {l' : List β} (h : l.mapM f = some l') {b : β}
    (hb : b ∈ l') : ∃ a ∈ l, f a = some b := by
  have hall := mapM_eq_some.mp h
  induction hall with
  | nil => cases hb
  | @cons a c as cs hac hrest ih =>
    rcases List.mem_cons.mp hb with rfl | hmem
    · exact ⟨a, List.mem_cons_self, hac⟩
    · obtain ⟨a', ha', hf⟩ := ih (mapM_eq_some.mpr hrest) hmem
      exact ⟨a', List.mem_cons_of_mem a ha', hf⟩

/-- A list is read as it was written if each of its items is. -/
theorem list_written {encode : α → Value} {decode : Value → Option α} {l : List α}
    (h : ∀ a ∈ l, decode (encode a) = some a) : list decode (.array (l.map encode)) = some l := by
  refine mapM_eq_some.mpr (List.forall₂_map_left_iff.mpr ?_)
  exact List.forall₂_same.mpr h

theorem list_spec {decode : Value → Option α} {v : Value} {l : List α}
    (h : list decode v = some l) : ∀ a ∈ l, ∃ v', decode v' = some a := by
  cases v with
  | array items =>
    intro a ha
    obtain ⟨v, _, hv⟩ := mem_of_mapM h ha
    exact ⟨v, hv⟩
  | string _ | integer _ | float _ | boolean _ | datetime _ | table _ => cases h

/-- So is a map. -/
theorem map_written {encode : α → Value} {decode : Value → Option α} {m : HashMap String α}
    (h : ∀ e ∈ m.entries, decode (encode e.2) = some e.2) :
    map decode (.table (m.entries.map fun e => (e.1, encode e.2))) = some m := by
  have hentries : (m.entries.map fun e => (e.1, encode e.2)).mapM (entry decode) =
      some m.entries := by
    refine mapM_eq_some.mpr (List.forall₂_map_left_iff.mpr (List.forall₂_same.mpr fun e he => ?_))
    unfold entry
    rw [h e he]
    rfl
  simp only [map, Value.members, hentries, Option.bind_eq_bind, Option.bind_some]
  exact dif_pos m.nodupKeys

theorem map_spec {decode : Value → Option α} {v : Value} {m : HashMap String α}
    (h : map decode v = some m) : ∀ e ∈ m.entries, ∃ v', decode v' = some e.2 := by
  obtain ⟨members, _, hread⟩ := Option.bind_eq_some_iff.mp h
  obtain ⟨entries, hentries, hm⟩ := Option.bind_eq_some_iff.mp hread
  split_ifs at hm
  cases hm
  intro e he
  obtain ⟨x, _, hx⟩ := mem_of_mapM hentries he
  obtain ⟨a, ha, rfl⟩ := Option.map_eq_some_iff.mp hx
  exact ⟨x.2, ha⟩

theorem parsed_spec {parse : String → Option α} {v : Value} {a : α}
    (h : parsed parse v = some a) : ∃ s, parse s = some a := by
  obtain ⟨s, _, hs⟩ := Option.bind_eq_some_iff.mp h
  exact ⟨s, hs⟩

theorem member_spec {key : String} {absent : Option α} {decode : Value → Option α} {a : α}
    {members : List (String × Value)} (h : member key absent decode members = some a) :
    absent = some a ∨ ∃ v, decode v = some a := by
  obtain ⟨answer, _, ha⟩ := Option.bind_eq_some_iff.mp h
  cases answer with
  | none => exact .inl ha
  | some v => exact .inr ⟨v, ha⟩

theorem required_spec {key : String} {decode : Value → Option α} {a : α}
    {members : List (String × Value)} (h : required key decode members = some a) :
    ∃ v, decode v = some a := (member_spec h).resolve_left fun h0 => by cases h0

theorem defaulted_spec {key : String} {decode : Value → Option α} {default a : α}
    {members : List (String × Value)} (h : defaulted key decode default members = some a) :
    a = default ∨ ∃ v, decode v = some a :=
  (member_spec h).imp_left fun h0 => (Option.some.inj h0).symm

theorem record_spec {fields : List String} {read : List (String × Value) → Option α} {v : Value}
    {a : α} (h : record fields read v = some a) : ∃ members, read members = some a := by
  unfold record at h
  split at h
  · exact ⟨_, h⟩
  · obtain ⟨members, _, hread⟩ := Option.bind_eq_some_iff.mp h
    exact ⟨members, hread⟩

theorem variant_spec {key : String} {decode : Value → Option β} {make : β → α} {v : Value} {a : α}
    (h : variant key decode make v = some a) : ∃ v' b, decode v' = some b ∧ make b = a := by
  obtain ⟨members, _, ha⟩ := Option.bind_eq_some_iff.mp h
  obtain ⟨b, hb, hmake⟩ := Option.map_eq_some_iff.mp ha
  obtain ⟨v', hv'⟩ := required_spec hb
  exact ⟨v', b, hv', hmake⟩

theorem untagged_spec {variants : List (Value → Option α)} {v : Value} {a : α}
    (h : untagged variants v = some a) : ∃ decode ∈ variants, decode v = some a :=
  List.exists_of_findSome?_eq_some h

/-! ### The order of the members -/

/-- The same document, with the members of its tables in any order. -/
inductive Reordered : Value → Value → Prop
  | same (v : Value) : Reordered v v
  | array {items items' : List Value} (h : List.Forall₂ Reordered items items') :
    Reordered (.array items) (.array items')
  | table {members between members' : List (String × Value)}
    (hk : between.map Prod.fst = members.map Prod.fst)
    (hv : List.Forall₂ Reordered (members.map Prod.snd) (between.map Prod.snd))
    (hp : between.Perm members') : Reordered (.table members) (.table members')

/-- The reader does not look at the order. -/
def Steady (decode : Value → Option α) : Prop :=
  ∀ v v', Reordered v v' → decode v' = decode v

/-- Members that are alike, one by one. -/
def Alike (m m' : String × Value) : Prop := m'.1 = m.1 ∧ Reordered m.2 m'.2

theorem alike_of {members between : List (String × Value)}
    (hk : between.map Prod.fst = members.map Prod.fst)
    (hv : List.Forall₂ Reordered (members.map Prod.snd) (between.map Prod.snd)) :
    List.Forall₂ Alike members between := by
  induction members generalizing between with
  | nil =>
    rw [List.map_eq_nil_iff.mp hk]
    exact .nil
  | cons m members ih =>
    obtain ⟨m', between, rfl⟩ := List.exists_cons_of_ne_nil (l := between) fun h => by
      rw [h] at hk
      cases hk
    obtain ⟨hm, hrest⟩ := List.cons_eq_cons.mp hk
    cases hv with
    | cons hv hvs => exact .cons ⟨hm, hv⟩ (ih hrest hvs)

/-- The items of two lists that are alike, under the same keys. -/
theorem positional_reordered {items items' : List Value} (h : List.Forall₂ Reordered items items')
    (fields : List String) :
    Reordered (.table (fields.zip items)) (.table (fields.zip items')) := by
  have hkeys : (fields.zip items').map Prod.fst = (fields.zip items).map Prod.fst ∧
      List.Forall₂ Reordered ((fields.zip items).map Prod.snd)
        ((fields.zip items').map Prod.snd) := by
    induction h generalizing fields with
    | nil =>
      rw [List.zip_nil_right]
      exact ⟨rfl, .nil⟩
    | @cons v v' _ _ hv _ ih =>
      cases fields with
      | nil => exact ⟨rfl, .nil⟩
      | cons key fields => exact ⟨congrArg (key :: ·) (ih fields).1, .cons hv (ih fields).2⟩
  exact .table hkeys.1 hkeys.2 .rfl

theorem Reordered.isEmpty_eq {v v' : Value} (h : Reordered v v') : v'.isEmpty = v.isEmpty := by
  cases h with
  | same => rfl
  | array h => cases h <;> rfl
  | @table members between members' hk hv hp =>
    have hlength : members'.length = members.length := by
      rw [← hp.length_eq, ← List.length_map, hk, List.length_map]
    match members, members', hlength with
    | [], [], _ => rfl
    | _ :: _, _ :: _, _ => rfl

/-- What a key finds in a reordered table. -/
theorem field_reordered {members members' : List (String × Value)}
    (h : Reordered (.table members) (.table members')) (key : String) :
    Option.Rel (Option.Rel Reordered) (field key members) (field key members') := by
  have hfilter : ∃ between, List.Forall₂ Alike (members.filter (·.1 == key)) between ∧
      between.Perm (members'.filter (·.1 == key)) := by
    cases h with
    | same => exact ⟨_, List.forall₂_same.mpr fun m _ => ⟨rfl, .same m.2⟩, .rfl⟩
    | @table _ between _ hk hv hp =>
      refine ⟨between.filter (·.1 == key), ?_, hp.filter _⟩
      refine List.rel_filter (fun m m' hm => ?_) (alike_of hk hv)
      dsimp only
      rw [hm.1]
  obtain ⟨between, halike, hperm⟩ := hfilter
  unfold field
  generalize members.filter (·.1 == key) = found at halike
  generalize members'.filter (·.1 == key) = found' at hperm
  cases halike with
  | nil =>
    rw [List.nil_perm.mp hperm]
    exact .some .none
  | cons hm hrest =>
    cases hrest with
    | nil =>
      rw [← List.singleton_perm.mp hperm]
      exact .some (.some hm.2)
    | cons hm' hrest' =>
      have hlength := hperm.length_eq
      match found', hlength with
      | _ :: _ :: _, _ => exact .none

theorem steady_string : Steady string := by
  intro v v' h
  cases h <;> rfl

theorem steady_boolean : Steady boolean := by
  intro v v' h
  cases h <;> rfl

theorem steady_unsigned (bits : ℕ) : Steady (unsigned bits) := by
  intro v v' h
  cases h <;> rfl

theorem steady_parsed (parse : String → Option α) : Steady (parsed parse) := by
  intro v v' h
  unfold parsed
  rw [steady_string v v' h]

theorem steady_unit (ofTag : String → Option α) : Steady (unit ofTag) := by
  intro v v' h
  cases h with
  | same => rfl
  | array => rfl
  | @table members between members' hk hv hp =>
    have halike := alike_of hk hv
    cases halike with
    | nil => rw [List.nil_perm.mp hp]
    | @cons m m' _ _ hm hrest =>
      cases hrest with
      | nil =>
        obtain ⟨tag, content⟩ := m
        obtain ⟨tag', content'⟩ := m'
        obtain ⟨rfl, hcontent⟩ := hm
        rw [← List.singleton_perm.mp hp]
        dsimp only [unit]
        rw [hcontent.isEmpty_eq]
      | cons =>
        have hlength := hp.length_eq
        match members', hlength with
        | _ :: _ :: _, _ => rfl

theorem steady_list {decode : Value → Option α} (hd : Steady decode) : Steady (list decode) := by
  intro v v' h
  cases h with
  | same => rfl
  | table => rfl
  | @array items items' hitems =>
    show items'.mapM decode = items.mapM decode
    induction hitems with
    | nil => rfl
    | @cons a b as bs hab _ ih => rw [List.mapM_cons, List.mapM_cons, hd a b hab, ih]

theorem steady_untagged {variants : List (Value → Option α)} (hd : ∀ decode ∈ variants, Steady decode) :
    Steady (untagged variants) := by
  intro v v' h
  unfold untagged
  induction variants with
  | nil => rfl
  | cons decode rest ih =>
    rw [List.findSome?_cons, List.findSome?_cons, hd decode List.mem_cons_self v v' h,
      ih fun d hm => hd d (List.mem_cons_of_mem decode hm)]

section Members

variable {members members' : List (String × Value)} (h : Reordered (.table members) (.table members'))
include h

theorem member_rel (key : String) (absent : Option α) {decode : Value → Option α}
    {R : α → α → Prop} (h0 : Option.Rel R absent absent)
    (hd : ∀ v v', Reordered v v' → Option.Rel R (decode v) (decode v')) :
    Option.Rel R (member key absent decode members) (member key absent decode members') := by
  have hfield := field_reordered h key
  unfold member
  generalize field key members = answer at hfield ⊢
  generalize field key members' = answer' at hfield ⊢
  cases hfield with
  | none => exact .none
  | some hv =>
    cases hv with
    | none => exact h0
    | some hv => exact hd _ _ hv

theorem member_steady (key : String) (absent : Option α) {decode : Value → Option α}
    (hd : Steady decode) :
    member key absent decode members' = member key absent decode members := by
  have hfield := field_reordered h key
  unfold member
  generalize field key members = answer at hfield ⊢
  generalize field key members' = answer' at hfield ⊢
  cases hfield with
  | none => rfl
  | some hv =>
    cases hv with
    | none => rfl
    | some hv => exact hd _ _ hv

end Members

/-- What is read of a record is related as what is read of its members is. -/
theorem record_rel {fields : List String} {read : List (String × Value) → Option α}
    {R : α → α → Prop} (hrefl : ∀ a, R a a)
    (hr : ∀ members members', Reordered (.table members) (.table members') →
      Option.Rel R (read members) (read members')) {v v' : Value} (h : Reordered v v') :
    Option.Rel R (record fields read v) (record fields read v') := by
  cases h with
  | same =>
    cases record fields read v with
    | none => exact .none
    | some a => exact .some (hrefl a)
  | array hitems => exact hr _ _ (positional_reordered hitems fields)
  | table hk hv hp => exact hr _ _ (.table hk hv hp)

theorem steady_record {fields : List String} {read : List (String × Value) → Option α}
    (hr : ∀ members members', Reordered (.table members) (.table members') →
      read members' = read members) : Steady (record fields read) := by
  intro v v' h
  cases h with
  | same => rfl
  | array hitems => exact hr _ _ (positional_reordered hitems fields)
  | table hk hv hp => exact hr _ _ (.table hk hv hp)

theorem steady_variant (key : String) {decode : Value → Option β} (hd : Steady decode)
    (make : β → α) : Steady (variant key decode make) := by
  intro v v' h
  cases h with
  | same => rfl
  | array => rfl
  | table hk hv hp => exact congrArg (Option.map make) (member_steady (.table hk hv hp) key none hd)

/-! ### Maps -/

theorem mapM_perm {f : α → Option β} {l l' : List α} (h : l.Perm l') :
    Option.Rel List.Perm (l.mapM f) (l'.mapM f) := by
  induction h with
  | nil => exact .some .rfl
  | @cons a l l' _ ih =>
    rw [List.mapM_cons, List.mapM_cons]
    cases f a with
    | none => exact .none
    | some b =>
      generalize l.mapM f = x at ih ⊢
      generalize l'.mapM f = x' at ih ⊢
      cases ih with
      | none => exact .none
      | some hp => exact .some (hp.cons b)
  | swap a b l =>
    simp only [List.mapM_cons]
    cases f a <;> cases f b <;> cases l.mapM f <;> try exact .none
    exact .some (.swap _ _ _)
  | @trans l₁ l₂ l₃ _ _ ih ih' =>
    generalize l₁.mapM f = x at ih ⊢
    generalize l₂.mapM f = y at ih ih'
    generalize l₃.mapM f = z at ih' ⊢
    cases ih with
    | none =>
      cases ih'
      exact .none
    | some hp =>
      cases ih' with
      | some hp' => exact .some (hp.trans hp')

theorem mapM_alike {decode : Value → Option α} (hd : Steady decode)
    {members between : List (String × Value)} (h : List.Forall₂ Alike members between) :
    between.mapM (entry decode) = members.mapM (entry decode) := by
  induction h with
  | nil => rfl
  | @cons m m' _ _ hm _ ih =>
    have hentry : entry decode m' = entry decode m := by
      unfold entry
      rw [hm.1, hd _ _ hm.2]
    rw [List.mapM_cons, List.mapM_cons, ih, hentry]

/-- The entries of a map come in the order of its members. -/
theorem map_reordered {decode : Value → Option α} (hd : Steady decode) {v v' : Value}
    (h : Reordered v v') :
    Option.Rel (fun m m' => m.entries.Perm m'.entries) (map decode v) (map decode v') := by
  have hrefl : ∀ x : Option (HashMap String α),
      Option.Rel (fun m m' => m.entries.Perm m'.entries) x x := by
    intro x
    cases x with
    | none => exact .none
    | some m => exact .some .rfl
  cases h with
  | same => exact hrefl _
  | array => exact .none
  | @table members between members' hk hv hp =>
    have hperm := mapM_perm (f := entry decode) hp
    rw [mapM_alike hd (alike_of hk hv)] at hperm
    unfold map
    dsimp only [Value.members, Option.bind_eq_bind, Option.bind_some]
    generalize members.mapM (entry decode) = x at hperm ⊢
    generalize members'.mapM (entry decode) = x' at hperm ⊢
    cases hperm with
    | none => exact .none
    | @some entries entries' he =>
      have hkeys : entries.keys.Nodup ↔ entries'.keys.Nodup := (he.map Sigma.fst).nodup_iff
      by_cases hn : entries.keys.Nodup
      · simp only [Option.bind_some, dif_pos hn, dif_pos (hkeys.mp hn)]
        exact .some he
      · simp only [Option.bind_some, dif_neg hn, dif_neg (mt hkeys.mpr hn)]
        exact .none

end Documents
