import Mathlib.Data.List.Basic

/-!
# JSON values and the lines that carry them

A number is kept as its literal. How a value is written and read back is a parameter: a
line carries an object if the members that are read are those that were written, up to
what is inside numbers, arrays and objects.
-/

namespace Json

inductive Value where
  | null
  | bool (b : Bool)
  | number (literal : String)
  | string (s : String)
  | array (items : List Value)
  | object (members : List (String × Value))

variable {α : Type}

/-! ### Decoding -/

/-- What a decoder says of a value that it did not expect. -/
def Value.unexpected : Value → String
  | .null => "null"
  | .bool b => s!"boolean `{b}`"
  | .number literal =>
    if '.' ∈ literal.toList ∨ 'e' ∈ literal.toList then s!"floating point `{literal}`"
    else s!"integer `{literal}`"
  | .string s => s!"string {repr s}"
  | .array _ => "sequence"
  | .object _ => "map"

def invalidType (v : Value) (expected : String) : String :=
  s!"invalid type: {v.unexpected}, expected {expected}"

def decodeBool : Value → Except String Bool
  | .bool b => .ok b
  | v => .error (invalidType v "a boolean")

def decodeString : Value → Except String String
  | .string s => .ok s
  | v => .error (invalidType v "a string")

/-- The value of a member that may be absent, but not be there twice. -/
def field (key : String) (members : List (String × Value)) : Except String (Option Value) :=
  match members.filter (·.1 == key) with
  | [] => .ok none
  | [m] => .ok (some m.2)
  | _ => .error s!"duplicate field `{key}`"

def required (key : String) (decode : Value → Except String α) (members : List (String × Value)) :
    Except String α := do
  match ← field key members with
  | none => .error s!"missing field `{key}`"
  | some v => decode v

def nullable (decode : Value → Except String α) : Value → Except String (Option α)
  | .null => .ok none
  | v => some <$> decode v

/-- A member that is absent or null is none. -/
def optional (key : String) (decode : Value → Except String α) (members : List (String × Value)) :
    Except String (Option α) := do
  match ← field key members with
  | none => .ok none
  | some v => nullable decode v

/-! ### Lines -/

/-- `locate` adds to what a decoder says of a line the place in the line. -/
structure LineFormat where
  print : Value → String
  parse : String → Except String Value
  locate : String → String → String

def LineFormat.read (format : LineFormat) (decode : Value → Except String α) (line : String) :
    Except String α :=
  match format.parse line with
  | .error e => .error e
  | .ok v => (decode v).mapError (format.locate line)

theorem LineFormat.read_ok {format : LineFormat} {decode : Value → Except String α} {line : String}
    {v : Value} {a : α} (hp : format.parse line = .ok v) (hd : decode v = .ok a) :
    format.read decode line = .ok a := by
  unfold read
  rw [hp]
  dsimp only
  rw [hd]
  rfl

/-- The same value, up to what is inside. -/
def Value.Alike : Value → Value → Prop
  | .null, v => v = .null
  | .bool b, v => v = .bool b
  | .number _, v => ∃ literal, v = .number literal
  | .string s, v => v = .string s
  | .array _, v => ∃ items, v = .array items
  | .object _, v => ∃ members, v = .object members

/-- Members that are read as they were written. -/
abbrev SameMembers : List (String × Value) → List (String × Value) → Prop :=
  List.Forall₂ fun m m' => m'.1 = m.1 ∧ m.2.Alike m'.2

def LineFormat.Carries (format : LineFormat) (members : List (String × Value)) : Prop :=
  ∃ members', format.parse (format.print (.object members)) = .ok (.object members') ∧
    SameMembers members members'

theorem SameMembers.filter {members members' : List (String × Value)}
    (h : SameMembers members members') (key : String) :
    SameMembers (members.filter (·.1 == key)) (members'.filter (·.1 == key)) := by
  induction h with
  | nil => exact .nil
  | cons hm _ ih =>
    rw [List.filter_cons, List.filter_cons, hm.1]
    split_ifs
    · exact .cons hm ih
    · exact ih

/-- A member is there after the line if it was there before. -/
theorem field_carried {members members' : List (String × Value)}
    (h : SameMembers members members') (key : String) {answer : Option Value}
    (hf : field key members = .ok answer) :
    ∃ answer', field key members' = .ok answer' ∧ Option.Rel Value.Alike answer answer' := by
  have hfilter := h.filter key
  unfold field at hf ⊢
  generalize members.filter (·.1 == key) = before at hf hfilter
  generalize members'.filter (·.1 == key) = behind at hfilter
  cases hfilter with
  | nil =>
    cases hf
    exact ⟨none, rfl, .none⟩
  | cons hm hrest =>
    cases hrest with
    | nil =>
      cases hf
      exact ⟨_, rfl, .some hm.2⟩
    | cons hm' hrest' => cases hf

theorem required_carried {members members' : List (String × Value)}
    (h : SameMembers members members') {key : String} {decode : Value → Except String α} {v : Value}
    (hf : field key members = .ok (some v)) (hv : ∀ v', v.Alike v' → decode v' = decode v) :
    required key decode members' = decode v := by
  obtain ⟨answer, ha, hrel⟩ := field_carried h key hf
  cases hrel with
  | some hlike =>
    unfold required
    rw [ha]
    exact hv _ hlike

theorem optional_carried {members members' : List (String × Value)}
    (h : SameMembers members members') {key : String} (decode : Value → Except String α) {v : Value}
    (hf : field key members = .ok (some v)) :
    ∃ v', v.Alike v' ∧ optional key decode members' = nullable decode v' := by
  obtain ⟨answer, ha, hrel⟩ := field_carried h key hf
  cases hrel with
  | @some _ v' hlike =>
    refine ⟨v', hlike, ?_⟩
    unfold optional
    rw [ha]
    rfl

theorem optional_absent {members members' : List (String × Value)}
    (h : SameMembers members members') {key : String} (decode : Value → Except String α)
    (hf : field key members = .ok none) : optional key decode members' = .ok none := by
  obtain ⟨answer, ha, hrel⟩ := field_carried h key hf
  cases hrel with
  | none =>
    unfold optional
    rw [ha]
    rfl

end Json
