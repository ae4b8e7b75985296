import Mathlib.Tactic.Common

/-!
# Fallible programs over a state

Programs are `EStateM ε σ`: they may fail, and a failure keeps the state changes
made before it. `attempt` turns a failure into a value, `zoom` runs a program on
a part of a larger state, and `Preserves` is the rule for a state predicate that
survives a program whether it fails or not.
-/

namespace StateProg

variable {ε σ τ α β : Type}

/-- The state in which a program ends, with success or with a failure. -/
def after (x : EStateM ε σ α) (s : σ) : σ :=
  match x s with
  | .ok _ s' => s'
  | .error _ s' => s'

/-- Run `x` and hand its outcome to the continuation; nothing is rolled back. -/
def attempt (x : EStateM ε σ α) : EStateM ε σ (Except ε α) := fun s =>
  match x s with
  | .ok a s' => .ok (.ok a) s'
  | .error e s' => .ok (.error e) s'

/-- Run `x` on the part of the state that `get` reads and `put` writes. -/
def zoom (get : τ → σ) (put : σ → τ → τ) (x : EStateM ε σ α) : EStateM ε τ α := fun t =>
  match x (get t) with
  | .ok a s => .ok a (put s t)
  | .error e s => .error e (put s t)

theorem after_ok {x : EStateM ε σ α} {s s' : σ} {a : α} (h : x s = .ok a s') :
    after x s = s' := by
  simp only [after, h]

theorem after_error {x : EStateM ε σ α} {s s' : σ} {e : ε} (h : x s = .error e s') :
    after x s = s' := by
  simp only [after, h]

theorem bind_ok {x : EStateM ε σ α} {f : α → EStateM ε σ β} {s s' : σ} {a : α}
    (h : x s = .ok a s') : (x >>= f) s = f a s' := by
  simp only [bind, EStateM.bind, h]

theorem bind_error {x : EStateM ε σ α} {f : α → EStateM ε σ β} {s s' : σ} {e : ε}
    (h : x s = .error e s') : (x >>= f) s = .error e s' := by
  simp only [bind, EStateM.bind, h]

theorem after_bind_ok {x : EStateM ε σ α} {f : α → EStateM ε σ β} {s s' : σ} {a : α}
    (h : x s = .ok a s') : after (x >>= f) s = after (f a) s' := by
  simp only [after, bind_ok h]

theorem attempt_ok {x : EStateM ε σ α} {s s' : σ} {a : α} (h : x s = .ok a s') :
    attempt x s = .ok (.ok a) s' := by
  simp only [attempt, h]

theorem attempt_error {x : EStateM ε σ α} {s s' : σ} {e : ε} (h : x s = .error e s') :
    attempt x s = .ok (.error e) s' := by
  simp only [attempt, h]

theorem zoom_ok {get : τ → σ} {put : σ → τ → τ} {x : EStateM ε σ α} {t : τ} {s : σ} {a : α}
    (h : x (get t) = .ok a s) : zoom get put x t = .ok a (put s t) := by
  simp only [zoom, h]

theorem after_zoom (get : τ → σ) (put : σ → τ → τ) (x : EStateM ε σ α) (t : τ) :
    after (zoom get put x) t = put (after x (get t)) t := by
  simp only [after, zoom]
  cases x (get t) <;> rfl

/-- What follows an attempt starts where the attempted program ends. -/
theorem attempt_bind (x : EStateM ε σ α) (y : EStateM ε σ β) (s : σ) :
    (attempt x >>= fun _ => y) s = y (after x s) := by
  cases h : x s with
  | ok a s' => rw [bind_ok (attempt_ok h), after_ok h]
  | error e s' => rw [bind_ok (attempt_error h), after_error h]

theorem after_attempt_bind (x : EStateM ε σ α) (y : EStateM ε σ β) (s : σ) :
    after (attempt x >>= fun _ => y) s = after y (after x s) := by
  unfold after
  rw [attempt_bind]
  rfl

/-- `x` succeeds from `s`, with a value and a state that satisfy `Q`. -/
def Returns (x : EStateM ε σ α) (s : σ) (Q : α → σ → Prop) : Prop :=
  ∃ a s', x s = .ok a s' ∧ Q a s'

theorem returns_of_ok {x : EStateM ε σ α} {s s' : σ} {a : α} {Q : α → σ → Prop}
    (h : x s = .ok a s') (hq : Q a s') : Returns x s Q := ⟨a, s', h, hq⟩

theorem returns_pure {s : σ} {a : α} {Q : α → σ → Prop} (h : Q a s) :
    Returns (pure a : EStateM ε σ α) s Q := ⟨a, s, rfl, h⟩

theorem Returns.bind {x : EStateM ε σ α} {f : α → EStateM ε σ β} {s : σ} {P : α → σ → Prop}
    {Q : β → σ → Prop} (hx : Returns x s P) (hf : ∀ a s', P a s' → Returns (f a) s' Q) :
    Returns (x >>= f) s Q := by
  obtain ⟨a, s', he, hp⟩ := hx
  obtain ⟨b, s'', he', hq⟩ := hf a s' hp
  exact ⟨b, s'', (bind_ok he).trans he', hq⟩

theorem returns_bind_ok {x : EStateM ε σ α} {f : α → EStateM ε σ β} {s s' : σ} {a : α}
    {Q : β → σ → Prop} (hx : x s = .ok a s') (hf : Returns (f a) s' Q) :
    Returns (x >>= f) s Q := by
  obtain ⟨b, s'', he, hq⟩ := hf
  exact ⟨b, s'', (bind_ok hx).trans he, hq⟩

/-- An attempt succeeds whatever becomes of the program it runs. -/
theorem returns_attempt {x : EStateM ε σ α} {s : σ} {P : σ → Prop} (h : P (after x s)) :
    Returns (attempt x) s fun _ s' => P s' := by
  cases hx : x s with
  | ok a s' =>
    rw [after_ok hx] at h
    exact ⟨_, s', attempt_ok hx, h⟩
  | error e s' =>
    rw [after_error hx] at h
    exact ⟨_, s', attempt_error hx, h⟩

theorem Returns.after {x : EStateM ε σ α} {s : σ} {P : σ → Prop}
    (hx : Returns x s fun _ s' => P s') : P (StateProg.after x s) := by
  obtain ⟨a, s', he, hp⟩ := hx
  rw [after_ok he]
  exact hp

/-- `P` holds after `x` whenever it holds before, also when `x` fails. -/
def Preserves (P : σ → Prop) (x : EStateM ε σ α) : Prop := ∀ s, P s → P (after x s)

theorem preserves_pure (P : σ → Prop) (a : α) : Preserves P (pure a : EStateM ε σ α) :=
  fun _ h => h

theorem preserves_bind {P : σ → Prop} {x : EStateM ε σ α} {f : α → EStateM ε σ β}
    (hx : Preserves P x) (hf : ∀ a, Preserves P (f a)) : Preserves P (x >>= f) := by
  intro s hs
  have h1 := hx s hs
  cases h : x s with
  | ok a s' =>
    rw [after_ok h] at h1
    have h2 := hf a s' h1
    simpa only [after, bind_ok h] using h2
  | error e s' =>
    rw [after_error h] at h1
    simpa only [after, bind_error h] using h1

theorem preserves_attempt {P : σ → Prop} {x : EStateM ε σ α} (hx : Preserves P x) :
    Preserves P (attempt x) := by
  intro s hs
  have h1 := hx s hs
  cases h : x s with
  | ok a s' =>
    rw [after_ok h] at h1
    simpa only [after, attempt_ok h] using h1
  | error e s' =>
    rw [after_error h] at h1
    simpa only [after, attempt_error h] using h1

theorem preserves_zoom {P : σ → Prop} {Q : τ → Prop} {get : τ → σ} {put : σ → τ → τ}
    {x : EStateM ε σ α} (hget : ∀ t, Q t → P (get t)) (hput : ∀ s t, Q t → P s → Q (put s t))
    (hx : Preserves P x) : Preserves Q (zoom get put x) := by
  intro t ht
  rw [after_zoom]
  exact hput _ t ht (hx _ (hget t ht))

theorem preserves_ite {P : σ → Prop} {c : Prop} [Decidable c] {x y : EStateM ε σ α}
    (hx : c → Preserves P x) (hy : ¬c → Preserves P y) :
    Preserves P (if c then x else y) := by
  split
  · next h => exact hx h
  · next h => exact hy h

/-- From the states of `P` the programs do the same, and end in one. -/
def SameOn (P : σ → Prop) (x y : EStateM ε σ α) : Prop := ∀ s, P s → x s = y s ∧ P (after y s)

theorem Preserves.same {P : σ → Prop} {x : EStateM ε σ α} (h : Preserves P x) : SameOn P x x :=
  fun s hs => ⟨rfl, h s hs⟩

theorem sameOn_bind {P : σ → Prop} {x y : EStateM ε σ α} {f g : α → EStateM ε σ β}
    (hx : SameOn P x y) (hf : ∀ a, SameOn P (f a) (g a)) : SameOn P (x >>= f) (y >>= g) := by
  intro s hs
  obtain ⟨he, hp⟩ := hx s hs
  cases hy : y s with
  | ok a s' =>
    rw [after_ok hy] at hp
    rw [bind_ok (he.trans hy), after_bind_ok hy, bind_ok hy]
    exact hf a s' hp
  | error e s' =>
    rw [after_error hy] at hp
    rw [bind_error (he.trans hy), after_error (bind_error hy), bind_error hy]
    exact ⟨rfl, hp⟩

theorem sameOn_attempt {P : σ → Prop} {x y : EStateM ε σ α} (h : SameOn P x y) :
    SameOn P (attempt x) (attempt y) := by
  intro s hs
  obtain ⟨he, hp⟩ := h s hs
  cases hy : y s with
  | ok a s' =>
    rw [after_ok hy] at hp
    rw [attempt_ok (he.trans hy), after_ok (attempt_ok hy), attempt_ok hy]
    exact ⟨rfl, hp⟩
  | error e s' =>
    rw [after_error hy] at hp
    rw [attempt_error (he.trans hy), after_ok (attempt_error hy), attempt_error hy]
    exact ⟨rfl, hp⟩

theorem sameOn_ite {P : σ → Prop} {c : Prop} [Decidable c] {x y x' y' : EStateM ε σ α}
    (hx : SameOn P x x') (hy : SameOn P y y') :
    SameOn P (if c then x else y) (if c then x' else y') := by
  split
  · exact hx
  · exact hy

end StateProg
