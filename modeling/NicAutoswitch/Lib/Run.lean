import Mathlib.Data.List.Infix

/-!
# Runs of a deterministic step function

A system is a step function `σ → ι → σ`; a run feeds it a list of inputs. A
property that must hold at every point of a run is related to a condition that
each step meets in the state before it.
-/

namespace Transition

variable {σ τ ι : Type*}

/-- The state after the inputs, taken in order from `s`. -/
def run (step : σ → ι → σ) (s : σ) (is : List ι) : σ := is.foldl step s

/-- `P` holds before the first input and after each of them. -/
def Throughout (step : σ → ι → σ) (P : σ → Prop) (s : σ) (is : List ι) : Prop :=
  ∀ pre, pre <+: is → P (run step s pre)

/-- Every step of the run meets `C`, judged in the state before that step. -/
def Along (step : σ → ι → σ) (C : σ → ι → Prop) : σ → List ι → Prop
  | _, [] => True
  | s, i :: is => C s i ∧ Along step C (step s i) is

/-- The inputs of a run that meet `p` in the state that they find, in their order. -/
def accepted (step : σ → ι → σ) (p : σ → ι → Bool) : σ → List ι → List ι
  | _, [] => []
  | s, i :: is =>
    if p s i then i :: accepted step p (step s i) is else accepted step p (step s i) is

/-- What the steps of a run give out, each judged in the state before it, in their order. -/
def emitted {ο : Type*} (step : σ → ι → σ) (out : σ → ι → List ο) : σ → List ι → List ο
  | _, [] => []
  | s, i :: is => out s i ++ emitted step out (step s i) is

instance decidableAlong (step : σ → ι → σ) (C : σ → ι → Prop) [∀ s i, Decidable (C s i)] :
    ∀ (s : σ) (is : List ι), Decidable (Along step C s is)
  | _, [] => inferInstanceAs (Decidable True)
  | s, i :: is =>
    have := decidableAlong step C (step s i) is
    inferInstanceAs (Decidable (C s i ∧ Along step C (step s i) is))

@[simp] theorem run_cons (step : σ → ι → σ) (s : σ) (i : ι) (is : List ι) :
    run step s (i :: is) = run step (step s i) is := rfl

theorem run_append (step : σ → ι → σ) (s : σ) (is js : List ι) :
    run step s (is ++ js) = run step (run step s is) js := List.foldl_append

theorem throughout_nil (step : σ → ι → σ) (P : σ → Prop) (s : σ) :
    Throughout step P s [] ↔ P s := by
  apply Iff.intro
  · intro h
    exact h [] List.nil_prefix
  · intro h pre hpre
    rw [List.prefix_nil.mp hpre]
    exact h

theorem throughout_cons (step : σ → ι → σ) (P : σ → Prop) (s : σ) (i : ι) (is : List ι) :
    Throughout step P s (i :: is) ↔ P s ∧ Throughout step P (step s i) is := by
  apply Iff.intro
  · intro h
    refine ⟨h [] List.nil_prefix, ?_⟩
    intro pre hpre
    exact h (i :: pre) (List.cons_prefix_cons.mpr ⟨rfl, hpre⟩)
  · rintro ⟨h0, h1⟩ pre hpre
    cases pre with
    | nil => exact h0
    | cons j pre =>
      obtain ⟨hj, hp⟩ := List.cons_prefix_cons.mp hpre
      subst hj
      exact h1 pre hp

theorem along_append (step : σ → ι → σ) (C : σ → ι → Prop) (s : σ) (is js : List ι) :
    Along step C s (is ++ js) ↔ Along step C s is ∧ Along step C (run step s is) js := by
  induction is generalizing s with
  | nil => exact (and_iff_right trivial).symm
  | cons i is ih => exact (and_congr_right fun _ => ih (step s i)).trans and_assoc.symm

/-- Conditions that agree on every step agree along a run. -/
theorem along_congr (step : σ → ι → σ) {C C' : σ → ι → Prop} (h : ∀ s i, C s i ↔ C' s i)
    (s : σ) (is : List ι) : Along step C s is ↔ Along step C' s is := by
  induction is generalizing s with
  | nil => exact Iff.rfl
  | cons i is ih => exact and_congr (h s i) (ih (step s i))

/-- A condition on the inputs alone. -/
theorem along_const (step : σ → ι → σ) (C : ι → Prop) (s : σ) (is : List ι) :
    Along step (fun _ => C) s is ↔ ∀ i ∈ is, C i := by
  induction is generalizing s with
  | nil => exact iff_of_true trivial fun i hi => by cases hi
  | cons i is ih =>
    rw [List.forall_mem_cons]
    exact and_congr_right fun _ => ih (step s i)

/-- Conditions that follow from an invariant hold along every run. -/
theorem along_of_invariant (step : σ → ι → σ) (I : σ → Prop) (C : σ → ι → Prop)
    (hI : ∀ s i, I s → I (step s i)) (hC : ∀ s i, I s → C s i) (s : σ) (is : List ι) (h0 : I s) :
    Along step C s is := by
  induction is generalizing s with
  | nil => trivial
  | cons i is ih => exact ⟨hC s i h0, ih (step s i) (hI s i h0)⟩

/-- An invariant of the steps taken from the allowed inputs is one of the run. -/
theorem run_invariant (step : σ → ι → σ) (I : σ → Prop) (A : ι → Prop)
    (hs : ∀ s i, A i → I s → I (step s i)) (s : σ) (is : List ι)
    (hA : ∀ i ∈ is, A i) (h0 : I s) : I (run step s is) := by
  induction is generalizing s with
  | nil => exact h0
  | cons i is ih =>
    exact ih (step s i) (fun j hj => hA j (List.mem_cons_of_mem i hj))
      (hs s i (hA i List.mem_cons_self) h0)

/-- Two systems that take the same step from every state of an invariant run alike. -/
theorem run_congr {step step' : σ → ι → σ} (I : σ → Prop) (A : ι → Prop)
    (hI : ∀ s i, A i → I s → I (step' s i)) (hs : ∀ s i, A i → I s → step s i = step' s i) (s : σ)
    (is : List ι) (hA : ∀ i ∈ is, A i) (h0 : I s) : run step s is = run step' s is := by
  induction is generalizing s with
  | nil => rfl
  | cons i is ih =>
    obtain ⟨hi, his⟩ := List.forall_mem_cons.mp hA
    rw [run_cons, run_cons, hs s i hi h0]
    exact ih (step' s i) his (hI s i hi h0)

/-- An invariant of every step is one of the run. -/
theorem run_preserves (step : σ → ι → σ) (I : σ → Prop) (hs : ∀ s i, I s → I (step s i)) (s : σ)
    (is : List ι) (h0 : I s) : I (run step s is) :=
  run_invariant step I (fun _ => True) (fun s i _ h => hs s i h) s is (fun _ _ => trivial) h0

theorem throughout_of_invariant (step : σ → ι → σ) (I : σ → Prop) (A : ι → Prop)
    (hs : ∀ s i, A i → I s → I (step s i)) (s : σ) (is : List ι) (hA : ∀ i ∈ is, A i) (h0 : I s) :
    Throughout step I s is :=
  fun pre hpre => run_invariant step I A hs s pre (fun i hi => hA i (hpre.subset hi)) h0

/-- Where an input that is not accepted leaves the projection alone, the projected run is the
run of the accepted inputs. -/
theorem run_accepted (step : σ → ι → σ) (p : σ → ι → Bool) (π : σ → τ) (f : τ → ι → τ)
    (hs : ∀ s i, π (step s i) = if p s i then f (π s) i else π s) (s : σ) (is : List ι) :
    π (run step s is) = run f (π s) (accepted step p s is) := by
  induction is generalizing s with
  | nil => rfl
  | cons i is ih =>
    have hstep := hs s i
    rw [run_cons, ih, hstep, accepted]
    split_ifs <;> rfl

/-- Where an input that meets `p` overwrites what is read, and the others leave it, a run leaves
the value of the last such input. `I` carries what is known of every state. -/
theorem run_last {β : Type*} (step : σ → ι → σ) (read : σ → Option β) (p : ι → Bool) (v : ι → β)
    (I : σ → Prop) (hI : ∀ s i, I s → I (step s i))
    (hs : ∀ s i, I s → read (step s i) = if p i then some (v i) else read s) (s : σ)
    (is : List ι) (h0 : I s) :
    read (run step s is) = ((is.reverse.find? p).map v).or (read s) := by
  induction is generalizing s with
  | nil => rfl
  | cons i is ih =>
    have hstep := hs s i h0
    rw [run_cons, ih (step s i) (hI s i h0), hstep, List.reverse_cons, List.find?_append,
      Option.map_or, Option.or_assoc, List.find?_singleton]
    split_ifs <;> rfl

/-- Where a step leaves its input done, and steps keep what is done, a run leaves all of
its inputs done. -/
theorem run_settles (step : σ → ι → σ) (D : σ → ι → Prop) (hd : ∀ s i, D (step s i) i)
    (hk : ∀ s i j, D s i → D (step s j) i) (s : σ) (is : List ι) :
    ∀ i ∈ is, D (run step s is) i := by
  induction is generalizing s with
  | nil => intro i hi; cases hi
  | cons j is ih =>
    intro i hi
    rcases List.mem_cons.mp hi with rfl | hmem
    · exact run_preserves step (fun s => D s i) (fun s j h => hk s i j h) (step s i) is (hd s i)
    · exact ih (step s j) i hmem

/-- Where a step on an input that is done changes nothing, up to the relation, neither does a
run on inputs that are done. -/
theorem run_still (step : σ → ι → σ) (R : σ → σ → Prop) (hr : ∀ s, R s s)
    (ht : ∀ a b c, R a b → R b c → R a c) (D : σ → ι → Prop)
    (hk : ∀ s i j, D s i → D (step s j) i) (hs : ∀ s i, D s i → R s (step s i)) (s : σ)
    (is : List ι) (h : ∀ i ∈ is, D s i) : R s (run step s is) := by
  induction is generalizing s with
  | nil => exact hr s
  | cons i is ih =>
    have hi := h i List.mem_cons_self
    exact ht s _ _ (hs s i hi)
      (ih (step s i) fun j hj => hk s j i (h j (List.mem_cons_of_mem i hj)))

/-- Where inputs that do not meet `p` leave related states related, and the others take related
states to related ones, a run is related to the run of the inputs that meet `p`. -/
theorem run_purge (step : σ → ι → σ) (R : σ → σ → Prop) (p : ι → Bool)
    (hs : ∀ s t i, p i = true → R s t → R (step s i) (step t i))
    (hi : ∀ s t i, p i = false → R s t → R (step s i) t) (s t : σ) (is : List ι) (h : R s t) :
    R (run step s is) (run step t (is.filter p)) := by
  induction is generalizing s t with
  | nil => exact h
  | cons i is ih =>
    rw [run_cons]
    cases hp : p i with
    | true =>
      rw [List.filter_cons_of_pos hp]
      exact ih (step s i) (step t i) (hs s t i hp h)
    | false =>
      rw [List.filter_cons_of_neg (Bool.eq_false_iff.mp hp)]
      exact ih (step s i) t (hi s t i hp h)

/-- A measure that each input that meets `p` lowers, and that no other input raises, is used up
after as many of these inputs. -/
theorem run_exhausts (step : σ → ι → σ) (p : ι → Bool) (m : σ → ℕ) (I : σ → Prop)
    (hI : ∀ s i, I s → I (step s i)) (hp : ∀ s i, I s → p i = true → m (step s i) ≤ m s - 1)
    (hn : ∀ s i, I s → p i = false → m (step s i) ≤ m s) (s : σ) (is : List ι) (h0 : I s) :
    m (run step s is) ≤ m s - is.countP p := by
  induction is generalizing s with
  | nil => exact le_refl (m s)
  | cons i is ih =>
    have hrest := ih (step s i) (hI s i h0)
    rw [run_cons]
    cases hpi : p i with
    | true =>
      have hstep := hp s i h0 hpi
      rw [List.countP_cons_of_pos hpi]
      omega
    | false =>
      have hstep := hn s i h0 hpi
      rw [List.countP_cons_of_neg (Bool.eq_false_iff.mp hpi)]
      omega

/-- The step rule: a property that every conforming step keeps holds throughout
a run whose steps all conform. -/
theorem throughout_of_along (step : σ → ι → σ) (P : σ → Prop) (C : σ → ι → Prop)
    (hs : ∀ s i, P s → C s i → P (step s i)) (s : σ) (is : List ι) (h0 : P s)
    (hc : Along step C s is) : Throughout step P s is := by
  induction is generalizing s with
  | nil => exact (throughout_nil step P s).mpr h0
  | cons i is ih =>
    exact (throughout_cons step P s i is).mpr ⟨h0, ih (step s i) (hs s i h0 hc.1) hc.2⟩

/-- The exact form: where one step keeps the property if and only if it meets
the condition, the property holds throughout exactly the conforming runs. `I` carries what is
known of every state, `A` is what is assumed of each step. -/
theorem throughout_iff_along_of_along (step : σ → ι → σ) (I P : σ → Prop) (C A : σ → ι → Prop)
    (hI : ∀ s i, A s i → I s → I (step s i))
    (hs : ∀ s i, A s i → I s → P s → (P (step s i) ↔ C s i)) (s : σ) (is : List ι)
    (hA : Along step A s is) (hi : I s) (h0 : P s) :
    Throughout step P s is ↔ Along step C s is := by
  induction is generalizing s with
  | nil => exact iff_of_true ((throughout_nil step P s).mpr h0) trivial
  | cons i is ih =>
    obtain ⟨ha, hrest⟩ := hA
    have hstep := hs s i ha hi h0
    rw [throughout_cons]
    apply Iff.intro
    · rintro ⟨_, h⟩
      have hp : P (step s i) := h [] List.nil_prefix
      exact ⟨hstep.mp hp, (ih (step s i) hrest (hI s i ha hi) hp).mp h⟩
    · rintro ⟨hc, h⟩
      exact ⟨h0, (ih (step s i) hrest (hI s i ha hi) (hstep.mpr hc)).mpr h⟩

/-- The exact form where nothing is assumed of the inputs. -/
theorem throughout_iff_along (step : σ → ι → σ) (I P : σ → Prop) (C : σ → ι → Prop)
    (hI : ∀ s i, I s → I (step s i)) (hs : ∀ s i, I s → P s → (P (step s i) ↔ C s i)) (s : σ)
    (is : List ι) (hi : I s) (h0 : P s) : Throughout step P s is ↔ Along step C s is :=
  throughout_iff_along_of_along step I P C (fun _ _ => True) (fun s i _ => hI s i)
    (fun s i _ => hs s i) s is
    ((along_const step (fun _ => True) s is).mpr fun _ _ => trivial) hi h0

/-- A property that no step establishes holds throughout if it holds at the end. -/
theorem throughout_of_run (step : σ → ι → σ) (P : σ → Prop) (A : σ → ι → Prop)
    (hb : ∀ s i, A s i → P (step s i) → P s) (s : σ) (is : List ι) (hA : Along step A s is)
    (h : P (run step s is)) : Throughout step P s is := by
  induction is generalizing s with
  | nil => exact (throughout_nil step P s).mpr h
  | cons i is ih =>
    have hrest := ih (step s i) hA.2 h
    exact (throughout_cons step P s i is).mpr ⟨hb s i hA.1 (hrest [] List.nil_prefix), hrest⟩

/-- Forward simulation with stuttering: where each step of the concrete system is matched by the
steps of the abstract one on what it gives out, a run is matched by the run on all of that. -/
theorem run_emitted {ο : Type*} (step : σ → ι → σ) (step' : τ → ο → τ) (out : σ → ι → List ο)
    (R : σ → τ → Prop) (A : σ → ι → Prop)
    (hs : ∀ s t i, A s i → R s t → R (step s i) (run step' t (out s i))) (s : σ) (t : τ)
    (is : List ι) (hA : Along step A s is) (h : R s t) :
    R (run step s is) (run step' t (emitted step out s is)) := by
  induction is generalizing s t with
  | nil => exact h
  | cons i is ih =>
    rw [run_cons, emitted, run_append]
    exact ih (step s i) _ hA.2 (hs s t i hA.1 h)

theorem emitted_append {ο : Type*} (step : σ → ι → σ) (out : σ → ι → List ο) (s : σ)
    (is js : List ι) :
    emitted step out s (is ++ js) = emitted step out s is ++ emitted step out (run step s is) js := by
  induction is generalizing s with
  | nil => rfl
  | cons i is ih =>
    rw [List.cons_append, emitted, ih, emitted, List.append_assoc]
    rfl

/-- Forward simulation along a projection: a run of the concrete system projects
to the run of the abstract one. -/
theorem run_simulates (step : σ → ι → σ) (step' : τ → ι → τ) (π : σ → τ) (I : τ → Prop)
    (hI : ∀ t i, I t → I (step' t i)) (hs : ∀ s i, I (π s) → π (step s i) = step' (π s) i) (s : σ)
    (is : List ι) (hi : I (π s)) : π (run step s is) = run step' (π s) is := by
  induction is generalizing s with
  | nil => rfl
  | cons i is ih =>
    have he := hs s i hi
    rw [run_cons, run_cons, ← he]
    exact ih (step s i) (by rw [he]; exact hI (π s) i hi)

end Transition
