import NicAutoswitch.Engine.ExecutorInvariant

/-!
# Properties judged call by call

The executor's history lists each call with the state that it met. Where every call
keeps a property exactly if it meets some condition in that state, the property holds
at all calls of a run, and at its end, exactly if all calls have met the condition.
-/

namespace NicAutoswitch.Engine
open Router StateProg Transition

variable {κ : Type} {rt : Rtnetlink κ} {I P : ExecutorState κ → Prop}
  {C : ExecutorState κ → ExecutorCall → Prop}

/- The property holds in the state that each call of the history met. -/
def AtCalls (P : ExecutorState κ → Prop) : List (CallRecord κ) → Prop
  | [] => True
  | c :: older => P ⟨c.executor, c.kernel, older⟩ ∧ AtCalls P older

/- Each call of the history meets the condition in the state that it met. -/
def CallsMeet (C : ExecutorState κ → ExecutorCall → Prop) : List (CallRecord κ) → Prop
  | [] => True
  | c :: older => C ⟨c.executor, c.kernel, older⟩ c.call ∧ CallsMeet C older

theorem callsMeet_suffix {older newer : List (CallRecord κ)} (h : older <:+ newer)
    (hc : CallsMeet C newer) : CallsMeet C older := by
  induction newer with
  | nil =>
    rw [List.suffix_nil.mp h]
    trivial
  | cons c rest ih =>
    rcases List.suffix_cons_iff.mp h with rfl | hrest
    · exact hc
    · exact ih hrest hc.2

/- The call keeps what is known of every state, and it keeps the property exactly if it
meets the condition. -/
structure CallDecides (I P : ExecutorState κ → Prop) (C : ExecutorState κ → ExecutorCall → Prop)
    (s s' : ExecutorState κ) (call : ExecutorCall) : Prop where
  history : ∃ ok, s'.history = ⟨call, s.executor, s.kernel, ok⟩ :: s.history
  keeps : I s'
  decides : P s → (P s' ↔ C s call)

structure CallsDecide (rt : Rtnetlink κ) (I P : ExecutorState κ → Prop)
    (C : ExecutorState κ → ExecutorCall → Prop) : Prop where
  apply : ∀ rule t s, I s →
    CallDecides I P C s (after (RuleExecutor.applyRule rt rule 0 t) s) (.applyRule rule t)
  remove : ∀ rule t s, I s →
    CallDecides I P C s (after (RuleExecutor.removeRule rt rule t) s) (.removeRule rule t)
  cleanup : ∀ s, I s → CallDecides I P C s (after (Dispatch.sweepStaleTables rt) s) .cleanup

/- A relation that every deciding call keeps is kept by the calls. -/
theorem callsKeep_of_decides (h : CallsDecide rt I P C) {Q : ExecutorState κ → Prop}
    (hI : ∀ s, Q s → I s) (hQ : ∀ s s' call, CallDecides I P C s s' call → Q s → Q s') :
    CallsKeep rt Q where
  apply rule t s hs := hQ s _ _ (h.apply rule t s (hI s hs)) hs
  remove rule t s hs := hQ s _ _ (h.remove rule t s (hI s hs)) hs
  cleanup s hs := hQ s _ _ (h.cleanup s (hI s hs)) hs

/- The invariant of the runs. -/
structure Judged (I P : ExecutorState κ → Prop) (C : ExecutorState κ → ExecutorCall → Prop)
    (s : ExecutorState κ) : Prop where
  known : I s
  exact : P s ∧ AtCalls P s.history ↔ CallsMeet C s.history

theorem judged_step {s s' : ExecutorState κ} {call : ExecutorCall}
    (hs : CallDecides I P C s s' call) (h : Judged I P C s) : Judged I P C s' := by
  obtain ⟨ok, hh⟩ := hs.history
  refine ⟨hs.keeps, ?_⟩
  have hpast := h.exact
  rw [hh]
  show P s' ∧ P s ∧ AtCalls P s.history ↔ C s call ∧ CallsMeet C s.history
  rw [← hpast]
  refine ⟨?_, ?_⟩
  · intro hx
    exact ⟨(hs.decides hx.2.1).mp hx.1, hx.2⟩
  · intro hx
    exact ⟨(hs.decides hx.2.1).mpr hx.1, hx.2⟩

theorem judged_run (h : CallsDecide rt I P C) {s : System κ} (hs : Judged I P C s.execState)
    {ops : List Dispatch.Op} (hops : ∀ op ∈ ops, op.Continues) :
    Judged I P C (run (Dispatch.perform rt) s ops).execState :=
  have hkeep := callsKeep_of_decides h (fun _ hx => hx.known) fun _ _ _ => judged_step
  run_invariant (Dispatch.perform rt) (fun s => Judged I P C s.execState)
    Dispatch.Op.Continues (fun _ _ hop hx => perform_keeps hkeep hop hx) s ops hops hs

/- The history only grows. -/
theorem history_grows (h : CallsDecide rt I P C) {s : System κ} (hs : I s.execState)
    {ops : List Dispatch.Op} (hops : ∀ op ∈ ops, op.Continues) :
    s.history <:+ (run (Dispatch.perform rt) s ops).history := by
  have hkeep : CallsKeep rt fun s' => I s' ∧ s.history <:+ s'.history := by
    refine callsKeep_of_decides h (fun _ hx => hx.1) fun s1 s2 call hd hx => ?_
    obtain ⟨ok, hh⟩ := hd.history
    rw [hh]
    exact ⟨hd.keeps, hx.2.trans (List.suffix_cons _ _)⟩
  have hinv := run_invariant (Dispatch.perform rt)
    (fun s' => I s'.execState ∧ s.history <:+ s'.execState.history) Dispatch.Op.Continues
    (fun _ _ hop hx => perform_keeps hkeep hop hx) s ops hops ⟨hs, List.suffix_rfl⟩
  exact hinv.2

/- The property holds at every call and at the end exactly if every call has met the
condition; then it holds after every operation. -/
theorem holds_iff_callsMeet (h : CallsDecide rt I P C) {s : System κ}
    (hs : Judged I P C s.execState) {ops : List Dispatch.Op} (hops : ∀ op ∈ ops, op.Continues) :
    (P (run (Dispatch.perform rt) s ops).execState ∧
          AtCalls P (run (Dispatch.perform rt) s ops).history ↔
        CallsMeet C (run (Dispatch.perform rt) s ops).history) ∧
      (CallsMeet C (run (Dispatch.perform rt) s ops).history →
        Throughout (Dispatch.perform rt) (fun s => P s.execState) s ops) := by
  refine ⟨(judged_run h hs hops).exact, fun hc pre hpre => ?_⟩
  obtain ⟨post, rfl⟩ := hpre
  have hpreops : ∀ op ∈ pre, op.Continues := fun op hop => hops op (List.mem_append_left _ hop)
  have hpostops : ∀ op ∈ post, op.Continues := fun op hop => hops op (List.mem_append_right _ hop)
  have hpoint := judged_run h hs hpreops
  have hgrow := history_grows h hpoint.known hpostops
  rw [← run_append] at hgrow
  exact (hpoint.exact.mpr (callsMeet_suffix hgrow hc)).1

end NicAutoswitch.Engine
