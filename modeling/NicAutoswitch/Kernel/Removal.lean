import NicAutoswitch.Engine.ActiveRoutes
import NicAutoswitch.Engine.Handlers
import NicAutoswitch.Kernel.Calls

/-!
# Removing the routes of a lost interface

The handler removes one rule for each active route via the interface. On the plain kernel
the delete of an absent policy rule is answered with ENOENT, which is tolerated, and that
of an absent route with ESRCH, which is not. A delete of a route names no metric, so that
it takes the route of lowest metric.
-/

namespace NicAutoswitch.Kernel.Removal
open HashMaps Schema Monitor Router StateProg Engine Transition

variable {env : Env} {rm : RouteManager} {rt : Rtnetlink KernelState}

/-! ### One rule -/

theorem removeRule_present (hl : Live rm) (hq : Quiet env) {rule : RouteRule} {d : IpNetwork}
    {t : ℕ} {k : KernelState} {x : Route} (hd : RuleOperator.target? rule = some d)
    (ht : t ≤ 255) (hx : k.pick t d none none = some x) :
    RuleOperator.removeRule env.plain rm rule t k =
      .ok () (((k.dropRule ⟨d, t, rule.priority⟩).tick.dropRoute x).tick) := by
  have h1 := removePolicyRule_passes hl d rule.priority ht (hq k.clock)
  have h2 := removeRoute_passes hl ht (hq (k.dropRule ⟨d, t, rule.priority⟩).tick.clock) hx
  rw [RuleOperator.removeRule, RuleOperator.getDestination_ok.mpr hd]
  exact (bind_ok h1).trans h2

theorem removeRule_absent (env : Env) (hl : Live rm) (hq : Quiet env) {rule : RouteRule} {d : IpNetwork}
    {t : ℕ} {k : KernelState} (hd : RuleOperator.target? rule = some d) (ht : t ≤ 255)
    (hx : k.pick t d none none = none) :
    ∃ err, RuleOperator.removeRule env.plain rm rule t k =
      .error err (k.dropRule ⟨d, t, rule.priority⟩).tick.tick := by
  have h1 := removePolicyRule_passes hl d rule.priority ht (hq k.clock)
  obtain ⟨err, h2⟩ := removeRoute_absent hl ht
    (hq (k.dropRule ⟨d, t, rule.priority⟩).tick.clock) hx
  rw [RuleOperator.removeRule, RuleOperator.getDestination_ok.mpr hd]
  exact ⟨err, (bind_ok h1).trans h2⟩

/- The state after the executor has removed the rule. -/
def removedState (s : ExecutorState KernelState) (rule : RouteRule) (d : IpNetwork) (t : ℕ)
    (x : Route) : ExecutorState KernelState where
  executor := s.executor.untrackActiveRoute rule.name
  kernel := ((s.kernel.dropRule ⟨d, t, rule.priority⟩).tick.dropRoute x).tick
  history := ⟨.removeRule rule t, s.executor, s.kernel, true⟩ :: s.history

theorem executor_present {s : ExecutorState KernelState} (hl : Live s.executor.routeManager)
    (hq : Quiet env) {rule : RouteRule} {d : IpNetwork} {t : ℕ} {x : Route}
    (hd : RuleOperator.target? rule = some d) (ht : t ≤ 255)
    (hx : s.kernel.pick t d none none = some x) :
    RuleExecutor.removeRule env.plain rule t s = .ok () (removedState s rule d t x) := by
  exact RuleExecutor.removeRule_ok (removeRule_present hl hq hd ht hx)

/- The failed removal has deleted the policy rule all the same. -/
theorem executor_absent {s : ExecutorState KernelState} (hl : Live s.executor.routeManager)
    (hq : Quiet env) {rule : RouteRule} {d : IpNetwork} {t : ℕ}
    (hd : RuleOperator.target? rule = some d) (ht : t ≤ 255)
    (hx : s.kernel.pick t d none none = none) :
    ∃ err, RuleExecutor.removeRule env.plain rule t s = .error err
      { executor := s.executor
        kernel := (s.kernel.dropRule ⟨d, t, rule.priority⟩).tick.tick
        history := ⟨.removeRule rule t, s.executor, s.kernel, false⟩ :: s.history } := by
  obtain ⟨err, hk⟩ := removeRule_absent env hl hq hd ht hx
  exact ⟨err, RuleExecutor.removeRule_error hk⟩

/-! ### The loop over the routes of a link -/

/- The destination of the rule under a name. -/
def destination? (rules : HashMap String RouteRule) (n : String) : Option IpNetwork :=
  (rules.lookup n).bind RuleOperator.target?

/- The entry's rule is known, can be installed, and its table fits the netlink header. -/
def Due (rules : HashMap String RouteRule) (e : String × ℕ) : Prop :=
  (destination? rules e.1).isSome ∧ e.2 ≤ 255

/- The entries that need a route to the destination in the table for their removal. -/
def needed (rules : HashMap String RouteRule) (todo : List (String × ℕ)) (t : ℕ)
    (d : IpNetwork) : ℕ :=
  todo.countP fun e => e.2 = t ∧ destination? rules e.1 = some d

/- The routes to the destination in the table. -/
def remaining (k : KernelState) (t : ℕ) (d : IpNetwork) : ℕ :=
  k.routes.countP fun r => r.table = t ∧ r.destination = d

theorem remaining_none {k : KernelState} {t : ℕ} {d : IpNetwork}
    (h : k.pick t d none none = none) : remaining k t d = 0 := by
  rw [KernelState.pick_none] at h
  unfold remaining
  rw [List.countP_eq_zero]
  intro r hr hp
  obtain ⟨ht, hd⟩ := of_decide_eq_true hp
  exact h r hr ⟨ht, hd, rfl, rfl⟩

theorem remaining_taken {k k' : KernelState} {x : Route} (hx : x ∈ k.routes)
    (h : k'.routes = k.routes.erase x) (t : ℕ) (d : IpNetwork) :
    remaining k t d = remaining k' t d + if x.table = t ∧ x.destination = d then 1 else 0 := by
  have hp := List.perm_cons_erase hx
  unfold remaining
  rw [hp.countP_eq, h, List.countP_cons]
  simp only [decide_eq_true_eq]

theorem needed_cons (rules : HashMap String RouteRule) (e : String × ℕ) (rest : List (String × ℕ))
    (t : ℕ) (d : IpNetwork) : needed rules (e :: rest) t d =
      needed rules rest t d + if e.2 = t ∧ destination? rules e.1 = some d then 1 else 0 := by
  unfold needed
  rw [List.countP_cons]
  simp only [decide_eq_true_eq]

section Loop

variable {rules : HashMap String RouteRule} (hrules : ∀ n r, rules.lookup n = some r → r.name = n)
include hrules

/- One round takes a route and untracks the entry, or finds no route and does neither. -/
theorem removeOne_cases {s : System KernelState} {e : String × ℕ} {d : IpNetwork}
    (hl : Live s.dispatcher.executor.routeManager) (hq : Quiet env)
    (hd : destination? rules e.1 = some d) (ht : e.2 ≤ 255) :
    (∃ x, s.kernel.pick e.2 d none none = some x ∧
        (removeOne env.plain rules s e).kernel.routes = s.kernel.routes.erase x ∧
        (removeOne env.plain rules s e).dispatcher =
          s.dispatcher.mapExecutor (·.untrackActiveRoute e.1)) ∨
      s.kernel.pick e.2 d none none = none ∧
        (removeOne env.plain rules s e).kernel.routes = s.kernel.routes ∧
        (removeOne env.plain rules s e).dispatcher = s.dispatcher := by
  obtain ⟨rule, hr, htarget⟩ := Option.bind_eq_some_iff.mp hd
  have hn := hrules e.1 rule hr
  unfold removeOne
  rw [hr]
  cases hx : s.kernel.pick e.2 d none none with
  | some x =>
    have he := executor_present (s := s.execState) hl hq htarget ht hx
    refine Or.inl ⟨x, rfl, ?_, ?_⟩
    · simp only [after_ok he]
      rfl
    · simp only [after_ok he, ← hn]
      rfl
  | none =>
    obtain ⟨err, he⟩ := executor_absent (s := s.execState) hl hq htarget ht hx
    refine Or.inr ⟨rfl, ?_, ?_⟩
    · simp only [after_error he]
      rfl
    · simp only [after_error he]
      rfl

/- One round untracks the entry or leaves the dispatcher alone. -/
theorem removeOne_dispatcher {s : System KernelState} (e : String × ℕ)
    (hl : Live s.dispatcher.executor.routeManager) (hq : Quiet env) :
    (removeOne env.plain rules s e).dispatcher = s.dispatcher ∨
      Due rules e ∧ (removeOne env.plain rules s e).dispatcher =
        s.dispatcher.mapExecutor (·.untrackActiveRoute e.1) := by
  by_cases he : Due rules e
  · obtain ⟨d, hd⟩ := Option.isSome_iff_exists.mp he.1
    rcases removeOne_cases hrules hl hq hd he.2 with ⟨_, _, _, hdisp⟩ | ⟨_, _, hdisp⟩
    · exact Or.inr ⟨he, hdisp⟩
    · exact Or.inl hdisp
  · refine Or.inl ?_
    unfold removeOne
    cases hr : rules.lookup e.1 with
    | none => rfl
    | some rule =>
      have hw : ¬ ((RuleOperator.target? rule).isSome ∧ e.2 ≤ 255) := by
        intro hw
        refine he ⟨?_, hw.2⟩
        rw [destination?, hr]
        exact hw.1
      simp only [remove_rejected (s := s.execState) hl hw]
      rfl

theorem removeOne_manager {s : System KernelState} (e : String × ℕ)
    (hl : Live s.dispatcher.executor.routeManager) (hq : Quiet env) :
    (removeOne env.plain rules s e).dispatcher.executor.routeManager =
      s.dispatcher.executor.routeManager := by
  rcases removeOne_dispatcher hrules e hl hq with hdisp | ⟨_, hdisp⟩
  · rw [hdisp]
  · rw [hdisp]
    rfl

theorem removeOne_other {s : System KernelState} {e : String × ℕ} {n : String}
    (hl : Live s.dispatcher.executor.routeManager) (hq : Quiet env) (hn : n ≠ e.1) :
    (removeOne env.plain rules s e).dispatcher.activeRoute n = s.dispatcher.activeRoute n := by
  rcases removeOne_dispatcher hrules e hl hq with hdisp | ⟨_, hdisp⟩
  · rw [hdisp]
  · rw [hdisp]
    exact AList.lookup_erase_ne hn

/- The loop leaves the names that it does not work on. -/
theorem removeLoop_other {todo : List (String × ℕ)} {s : System KernelState} {n : String}
    (hl : Live s.dispatcher.executor.routeManager) (hq : Quiet env)
    (hn : n ∉ todo.map Prod.fst) :
    (run (removeOne env.plain rules) s todo).dispatcher.activeRoute n = s.dispatcher.activeRoute n := by
  induction todo generalizing s with
  | nil => rfl
  | cons e rest ih =>
    rw [List.map_cons, List.mem_cons, not_or] at hn
    have hm := removeOne_manager hrules e hl hq
    have h1 := removeOne_other hrules hl hq hn.1
    rw [run_cons, ← h1]
    exact ih (hm ▸ hl) hn.2

/- An entry whose rule is not known or cannot be removed stays. -/
theorem removeLoop_undue {todo : List (String × ℕ)} {s : System KernelState} {e : String × ℕ}
    (hl : Live s.dispatcher.executor.routeManager) (hq : Quiet env)
    (hn : (todo.map Prod.fst).Nodup) (he : e ∈ todo) (hdue : ¬ Due rules e) :
    (run (removeOne env.plain rules) s todo).dispatcher.activeRoute e.1 =
      s.dispatcher.activeRoute e.1 := by
  induction todo generalizing s with
  | nil => cases he
  | cons e' rest ih =>
    rw [List.map_cons, List.nodup_cons] at hn
    have hl' : Live (removeOne env.plain rules s e').dispatcher.executor.routeManager :=
      removeOne_manager hrules e' hl hq ▸ hl
    rw [run_cons]
    rcases List.mem_cons.mp he with rfl | hrest
    · have hdisp := (removeOne_dispatcher hrules e hl hq).resolve_right fun h => hdue h.1
      rw [removeLoop_other hrules hl' hq hn.1, hdisp]
    · have hne : e.1 ≠ e'.1 := fun h => hn.1 (h ▸ List.mem_map_of_mem hrest)
      rw [ih hl' hn.2 hrest, removeOne_other hrules hl hq hne]

/- All entries are untracked exactly where each finds a route to take. -/
theorem cleared_iff {todo : List (String × ℕ)} {s : System KernelState}
    (hl : Live s.dispatcher.executor.routeManager) (hq : Quiet env)
    (hdue : ∀ e ∈ todo, Due rules e) (hn : (todo.map Prod.fst).Nodup)
    (hactive : ∀ e ∈ todo, s.dispatcher.activeRoute e.1 ≠ none) :
    (∀ e ∈ todo, (run (removeOne env.plain rules) s todo).dispatcher.activeRoute e.1 = none) ↔
      ∀ t d, needed rules todo t d ≤ remaining s.kernel t d := by
  induction todo generalizing s with
  | nil => simp [needed]
  | cons e rest ih =>
    have he := hdue e List.mem_cons_self
    have hdue' : ∀ x ∈ rest, Due rules x := fun x hx => hdue x (List.mem_cons_of_mem e hx)
    obtain ⟨d, hd⟩ := Option.isSome_iff_exists.mp he.1
    rw [List.map_cons, List.nodup_cons] at hn
    have hm := removeOne_manager hrules e hl hq
    have hl' : Live (removeOne env.plain rules s e).dispatcher.executor.routeManager := hm ▸ hl
    have hself := removeLoop_other hrules hl' hq hn.1
    have hactive' : ∀ x ∈ rest, (removeOne env.plain rules s e).dispatcher.activeRoute x.1 ≠ none := by
      intro x hx
      have hne : x.1 ≠ e.1 := fun h => hn.1 (h ▸ List.mem_map_of_mem hx)
      rw [removeOne_other hrules hl hq hne]
      exact hactive x (List.mem_cons_of_mem e hx)
    have hrest := ih hl' hdue' hn.2 hactive'
    simp only [run_cons, List.forall_mem_cons, needed_cons]
    rw [hself, hrest]
    rcases removeOne_cases hrules hl hq hd he.2 with hx | hx
    · -- the entry takes one of the routes that it needs, and the others' routes stay
      obtain ⟨x, hx, hroutes, hdisp⟩ := hx
      obtain ⟨hxm, hxt, hxd, _, _⟩ := KernelState.pick_some hx
      have hgone : (removeOne env.plain rules s e).dispatcher.activeRoute e.1 = none := by
        rw [hdisp]
        exact AList.lookup_erase _ _
      have hsame : ∀ t d', (e.2 = t ∧ destination? rules e.1 = some d') ↔
          (x.table = t ∧ x.destination = d') := by
        intro t d'
        rw [hxt, hxd, hd, Option.some_inj]
      simp only [hgone, true_and, remaining_taken hxm hroutes, hsame, Nat.add_le_add_iff_right]
    · -- no route is left for the entry, and it stays
      obtain ⟨hx, _, hdisp⟩ := hx
      rw [hdisp]
      refine iff_of_false (fun h => hactive e List.mem_cons_self h.1) (fun h => ?_)
      have hle := h e.2 d
      rw [remaining_none hx, if_pos ⟨rfl, hd⟩] at hle
      omega

/- The loop records nothing. -/
theorem removeLoop_shrinks {todo : List (String × ℕ)} {s : System KernelState} {n : String}
    {a : ActiveRoute} (hl : Live s.dispatcher.executor.routeManager) (hq : Quiet env)
    (h : (run (removeOne env.plain rules) s todo).dispatcher.activeRoute n = some a) :
    s.dispatcher.activeRoute n = some a := by
  induction todo generalizing s with
  | nil => exact h
  | cons e rest ih =>
    have hm := removeOne_manager hrules e hl hq
    have h1 := ih (hm ▸ hl) h
    rcases removeOne_dispatcher hrules e hl hq with hdisp | ⟨_, hdisp⟩
    · rw [hdisp] at h1
      exact h1
    · rw [hdisp] at h1
      have h2 := lookup_erase_eq_ite s.dispatcher.executor.activeRoutes e.1 n
      rw [show (s.dispatcher.executor.activeRoutes.erase e.1).lookup n = some a from h1] at h2
      split_ifs at h2
      exact h2.symm

end Loop

/-! ### A link that goes down -/

def NoneVia (i : String) (d : EventDispatcher) : Prop :=
  ∀ n a, d.activeRoute n = some a → a.interface ≠ i

/- A link that is removed is handled as one that goes down. -/
theorem perform_lost (order : RouteOrder) (i : String) {change : InterfaceChange}
    (hc : change = .down ∨ change = .removed) {s : System KernelState}
    (hr : s.dispatcher.state = .running) :
    Dispatch.perform rt s (.handleEvent order (.interfaceChanged i change)) =
      run (removeOne rt (EventDispatcher.rulesMap s.dispatcher.config))
        (observed (.interfaceChanged i change) s)
        (EventDispatcher.dependentRoutes order s.dispatcher.executor.activeRoutes i) := by
  show after (Dispatch.handleEvent rt order _) s = _
  rw [handleEvent_after rt order _ hr]
  rcases hc with rfl | rfl <;> rfl

/- The routes that the Down event asks for, of the active routes via the interface. -/
def demand (order : RouteOrder) (d : EventDispatcher) (i : String) : ℕ → IpNetwork → ℕ :=
  needed (EventDispatcher.rulesMap d.config)
    (EventDispatcher.dependentRoutes order d.executor.activeRoutes i)

theorem active_dependentRoutes (order : RouteOrder) (d : EventDispatcher) (i : String) :
    ∀ e ∈ EventDispatcher.dependentRoutes order d.executor.activeRoutes i,
      d.activeRoute e.1 ≠ none := by
  rw [EventDispatcher.forall_dependentRoutes]
  intro n a ha _
  rw [ha]
  exact Option.some_ne_none a

/- Where nothing new is tracked, the entries of the loop are all that can be left. -/
theorem noneVia_iff_untracked (order : RouteOrder) (i : String) {d d' : EventDispatcher}
    (hstays : ∀ n a, d'.activeRoute n = some a → d.activeRoute n = some a) :
    NoneVia i d' ↔ ∀ e ∈ EventDispatcher.dependentRoutes order d.executor.activeRoutes i,
      d'.activeRoute e.1 = none := by
  rw [EventDispatcher.forall_dependentRoutes]
  refine ⟨fun h n a ha hi => ?_, fun h n a hx hi => ?_⟩
  · -- an entry of the loop that is still active is the one from before, via the interface
    rw [Option.eq_none_iff_forall_ne_some]
    intro b hb
    have hab : b = a := Option.some_inj.mp ((hstays n b hb).symm.trans ha)
    exact h n b hb (hab ▸ hi)
  · have hgone := h n a (hstays n a hx) hi
    rw [hgone] at hx
    cases hx

theorem noneVia_iff (hq : Quiet env) (order : RouteOrder) (i : String) {change : InterfaceChange}
    (hc : change = .down ∨ change = .removed) {s : System KernelState}
    (hl : Live s.dispatcher.executor.routeManager) (hr : s.dispatcher.state = .running) :
    NoneVia i (Dispatch.perform env.plain s
        (.handleEvent order (.interfaceChanged i change))).dispatcher ↔
      (∀ n a, s.dispatcher.activeRoute n = some a → a.interface = i →
          Due (EventDispatcher.rulesMap s.dispatcher.config) (n, a.tableId)) ∧
        ∀ t d, demand order s.dispatcher i t d ≤ remaining s.kernel t d := by
  have hrules := EventDispatcher.rulesMap_name s.dispatcher.config
  have hnodup := EventDispatcher.dependentRoutes_nodup order s.dispatcher.executor.activeRoutes i
  have hactive := active_dependentRoutes order s.dispatcher i
  have hstays : ∀ n a, (run (removeOne env.plain (EventDispatcher.rulesMap s.dispatcher.config))
      (observed (.interfaceChanged i change) s)
      (EventDispatcher.dependentRoutes order s.dispatcher.executor.activeRoutes i)
      ).dispatcher.activeRoute n = some a → s.dispatcher.activeRoute n = some a :=
    fun _ _ => removeLoop_shrinks (s := observed (.interfaceChanged i change) s) hrules hl hq
  rw [perform_lost order i hc hr, ← EventDispatcher.forall_dependentRoutes order,
    noneVia_iff_untracked order i hstays]
  refine ⟨fun h => ?_, fun h => ?_⟩
  · have hdue : ∀ e ∈ EventDispatcher.dependentRoutes order s.dispatcher.executor.activeRoutes i,
        Due (EventDispatcher.rulesMap s.dispatcher.config) e := by
      intro e he
      by_contra hdue
      have hstay := removeLoop_undue (s := observed (.interfaceChanged i change) s) hrules hl hq
        hnodup he hdue
      exact hactive e he (hstay.symm.trans (h e he))
    exact ⟨hdue, (cleared_iff (s := observed (.interfaceChanged i change) s) hrules hl hq hdue
      hnodup hactive).mp h⟩
  · exact (cleared_iff (s := observed (.interfaceChanged i change) s) hrules hl hq h.1
      hnodup hactive).mpr h.2

end NicAutoswitch.Kernel.Removal
