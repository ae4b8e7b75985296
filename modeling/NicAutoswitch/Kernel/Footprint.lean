import NicAutoswitch.Kernel.Leftovers
import NicAutoswitch.Kernel.LinuxCalls

/-!
# What a call may change in the kernel

Any request of a call may fail. What the others add and delete on Linux is bounded by the
footprint of the call: what Linux makes of its rule in the table that it has been given, or what
is in the tables that the dumps of the startup cleanup list.
-/

namespace NicAutoswitch.Kernel
open Schema Router StateProg Engine Transition Linux

/-- The entries that may be added and deleted. -/
structure Footprint where
  addRule : PolicyRule → Prop := fun _ => False
  dropRule : PolicyRule → Prop := fun _ => False
  addRoute : Route → Prop := fun _ => False
  dropRoute : Route → Prop := fun _ => False

namespace Footprint

/-- `P` survives the changes of the footprint, and does not depend on the clock. -/
structure Keeps (f : Footprint) (P : KernelState → Prop) : Prop where
  tick : ∀ k, P k → P k.tick
  addRule : ∀ k p, f.addRule p → P k → P (k.addRule p)
  dropRule : ∀ k p, f.dropRule p → P k → P (k.dropRule p)
  addRoute : ∀ k q, f.addRoute q → P k → P (k.addRoute q)
  dropRoute : ∀ k q, f.dropRoute q → P k → P (k.dropRoute q)

variable {env : Env} {rm : RouteManager} {f : Footprint} {P : KernelState → Prop}

/-! ### Requests -/

theorem Keeps.request (h : Keeps f P) {α : Type}
    {g : KernelState → Except RtError α × KernelState} (hg : ∀ k, P k → P (g k).2)
    {k : KernelState} (hk : P k) : P (env.request g k).2 := by
  unfold Env.request
  cases env.fault k.clock with
  | some e => exact h.tick k hk
  | none => exact h.tick _ (hg k hk)

theorem preserves_settle {tolerated : RtError → Bool} {message : RtError → String}
    {req : KernelState → Except RtError Unit × KernelState} (h : ∀ k, P k → P (req k).2) :
    Preserves P (settle tolerated message req) := by
  intro k hk
  have hreq := h k hk
  unfold after settle
  cases hr : req k with
  | mk answer k' =>
    rw [hr] at hreq
    cases answer with
    | ok u => exact hreq
    | error e =>
      dsimp only
      split_ifs
      · exact hreq
      · exact hreq

/- A manager without a connection sends nothing. -/
theorem preserves_withHandle {message : String} {α : Type} {x : Net KernelState α}
    (h : rm.handle.isSome → Preserves P x) : Preserves P (rm.withHandle message x) := by
  unfold RouteManager.withHandle
  cases hh : rm.handle with
  | none => exact fun _ hk => hk
  | some c =>
    rw [hh] at h
    exact h rfl

theorem ruleDel_keeps (h : Keeps f P) {m : RuleMessage}
    (hm : ∀ v p, NamesRule v m p → f.dropRule p) {k : KernelState} (hk : P k) :
    P (ruleDel m k).2 := by
  unfold ruleDel
  cases versionOf m.family with
  | none => exact hk
  | some v =>
    dsimp only
    cases hp : pickRule k.rules v m with
    | none => exact hk
    | some p => exact h.dropRule k p (hm v p (pickRule_some hp).2) hk

theorem routeDel_keeps (h : Keeps f P) {m : RouteMessage}
    (hm : ∀ d q, NamesRoute m d q → f.dropRoute q) {k : KernelState} (hk : P k) :
    P (routeDel m k).2 := by
  unfold routeDel
  cases versionOf m.addressFamily with
  | none => exact hk
  | some v =>
    dsimp only
    cases namedNetwork v m with
    | none => exact hk
    | some d =>
      dsimp only
      cases hq : pickRoute k.routes m d with
      | none => exact hk
      | some q => exact h.dropRoute k q (hm d q (pickRoute_some hq).2) hk

theorem preserves_addPolicyRule (h : Keeps f P) (rm : RouteManager) {d : IpNetwork}
    {t priority : ℕ} (hp : f.addRule (ruleOf d t priority)) :
    Preserves P (rm.addPolicyRule env.linux (some d) none t priority) := by
  unfold RouteManager.addPolicyRule
  refine preserves_ite (fun _ => preserves_pure P ()) fun _ => preserves_withHandle fun _ => ?_
  refine preserves_settle fun k hk => h.request (fun k hk => ?_) hk
  rw [Linux.ruleAdd_own]
  split_ifs
  · exact hk
  · exact h.addRule k _ hp hk

theorem preserves_removePolicyRule (h : Keeps f P) (rm : RouteManager) {d : IpNetwork}
    {t priority : ℕ} (hp : ∀ v p, NamesRule v (ruleDelMessage d t priority) p → f.dropRule p) :
    Preserves P (rm.removePolicyRule env.linux (some d) none t priority) := by
  unfold RouteManager.removePolicyRule
  refine preserves_ite (fun _ => preserves_pure P ()) fun _ => preserves_withHandle fun _ => ?_
  dsimp only
  by_cases hle : t ≤ 255
  · rw [buildRuleMessage_eq d priority hle]
    exact preserves_settle fun k hk => h.request (fun k hk => ruleDel_keeps h hp hk) hk
  · have herror : ∃ e, buildRuleMessage (some d) none t priority
        (RouteManager.ruleIsIpv4 (some d) none) = .error e := by
      obtain ⟨e, he⟩ := tableIdToU8_error hle
      unfold buildRuleMessage
      rw [he]
      exact ⟨e, rfl⟩
    obtain ⟨e, he⟩ := herror
    rw [he]
    exact fun _ hk => hk

/- A link that is found is the one that the environment has. -/
theorem resolved_link {name : String} {i : ℕ} {k k' : KernelState}
    (h : rm.resolveInterfaceIndex env.linux name k = .ok i k') : env.ifindex name = some i := by
  unfold RouteManager.resolveInterfaceIndex RouteManager.withHandle at h
  cases hh : rm.handle with
  | none =>
    rw [hh] at h
    cases h
  | some c =>
    rw [hh] at h
    have hsend : send (env.linux.linkGet name) k =
        .ok (env.request (env.linkGet name) k).1 (env.request (env.linkGet name) k).2 := rfl
    dsimp only at h
    rw [bind_ok hsend] at h
    unfold Env.request at h
    cases hf : env.fault k.clock with
    | some e =>
      rw [hf] at h
      cases h
    | none =>
      rw [hf] at h
      unfold Env.linkGet at h
      cases hi : env.ifindex name with
      | none =>
        rw [hi] at h
        cases h
      | some j =>
        rw [hi] at h
        cases h
        rfl

theorem preserves_resolveInterfaceIndex (h : Keeps f P) (rm : RouteManager) (name : String) :
    Preserves P (rm.resolveInterfaceIndex env.linux name) := by
  refine preserves_withHandle fun _ => preserves_bind (fun k hk => ?_) fun answer => ?_
  · refine h.request (g := env.linkGet name) (fun k hk => ?_) hk
    unfold Env.linkGet
    cases env.ifindex name with
    | none => exact hk
    | some i => exact hk
  · rcases answer with e | (_ | i)
    · exact fun _ hk => hk
    · exact fun _ hk => hk
    · exact fun _ hk => hk

theorem preserves_addRoute (h : Keeps f P) (rm : RouteManager) {d : IpNetwork} {name : String}
    {t metric : ℕ} (hq : ∀ i q, env.ifindex name = some i → routeOf? d t metric i = some q →
      f.addRoute q) : Preserves P (rm.addRoute env.linux d none name t metric) := by
  unfold RouteManager.addRoute
  refine preserves_ite (fun _ => preserves_pure P ()) fun _ => preserves_withHandle fun _ => ?_
  intro k hk
  have hlink : P (after (rm.resolveInterfaceIndex env.linux name) k) :=
    preserves_resolveInterfaceIndex h rm name k hk
  cases hr : rm.resolveInterfaceIndex env.linux name k with
  | error e k' =>
    rw [after_error hr] at hlink
    rw [after_error (bind_error hr)]
    exact hlink
  | ok i k' =>
    rw [after_ok hr] at hlink
    rw [after_bind_ok hr]
    refine preserves_settle (fun k hk => h.request (fun k hk => ?_) hk) k' hlink
    rw [Linux.routeAdd_own]
    cases hroute : routeOf? d t metric i with
    | none => exact hk
    | some q =>
      dsimp only
      split_ifs
      · exact hk
      · exact h.addRoute k q (hq i q (resolved_link hr) hroute) hk

/- The request names no family, and nothing is deleted. -/
theorem preserves_removeRoute (h : Keeps f P) (rm : RouteManager) (d : IpNetwork) (t : ℕ) :
    Preserves P (rm.removeRoute env.linux d t) := by
  unfold RouteManager.removeRoute
  refine preserves_ite (fun _ => preserves_pure P ()) fun _ => preserves_withHandle fun _ => ?_
  by_cases hle : t ≤ 255
  · rw [removeRouteMessage_eq d hle]
    exact preserves_settle fun k hk => h.request (fun k hk => hk) hk
  · obtain ⟨e, he⟩ := tableIdToU8_error hle
    unfold removeRouteMessage
    rw [he]
    exact fun _ hk => hk

/-! ### Calls -/

theorem preserves_applyRule (h : Keeps f P) (rm : RouteManager) {rule : RouteRule} {t : ℕ}
    (hp : ∀ d, RuleOperator.target? rule = some d → f.addRule (ruleOf d t rule.priority))
    (hq : ∀ d q, RuleOperator.target? rule = some d → route? env rule d t = some q →
      f.addRoute q) :
    Preserves P (RuleOperator.applyRule env.linux rm rule 0 t) := by
  unfold RuleOperator.applyRule
  cases hd : RuleOperator.getDestination rule with
  | error e => exact fun _ hk => hk
  | ok d =>
    have htarget := RuleOperator.getDestination_ok.mp hd
    exact preserves_bind (preserves_addPolicyRule h rm (hp d htarget)) fun _ =>
      preserves_addRoute h rm fun i q hi hroute => hq d q htarget (by rw [route?, hi]; exact hroute)

theorem preserves_removeRule (h : Keeps f P) (rm : RouteManager) {rule : RouteRule} {t : ℕ}
    (hp : ∀ d v p, RuleOperator.target? rule = some d →
      NamesRule v (ruleDelMessage d t rule.priority) p → f.dropRule p) :
    Preserves P (RuleOperator.removeRule env.linux rm rule t) := by
  unfold RuleOperator.removeRule
  cases hd : RuleOperator.getDestination rule with
  | error e => exact fun _ hk => hk
  | ok d =>
    have htarget := RuleOperator.getDestination_ok.mp hd
    exact preserves_bind (preserves_removePolicyRule h rm fun v p => hp d v p htarget) fun _ =>
      preserves_removeRoute h rm d t

/- What the kernel is after a call is decided by the requests of its rule. -/
theorem applyRule_kernel (env : Env) (rule : RouteRule) (t : ℕ) (s : ExecutorState KernelState) :
    (after (RuleExecutor.applyRule env.linux rule 0 t) s).kernel = s.kernel ∨
      (after (RuleExecutor.applyRule env.linux rule 0 t) s).kernel =
        after (RuleOperator.applyRule env.linux s.executor.routeManager rule 0 t) s.kernel := by
  cases hv : RuleOperator.validateRule rule with
  | error e =>
    rw [after_error (RuleExecutor.applyRule_invalid env.linux 0 t s hv)]
    exact .inl rfl
  | ok u =>
    cases hk : RuleOperator.applyRule env.linux s.executor.routeManager rule 0 t s.kernel with
    | ok u k =>
      rw [after_ok (RuleExecutor.applyRule_ok hv hk), after_ok hk]
      exact .inr rfl
    | error e k =>
      rw [after_error (RuleExecutor.applyRule_error hv hk), after_error hk]
      exact .inr rfl

theorem removeRule_kernel (env : Env) (rule : RouteRule) (t : ℕ) (s : ExecutorState KernelState) :
    (after (RuleExecutor.removeRule env.linux rule t) s).kernel =
      after (RuleOperator.removeRule env.linux s.executor.routeManager rule t) s.kernel := by
  cases hk : RuleOperator.removeRule env.linux s.executor.routeManager rule t s.kernel with
  | ok u k => rw [after_ok (RuleExecutor.removeRule_ok hk), after_ok hk]
  | error e k => rw [after_error (RuleExecutor.removeRule_error hk), after_error hk]

/-! ### The startup cleanup -/

/-- What a flush of the table may delete: what is in a table of a route that a dump lists, and in
that of a policy rule with the table in its header. -/
def ofFlush (env : Env) (t : ℕ) : Footprint where
  dropRule p := ∃ p' : PolicyRule, headerTable p'.table = t ∧ (p'.table = 0 ∨ p.table = p'.table)
  dropRoute q := ∃ k q', .ok q' ∈ env.routeDump k .v4 t ∧ q.table = q'.table

theorem preserves_flushLoop {ι : Type} {sel : ι → Bool} {message : RtError → String}
    {del : ι → KernelState → Except RtError Unit × KernelState}
    {items : List (Except RtError ι)} (count : ℕ)
    (hdel : ∀ x, .ok x ∈ items → sel x = true → ∀ k, P k → P (del x k).2) :
    Preserves P (flushLoop sel message del items count) := by
  induction items generalizing count with
  | nil => exact preserves_pure P count
  | cons item rest ih =>
    cases item with
    | error e => exact fun _ hk => hk
    | ok x =>
      have hrest : ∀ count, Preserves P (flushLoop sel message del rest count) := fun count =>
        ih count fun y hy => hdel y (List.mem_cons_of_mem _ hy)
      refine preserves_ite (fun hs => ?_) fun _ => hrest count
      refine preserves_bind (fun k hk => hdel x List.mem_cons_self hs k hk) fun answer => ?_
      cases answer with
      | error e => exact hrest count
      | ok u => exact hrest (count + 1)

theorem dump_spec {α β : Type} {list : KernelState → List (Except RtError α)} {message : α → β}
    {k : KernelState} {m : β} (h : .ok m ∈ (env.dump list message k).1) :
    ∃ x, .ok x ∈ list k ∧ m = message x := by
  unfold Env.dump at h
  cases hf : env.fault k.clock with
  | some e =>
    rw [hf] at h
    cases List.mem_singleton.mp h
  | none =>
    rw [hf] at h
    obtain ⟨item, hitem, he⟩ := List.mem_map.mp h
    cases item with
    | error e => cases he
    | ok x =>
      cases he
      exact ⟨x, hitem, rfl⟩

theorem dump_keeps (h : Keeps f P) {α β : Type} {list : KernelState → List (Except RtError α)}
    {message : α → β} {k : KernelState} (hk : P k) : P (env.dump list message k).2 := by
  unfold Env.dump
  cases env.fault k.clock with
  | some e => exact h.tick k hk
  | none => exact h.tick k hk

theorem namesRoute_message {d : IpNetwork} {q x : Route} (h : NamesRoute (routeMessage q) d x) :
    x.table = q.table := h.1

theorem preserves_flushTable {t : ℕ} (h : Keeps (ofFlush env t) P) (rm : RouteManager) :
    Preserves P (rm.flushTable env.linux t) := by
  unfold RouteManager.flushTable
  refine preserves_ite (fun _ => preserves_pure P 0) fun _ => preserves_withHandle fun _ => ?_
  by_cases hle : t ≤ 255
  · rw [tableIdToU8_ok hle]
    intro k hk
    refine preserves_flushLoop 0 (fun m hm _ k' hk' => ?_) _ (dump_keeps h hk)
    obtain ⟨q, hq, rfl⟩ := dump_spec hm
    exact h.request (fun k'' hk'' => routeDel_keeps h
      (fun d x hx => ⟨k, q, hq, namesRoute_message hx⟩) hk'') hk'
  · obtain ⟨e, he⟩ := tableIdToU8_error hle
    rw [he]
    exact fun _ hk => hk

theorem namesRule_message {v : IpVersion} {p x : PolicyRule} (h : NamesRule v (ruleMessage p) x) :
    p.table = 0 ∨ x.table = p.table := h.2.1

theorem preserves_flushRules {t : ℕ} (h : Keeps (ofFlush env t) P) (kind : String) (v : IpVersion)
    (tableId count : ℕ) : Preserves P (do
      let rules ← send (env.linux.ruleGet v)
      RouteManager.flushPolicyRulesLoop env.linux kind tableId t rules count) := by
  intro k hk
  refine preserves_flushLoop count (fun m hm hs k' hk' => ?_) _ (dump_keeps h hk)
  obtain ⟨p, hp, rfl⟩ := dump_spec hm
  have hheader : headerTable p.table = t := of_decide_eq_true hs
  exact h.request (fun k'' hk'' => ruleDel_keeps h
    (fun _ x hx => ⟨p, hheader, namesRule_message hx⟩) hk'') hk'

theorem preserves_flushTableComplete {t : ℕ} (h : Keeps (ofFlush env t) P) (rm : RouteManager) :
    Preserves P (rm.flushTableComplete env.linux t) := by
  refine preserves_bind (preserves_flushTable h rm) fun _ => preserves_bind ?_ fun _ =>
    preserves_pure P _
  unfold RouteManager.flushTablePolicyRules
  refine preserves_ite (fun _ => preserves_pure P 0) fun _ => preserves_withHandle fun _ => ?_
  by_cases hle : t ≤ 255
  · rw [tableIdToU8_ok hle]
    intro k hk
    exact preserves_bind (preserves_flushRules h "policy rules" .v4 t 0)
      (fun count => preserves_flushRules h "IPv6 policy rules" .v6 t count) k hk
  · obtain ⟨e, he⟩ := tableIdToU8_error hle
    rw [he]
    exact fun _ hk => hk

/-! ### The executor's calls -/

/-- The footprint of a call, with the manager that it finds. -/
def ofCall (env : Env) (rm : RouteManager) : ExecutorCall → Footprint
  | .applyRule rule t =>
    { addRule := fun p => ∃ d, RuleOperator.target? rule = some d ∧ p = ruleOf d t rule.priority
      addRoute := fun q => ∃ d, RuleOperator.target? rule = some d ∧ route? env rule d t = some q }
  | .removeRule rule t =>
    { dropRule := fun p => ∃ d v, RuleOperator.target? rule = some d ∧
        NamesRule v (ruleDelMessage d t rule.priority) p }
  | .cleanup =>
    { dropRule := fun p => ∃ t ∈ Dispatch.staleTables (rm.tableIdV4 0), (ofFlush env t).dropRule p
      dropRoute := fun q => ∃ t ∈ Dispatch.staleTables (rm.tableIdV4 0),
        (ofFlush env t).dropRoute q }

/- What survives the footprint of a call survives the call. -/
structure CallKeeps (env : Env) (s s' : ExecutorState KernelState) (call : ExecutorCall) : Prop where
  history : ∃ ok, s'.history = ⟨call, s.executor, s.kernel, ok⟩ :: s.history
  manager : s'.executor.routeManager = s.executor.routeManager
  kernel : ∀ P, Keeps (ofCall env s.executor.routeManager call) P → P s.kernel → P s'.kernel

theorem callKeeps_apply (env : Env) (rule : RouteRule) (t : ℕ) (s : ExecutorState KernelState) :
    CallKeeps env s (after (RuleExecutor.applyRule env.linux rule 0 t) s) (.applyRule rule t) := by
  obtain ⟨e, k', ok, heq, he⟩ := applyRule_cases env.linux rule t s
  have hkernel := applyRule_kernel env rule t s
  rw [heq] at hkernel ⊢
  refine ⟨⟨ok, rfl⟩, ?_, fun P h hk => ?_⟩
  · rcases he with rfl | rfl <;> rfl
  · dsimp only at hkernel ⊢
    rcases hkernel with hsame | hcall
    · rw [hsame]
      exact hk
    · rw [hcall]
      exact preserves_applyRule h _ (fun d hd => ⟨d, hd, rfl⟩) (fun d q hd hq => ⟨d, hd, hq⟩) _ hk

theorem callKeeps_remove (env : Env) (rule : RouteRule) (t : ℕ) (s : ExecutorState KernelState) :
    CallKeeps env s (after (RuleExecutor.removeRule env.linux rule t) s) (.removeRule rule t) := by
  obtain ⟨e, k', ok, heq, he⟩ := removeRule_cases env.linux rule t s
  have hkernel := removeRule_kernel env rule t s
  rw [heq] at hkernel ⊢
  refine ⟨⟨ok, rfl⟩, ?_, fun P h hk => ?_⟩
  · rcases he with rfl | rfl <;> rfl
  · dsimp only at hkernel ⊢
    rw [hkernel]
    exact preserves_removeRule h _ (fun d v p hd hp => ⟨d, v, hd, hp⟩) _ hk

theorem preserves_flushTables {tables : List ℕ} (rm : RouteManager)
    (h : ∀ t ∈ tables, Keeps (ofFlush env t) P) :
    Preserves P (Dispatch.flushTables env.linux rm tables) := by
  induction tables with
  | nil => exact preserves_pure P ()
  | cons t rest ih =>
    obtain ⟨ht, hrest⟩ := List.forall_mem_cons.mp h
    exact preserves_bind (preserves_attempt (preserves_flushTableComplete ht rm)) fun _ => ih hrest

theorem callKeeps_cleanup (env : Env) (s : ExecutorState KernelState) :
    CallKeeps env s (after (Dispatch.sweepStaleTables env.linux) s) .cleanup := by
  obtain ⟨k, hk⟩ := flushTables_returns env.linux s.executor.routeManager
    (Dispatch.staleTables (s.executor.routeManager.tableIdV4 0)) s.kernel
  rw [after_ok (sweep_flushed env.linux hk)]
  refine ⟨⟨true, rfl⟩, rfl, fun P h hs => ?_⟩
  have hflush : ∀ t ∈ Dispatch.staleTables (s.executor.routeManager.tableIdV4 0),
      Keeps (ofFlush env t) P := fun t ht =>
    ⟨h.tick, h.addRule, fun k p hp => h.dropRule k p ⟨t, ht, hp⟩, h.addRoute,
      fun k q hq => h.dropRoute k q ⟨t, ht, hq⟩⟩
  have hkept := preserves_flushTables s.executor.routeManager hflush s.kernel hs
  rw [after_ok hk] at hkept
  exact hkept

/- An invariant that every call keeps for its footprint is one of the executor. -/
theorem callsKeep_of_footprint {I : ExecutorState KernelState → Prop}
    (h : ∀ s s' call, CallKeeps env s s' call → I s → I s') : CallsKeep env.linux I where
  apply rule t s hs := h s _ _ (callKeeps_apply env rule t s) hs
  remove rule t s hs := h s _ _ (callKeeps_remove env rule t s) hs
  cleanup s hs := h s _ _ (callKeeps_cleanup env s) hs

end Footprint

end NicAutoswitch.Kernel
