import NicAutoswitch.Kernel.Sweep

/-!
# What a flush deletes

The route loops delete what the dump lists, without a look at its table; only the
loop over the policy rules compares the tables.
-/

namespace NicAutoswitch.Kernel.FlushScope
open Router StateProg Engine Transition

variable {env : Env}

/-! ### Flushing the routes of an interface -/

/- The routes that `flush_interface_routes` deletes. -/
def interfaceDeletes (env : Env) (name : String) (t : ℕ) (k : KernelState) : List Route :=
  match env.ifindex name with
  | none => []
  | some i =>
    if t ≤ 255 ∧ env.fault k.clock = none then
      sweepDeletes env (fun r => decide (r.oif = i)) (routeList env t) k.tick
    else []

theorem interfaceDeletes_mem {name : String} {t : ℕ} {k : KernelState} {r : Route}
    (h : r ∈ interfaceDeletes env name t k) :
    r ∈ k.routes ∧ env.ifindex name = some r.oif := by
  unfold interfaceDeletes at h
  cases hi : env.ifindex name with
  | none =>
    rw [hi] at h
    cases h
  | some i =>
    rw [hi] at h
    simp only at h
    split_ifs at h with hc
    · obtain ⟨hm, ho⟩ := sweepDeletes_listed h
      have hk := (env.routeDump_mem k.tick .v4 t r hm).1
      exact ⟨hk, congrArg some (of_decide_eq_true ho).symm⟩
    · cases h

/- The attribute test of the loop reads the interface of a listed route. -/
theorem message_oif (i : ℕ) (r : Route) :
    (r.message.attributes.any fun attr => attr == .oif i) = decide (r.oif = i) := by
  rw [Bool.eq_iff_iff, List.any_eq_true, decide_eq_true_iff]
  simp [Route.message]
  exact eq_comm

theorem mem_flushTable {rm : RouteManager} (hl : Live rm) (t : ℕ) (k : KernelState) (q : Route) :
    q ∈ (after (rm.flushTable env.plain t) k).routes ↔
      q ∈ k.routes ∧ q ∉ flushDeletes env t k := by
  have hspec := flushTable_spec env hl t k
  rw [← mem_flushed]
  by_cases hc : t ≤ 255 ∧ Listed env (routeList env t) k
  · obtain ⟨n, hn⟩ := hspec.1 hc
    rw [after_ok hn]
  · obtain ⟨e, he⟩ := hspec.2 hc
    rw [after_error he]

/- The kernel after the flush: the link has been looked up, and the dump is swept where there
is one. -/
def interfaceFlushed (env : Env) (name : String) (t : ℕ) (k : KernelState) : KernelState :=
  match env.ifindex name with
  | none => k.tick
  | some i =>
    if t ≤ 255 ∧ env.fault k.clock = none then
      sweep KernelState.dropRoute env (fun r => decide (r.oif = i)) (routeList env t) k.tick
    else k.tick

theorem mem_interfaceFlushed (env : Env) (name : String) (t : ℕ) (k : KernelState) (q : Route) :
    q ∈ (interfaceFlushed env name t k).routes ↔
      q ∈ k.routes ∧ q ∉ interfaceDeletes env name t k := by
  unfold interfaceFlushed interfaceDeletes
  cases env.ifindex name with
  | none => exact (and_iff_left List.not_mem_nil).symm
  | some i =>
    dsimp only
    split_ifs
    · rw [mem_sweep dropRoute_drops, KernelState.tick_routes]
    · exact (and_iff_left List.not_mem_nil).symm

theorem interfaceFlushed_rules (env : Env) (name : String) (t : ℕ) (k : KernelState) :
    (interfaceFlushed env name t k).rules = k.rules := by
  unfold interfaceFlushed
  cases env.ifindex name with
  | none => rfl
  | some i =>
    dsimp only
    split_ifs
    · exact sweep_other KernelState.dropRoute_rules KernelState.tick_rules _ _ k.tick
    · rfl

/- The flush leaves `interfaceFlushed`; it returns where the link is known and the dump is
listed in full. -/
theorem flushInterfaceRoutes_spec (env : Env) {rm : RouteManager} (hl : Live rm) (name : String)
    (t : ℕ) (k : KernelState) :
    ((env.Passes k.clock ∧ ∃ i, env.ifindex name = some i) ∧ t ≤ 255 ∧
        Listed env (routeList env t) k.tick →
      ∃ n, rm.flushInterfaceRoutes env.plain name t k = .ok n (interfaceFlushed env name t k)) ∧
    (¬ ((env.Passes k.clock ∧ ∃ i, env.ifindex name = some i) ∧ t ≤ 255 ∧
        Listed env (routeList env t) k.tick) →
      ∃ e, rm.flushInterfaceRoutes env.plain name t k =
        .error e (interfaceFlushed env name t k)) := by
  unfold RouteManager.flushInterfaceRoutes interfaceFlushed
  rw [if_neg hl.not_dry, withHandle_some hl.connected]
  by_cases hr : env.Passes k.clock ∧ ∃ i, env.ifindex name = some i
  · obtain ⟨hp, i, hi⟩ := hr
    have hp' : env.fault k.clock = none := hp
    simp only [bind_ok (resolveInterfaceIndex_passes hl hp hi), hi]
    by_cases ht : t ≤ 255
    · have hloop := dump_loop env Route.message (fun r => decide (r.oif = i))
        (fun route => route.attributes.any fun attr => attr == .oif i) (message_oif i)
        routeDel_after
        (fun e => s!"Failed to list routes for interface {name} in table {t}: {e}")
        (routeList env t) 0 k.tick
      simp only [tableIdToU8_ok ht, ht, hp', true_and, if_true]
      exact ⟨fun h => hloop.1 h.2, fun h => hloop.2 fun hc => h ⟨⟨hp, i, rfl⟩, hc⟩⟩
    · obtain ⟨e, he⟩ := tableIdToU8_error ht
      simp only [he, ht, false_and, and_false, if_false]
      exact ⟨fun h => h.elim, fun _ => ⟨e, rfl⟩⟩
  · obtain ⟨err, he⟩ := resolveInterfaceIndex_fails hl hr
    simp only [bind_error he]
    refine ⟨fun h => absurd h.1 hr, fun _ => ⟨err, ?_⟩⟩
    cases hi : env.ifindex name with
    | none => rfl
    | some i =>
      have hf : ¬ env.fault k.clock = none := fun hp => hr ⟨hp, i, hi⟩
      simp only [hf, and_false, if_false]

theorem mem_flushInterfaceRoutes {rm : RouteManager} (hl : Live rm) (name : String) (t : ℕ)
    (k : KernelState) (q : Route) :
    q ∈ (after (rm.flushInterfaceRoutes env.plain name t) k).routes ↔
      q ∈ k.routes ∧ q ∉ interfaceDeletes env name t k := by
  have hspec := flushInterfaceRoutes_spec env hl name t k
  rw [← mem_interfaceFlushed]
  by_cases hc : (env.Passes k.clock ∧ ∃ i, env.ifindex name = some i) ∧ t ≤ 255 ∧
      Listed env (routeList env t) k.tick
  · obtain ⟨n, hn⟩ := hspec.1 hc
    rw [after_ok hn]
  · obtain ⟨e, he⟩ := hspec.2 hc
    rw [after_error he]

theorem cleanup_kernel (s : System KernelState) :
    (after (Dispatch.cleanupStaleTables env.plain) s).kernel =
      run (flushComplete env s.dispatcher.executor.routeManager) s.kernel
        (Dispatch.staleTables (s.dispatcher.executor.routeManager.tableIdV4 0)) := by
  unfold Dispatch.cleanupStaleTables
  rw [onExecutor, after_zoom, sweep_after]
  rfl

/-! ### Scope -/

/- Only routes of the table go. -/
def FlushesOwn (env : Env) (rm : RouteManager) (t : ℕ) (k : KernelState) : Prop :=
  ∀ q ∈ k.routes, q ∉ (after (rm.flushTable env.plain t) k).routes → q.table = t

/- Only routes of the table that go out of the interface go. -/
def FlushesInterface (env : Env) (rm : RouteManager) (name : String) (t : ℕ)
    (k : KernelState) : Prop :=
  ∀ q ∈ k.routes, q ∉ (after (rm.flushInterfaceRoutes env.plain name t) k).routes →
    q.table = t ∧ env.ifindex name = some q.oif

/- The routes of all other tables stay, and none is added. -/
def KeepsOthers (tables : List ℕ) (k k' : KernelState) : Prop :=
  ∀ q, q.table ∉ tables → (q ∈ k'.routes ↔ q ∈ k.routes)

theorem flushesOwn_iff (env : Env) {rm : RouteManager} (hl : Live rm) (t : ℕ) (k : KernelState) :
    FlushesOwn env rm t k ↔ ∀ q ∈ flushDeletes env t k, q.table = t := by
  unfold FlushesOwn
  refine ⟨?_, ?_⟩
  · intro h q hq
    refine h q (flushDeletes_mem hq) ?_
    rw [mem_flushTable hl]
    exact fun hx => hx.2 hq
  · intro h q hk hq
    rw [mem_flushTable hl] at hq
    by_contra hne
    exact hq ⟨hk, fun hd => hne (h q hd)⟩

theorem flushesInterface_iff (env : Env) {rm : RouteManager} (hl : Live rm) (name : String) (t : ℕ)
    (k : KernelState) :
    FlushesInterface env rm name t k ↔ ∀ q ∈ interfaceDeletes env name t k, q.table = t := by
  unfold FlushesInterface
  refine ⟨?_, ?_⟩
  · intro h q hq
    refine (h q (interfaceDeletes_mem hq).1 ?_).1
    rw [mem_flushInterfaceRoutes hl]
    exact fun hx => hx.2 hq
  · intro h q hk hq
    rw [mem_flushInterfaceRoutes hl] at hq
    have hd : q ∈ interfaceDeletes env name t k := by
      by_contra hd
      exact hq ⟨hk, hd⟩
    exact ⟨h q hd, (interfaceDeletes_mem hd).2⟩

/- Every flush of the sweep is granted only deletes of routes of the swept tables. -/
def SweepsOwn (env : Env) (rm : RouteManager) (tables : List ℕ) (k : KernelState) : Prop :=
  Along (flushComplete env rm) (fun k t => ∀ q ∈ flushDeletes env t k, q.table ∈ tables) k tables

theorem keepsOthers_iff (env : Env) {rm : RouteManager} (hl : Live rm) (tables : List ℕ) (k : KernelState) :
    KeepsOthers tables k (run (flushComplete env rm) k tables) ↔ SweepsOwn env rm tables k := by
  have hstep : ∀ k1 t, True → KeepsOthers tables k k1 →
      (KeepsOthers tables k (flushComplete env rm k1 t) ↔
        ∀ q ∈ flushDeletes env t k1, q.table ∈ tables) := by
    intro k1 t _ hk1
    refine ⟨?_, ?_⟩
    · intro hk2 q hq
      by_contra hout
      have hmem := (hk1 q hout).mp (flushDeletes_mem hq)
      exact ((mem_flushComplete hl t k1 q).mp ((hk2 q hout).mpr hmem)).2 hq
    · intro hd q hout
      rw [mem_flushComplete hl, hk1 q hout]
      exact ⟨fun hx => hx.1, fun hx => ⟨hx, fun hq => hout (hd q hq)⟩⟩
  have hiff := throughout_iff_along (flushComplete env rm) (fun _ => True)
    (KeepsOthers tables k) _ (fun _ _ _ => trivial) hstep k tables trivial (fun _ _ => Iff.rfl)
  unfold SweepsOwn
  rw [← hiff]
  refine ⟨?_, ?_⟩
  · -- a route missing along the way is missing at the end
    intro hend pre hpre q hout
    obtain ⟨post, hpost⟩ := hpre
    refine ⟨(swept_shrinks env hl pre k).2 q, fun hq => ?_⟩
    have hfinal := (hend q hout).mpr hq
    rw [← hpost, run_append] at hfinal
    exact (swept_shrinks env hl post _).2 q hfinal
  · intro hall
    exact hall tables List.prefix_rfl

/-! ### A manager that does not work on the kernel -/

theorem after_idle {rm : RouteManager} (h : ¬ Live rm) {α : Type} (a : α) (message : String)
    (x : Net KernelState α) (k : KernelState) :
    after (if rm.dryRun = true then pure a else rm.withHandle message x) k = k := by
  by_cases hd : rm.dryRun = true
  · rw [if_pos hd]
    rfl
  · have hnone : rm.handle = none := by
      cases hh : rm.handle with
      | none => rfl
      | some c =>
        have hlive : Live rm := ⟨Bool.not_eq_true _ ▸ hd, by rw [hh]; rfl⟩
        exact absurd hlive h
    rw [if_neg hd, RouteManager.withHandle, hnone]
    rfl

theorem flushComplete_idle {rm : RouteManager} (h : ¬ Live rm) (t : ℕ) (k : KernelState) :
    flushComplete env rm k t = k := by
  have h1 : after (rm.flushTable env.plain t) k = k := after_idle h _ _ _ k
  have h2 : after (rm.flushTablePolicyRules env.plain t) k = k := after_idle h _ _ _ k
  unfold flushComplete RouteManager.flushTableComplete
  cases hx : rm.flushTable env.plain t k with
  | error e k1 =>
    rw [after_error hx] at h1
    rw [after_error (bind_error hx), h1]
  | ok n k1 =>
    rw [after_ok hx] at h1
    subst h1
    cases hy : rm.flushTablePolicyRules env.plain t k1 with
    | error e k2 =>
      rw [after_error hy] at h2
      rw [after_error ((bind_ok hx).trans (bind_error hy)), h2]
    | ok m k2 =>
      rw [after_ok hy] at h2
      have hz : after ((rm.flushTable env.plain t) >>= fun routeCount =>
          rm.flushTablePolicyRules env.plain t >>= fun ruleCount =>
            pure (routeCount + ruleCount)) k1 = k2 :=
        after_ok ((bind_ok hx).trans (bind_ok hy))
      exact hz.trans h2

theorem run_idle {rm : RouteManager} (h : ¬ Live rm) (tables : List ℕ) (k : KernelState) :
    run (flushComplete env rm) k tables = k := by
  induction tables with
  | nil => rfl
  | cons t rest ih => rw [run_cons, flushComplete_idle h, ih]

/- A flush stays within its table exactly where the dump it works on does, as far as
the kernel grants the deletes. -/
theorem flush_scope_iff (env : Env) (s : System KernelState) (name : String) (t : ℕ) :
    (FlushesOwn env s.dispatcher.executor.routeManager t s.kernel ↔
        (Live s.dispatcher.executor.routeManager →
          ∀ q ∈ flushDeletes env t s.kernel, q.table = t)) ∧
      (FlushesInterface env s.dispatcher.executor.routeManager name t s.kernel ↔
        (Live s.dispatcher.executor.routeManager →
          ∀ q ∈ interfaceDeletes env name t s.kernel, q.table = t)) ∧
      (KeepsOthers (Dispatch.staleTables (s.dispatcher.executor.routeManager.tableIdV4 0))
          s.kernel (after (Dispatch.cleanupStaleTables env.plain) s).kernel ↔
        (Live s.dispatcher.executor.routeManager →
          SweepsOwn env s.dispatcher.executor.routeManager
            (Dispatch.staleTables (s.dispatcher.executor.routeManager.tableIdV4 0)) s.kernel)) := by
  rw [cleanup_kernel]
  by_cases hl : Live s.dispatcher.executor.routeManager
  · have h1 := flushesOwn_iff env hl t s.kernel
    have h2 := flushesInterface_iff env hl name t s.kernel
    have h3 := keepsOthers_iff env hl
      (Dispatch.staleTables (s.dispatcher.executor.routeManager.tableIdV4 0)) s.kernel
    exact ⟨h1.trans ⟨fun h _ => h, fun h => h hl⟩, h2.trans ⟨fun h _ => h, fun h => h hl⟩,
      h3.trans ⟨fun h _ => h, fun h => h hl⟩⟩
  · refine ⟨iff_of_true ?_ (fun h => absurd h hl), iff_of_true ?_ (fun h => absurd h hl),
      iff_of_true ?_ (fun h => absurd h hl)⟩
    · intro q hq hgone
      have hidle : after (s.dispatcher.executor.routeManager.flushTable env.plain t) s.kernel =
        s.kernel := after_idle hl _ _ _ s.kernel
      rw [hidle] at hgone
      exact absurd hq hgone
    · intro q hq hgone
      have hidle : after (s.dispatcher.executor.routeManager.flushInterfaceRoutes env.plain
        name t) s.kernel = s.kernel := after_idle hl _ _ _ s.kernel
      rw [hidle] at hgone
      exact absurd hq hgone
    · rw [run_idle hl]
      exact fun _ _ => Iff.rfl

/-! ### A dump that ignores the requested table -/

def mainRoute : Route := ⟨254, .v4 ⟨0xc0a80100, 24, by decide⟩, 100, 2⟩

/- The kernel holds one route, in the main table. -/
def mainTable : System KernelState :=
  Dispatch.launch {} connected
    { KernelState.empty with routes := [mainRoute], routes_nodup := by decide }

/- Neither the flush of table 100 nor the startup cleanup leaves the main table alone. -/
theorem main_route_flushed :
    ¬ FlushesOwn noFault connected 100 mainTable.kernel ∧
      ¬ KeepsOthers (Dispatch.staleTables (connected.tableIdV4 0)) mainTable.kernel
        (after (Dispatch.cleanupStaleTables noFault.plain) mainTable).kernel := by
  refine ⟨?_, ?_⟩
  · intro h
    have ht := h mainRoute (by decide) (by decide)
    cases ht
  · intro h
    have hkept := (h mainRoute (by decide)).mpr (by decide)
    rw [cleanup_kernel] at hkept
    -- the route is gone after the first flush, and nothing adds one
    have htables : Dispatch.staleTables (connected.tableIdV4 0) =
        100 :: (Dispatch.staleTables 100).tail := by decide
    have hlive : Live connected := ⟨rfl, rfl⟩
    rw [show mainTable.dispatcher.executor.routeManager = connected from rfl, htables,
      run_cons] at hkept
    have hfirst := (swept_shrinks noFault hlive _ _).2 mainRoute hkept
    have hdeletes : mainRoute ∈ flushDeletes noFault 100 mainTable.kernel := by decide
    exact ((mem_flushComplete hlive 100 mainTable.kernel mainRoute).mp hfirst).2 hdeletes

end NicAutoswitch.Kernel.FlushScope
