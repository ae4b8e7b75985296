import NicAutoswitch.Kernel.FlushScope
import NicAutoswitch.Kernel.Tracking

/-!
# Flushing an interface that is tracked

The flush deletes IPv4 routes of one table, the tracking forgets every route of the
interface, and no policy rule is deleted.
-/

namespace NicAutoswitch.Kernel.FlushTracking
open HashMaps Router StateProg Engine Tracking FlushScope

variable {env : Env} {s : KernelExec}

/- The state after `flush_interface`. -/
abbrev flushedInterface (env : Env) (name : String) (t : ℕ) (s : KernelExec) : KernelExec :=
  after (RuleExecutor.flushInterface env.plain name t) s

/- The active routes that are forgotten are those whose route is gone from the kernel, and
their policy rules are gone too. -/
structure InStep (env : Env) (name : String) (t : ℕ) (s : KernelExec) : Prop where
  untracked : ∀ n x, n ∈ s.executor.activeRoutes → owned env s.history n = some x →
    (n ∉ (flushedInterface env name t s).executor.activeRoutes ↔
      x.2 ∉ (flushedInterface env name t s).kernel.routes)
  rules : ∀ n x, n ∈ s.executor.activeRoutes → owned env s.history n = some x →
    n ∉ (flushedInterface env name t s).executor.activeRoutes →
      x.1 ∉ (flushedInterface env name t s).kernel.rules

/- The flush fails before it deletes or forgets anything. -/
def Refused (rm : RouteManager) (t : ℕ) : Prop :=
  rm.dryRun = false ∧ (rm.handle = none ∨ 255 < t)

/-! ### What an active route has in the kernel -/

theorem installed_owned (h : Installed env s) {n : String} {a : ActiveRoute}
    (ha : s.executor.activeRoutes.lookup n = some a) :
    ∃ x, owned env s.history n = some x ∧ x.1 ∈ s.kernel.rules ∧ x.2 ∈ s.kernel.routes ∧
      env.ifindex a.interface = some x.2.oif := by
  obtain ⟨rule, t, p, q, hr, rfl, he, hp, hq⟩ := h n a ha
  obtain ⟨d, l, _, hl, hx⟩ := entries_spec he
  obtain ⟨rfl, rfl⟩ := Prod.mk.inj hx
  have hown : owned env s.history n = some (⟨d, t, rule.priority⟩, ⟨t, d, rule.priority, l⟩) := by
    unfold owned
    rw [hr]
    exact he
  exact ⟨_, hown, hp, hq, hl⟩

/-! ### What the flush leaves -/

theorem flushedInterface_kernel (name : String) (t : ℕ) (s : KernelExec) :
    (flushedInterface env name t s).kernel =
      after (s.executor.routeManager.flushInterfaceRoutes env.plain name t) s.kernel := by
  unfold flushedInterface
  cases h : s.executor.routeManager.flushInterfaceRoutes env.plain name t s.kernel with
  | ok count k => rw [after_ok (RuleExecutor.flushInterface_ok h), after_ok h]
  | error e k => rw [after_error (RuleExecutor.flushInterface_error h), after_error h]

theorem flushInterfaceRoutes_idle {rm : RouteManager} (h : ¬ Live rm) (name : String) (t : ℕ)
    (k : KernelState) : after (rm.flushInterfaceRoutes env.plain name t) k = k :=
  after_idle h _ _ _ k

theorem flushedInterface_rules (name : String) (t : ℕ) (s : KernelExec) :
    (flushedInterface env name t s).kernel.rules = s.kernel.rules := by
  rw [flushedInterface_kernel]
  by_cases hl : Live s.executor.routeManager
  · have hspec := flushInterfaceRoutes_spec env hl name t s.kernel
    rw [← interfaceFlushed_rules env name t s.kernel]
    by_cases hc : (env.Passes s.kernel.clock ∧ ∃ i, env.ifindex name = some i) ∧ t ≤ 255 ∧
        Listed env (routeList env t) s.kernel.tick
    · obtain ⟨n, hn⟩ := hspec.1 hc
      rw [after_ok hn]
    · obtain ⟨e, he⟩ := hspec.2 hc
      rw [after_error he]
  · rw [flushInterfaceRoutes_idle hl]

/- A route that goes out of another interface stays. -/
theorem flushedInterface_routes {name : String} {t : ℕ} {q : Route} (hq : q ∈ s.kernel.routes)
    (hi : env.ifindex name ≠ some q.oif) : q ∈ (flushedInterface env name t s).kernel.routes := by
  rw [flushedInterface_kernel]
  by_cases hl : Live s.executor.routeManager
  · rw [mem_flushInterfaceRoutes hl]
    exact ⟨hq, fun hd => hi (interfaceDeletes_mem hd).2⟩
  · rw [flushInterfaceRoutes_idle hl]
    exact hq

/- An active route of another interface stays. -/
theorem flushedInterface_active {name n : String} {t : ℕ} {a : ActiveRoute}
    (ha : s.executor.activeRoutes.lookup n = some a) (hne : a.interface ≠ name) :
    n ∈ (flushedInterface env name t s).executor.activeRoutes := by
  unfold flushedInterface
  cases h : s.executor.routeManager.flushInterfaceRoutes env.plain name t s.kernel with
  | ok count k =>
    rw [after_ok (RuleExecutor.flushInterface_ok h)]
    exact (mem_iff_lookup _ n).mpr ⟨a, (lookup_retain _ _ n a).mpr ⟨ha, bne_iff_ne.mpr hne⟩⟩
  | error e k =>
    rw [after_error (RuleExecutor.flushInterface_error h)]
    exact (mem_iff_lookup _ n).mpr ⟨a, ha⟩

/- A flush that returns forgets every active route of the interface. -/
theorem flushedInterface_forgets {name n : String} {t count : ℕ} {a : ActiveRoute} {k : KernelState}
    (h : s.executor.routeManager.flushInterfaceRoutes env.plain name t s.kernel = .ok count k)
    (ha : s.executor.activeRoutes.lookup n = some a) (he : a.interface = name) :
    n ∉ (flushedInterface env name t s).executor.activeRoutes := by
  unfold flushedInterface
  rw [after_ok (RuleExecutor.flushInterface_ok h), mem_iff_lookup]
  rintro ⟨b, hb⟩
  obtain ⟨hb', hne⟩ := (lookup_retain _ _ n b).mp hb
  obtain rfl := Option.some.inj (ha.symm.trans hb')
  exact bne_iff_ne.mp hne he

/- A refused flush leaves everything as it is. -/
theorem refused_fails (env : Env) {rm : RouteManager} {t : ℕ} (h : Refused rm t) (name : String)
    (k : KernelState) : ∃ e k', rm.flushInterfaceRoutes env.plain name t k = .error e k' ∧
      ∀ q ∈ k.routes, q ∈ k'.routes := by
  obtain ⟨hdry, hrefused⟩ := h
  cases hh : rm.handle with
  | none =>
    refine ⟨.route noConnection, k, ?_, fun _ hq => hq⟩
    unfold RouteManager.flushInterfaceRoutes
    rw [if_neg (by rw [hdry]; decide), RouteManager.withHandle, hh]
    rfl
  | some c =>
    have hl : Live rm := ⟨hdry, by rw [hh]; rfl⟩
    have ht : ¬ t ≤ 255 := by
      rcases hrefused with hnone | hlt
      · rw [hh] at hnone
        cases hnone
      · omega
    obtain ⟨e, he⟩ := (flushInterfaceRoutes_spec env hl name t k).2 fun hc => ht hc.2.1
    refine ⟨e, _, he, fun q hq => (mem_interfaceFlushed env name t k q).mpr ⟨hq, fun hd => ?_⟩⟩
    unfold interfaceDeletes at hd
    cases hi : env.ifindex name with
    | none =>
      rw [hi] at hd
      cases hd
    | some i =>
      rw [hi] at hd
      simp [ht] at hd

/- With every request succeeding, a flush of a known link that is not refused returns. -/
theorem flush_returns (hq : Quiet env) (hc : ∀ k v t, Clean (env.routeDump k v t))
    {rm : RouteManager} {t : ℕ} (h : ¬ Refused rm t) {name : String} {i : ℕ}
    (hi : env.ifindex name = some i) (k : KernelState) :
    ∃ count k', rm.flushInterfaceRoutes env.plain name t k = .ok count k' := by
  cases hdry : rm.dryRun with
  | true =>
    refine ⟨0, k, ?_⟩
    unfold RouteManager.flushInterfaceRoutes
    rw [if_pos hdry]
    rfl
  | false =>
    have hrefused : ¬ (rm.handle = none ∨ 255 < t) := fun hr => h ⟨hdry, hr⟩
    rw [not_or, not_lt] at hrefused
    have hl : Live rm := ⟨hdry, Option.isSome_iff_ne_none.mpr hrefused.1⟩
    obtain ⟨count, hok⟩ := (flushInterfaceRoutes_spec env hl name t k).1
      ⟨⟨hq k.clock, i, hi⟩, hrefused.2, hq k.tick.clock, hc k.tick .v4 t⟩
    exact ⟨count, _, hok⟩

/- Tracking and kernel stay in step exactly if the flush is refused or nothing is tracked on the
interface. -/
theorem flush_in_step_iff (env : Env) (hq : Quiet env)
    (hc : ∀ k v t, Clean (env.routeDump k v t)) (s : KernelExec) (hs : Installed env s)
    (name : String) (t : ℕ) :
    InStep env name t s ↔ Refused s.executor.routeManager t ∨
      ∀ n a, s.executor.activeRoutes.lookup n = some a → a.interface ≠ name := by
  apply Iff.intro
  · intro h
    by_contra hno
    rw [not_or] at hno
    obtain ⟨hreturns, htracked⟩ := hno
    push Not at htracked
    obtain ⟨n, a, ha, he⟩ := htracked
    obtain ⟨x, hx, hp, _, hlink⟩ := installed_owned hs ha
    rw [he] at hlink
    obtain ⟨count, k, hok⟩ := flush_returns hq hc hreturns hlink s.kernel
    -- the policy rule of the forgotten route is still there
    refine h.rules n x ((mem_iff_lookup _ n).mpr ⟨a, ha⟩) hx (flushedInterface_forgets hok ha he) ?_
    rw [flushedInterface_rules]
    exact hp
  · intro h
    have hkept : ∀ n x, n ∈ s.executor.activeRoutes → owned env s.history n = some x →
        n ∈ (flushedInterface env name t s).executor.activeRoutes ∧
          x.2 ∈ (flushedInterface env name t s).kernel.routes := by
      intro n x hn hx
      obtain ⟨a, ha⟩ := (mem_iff_lookup _ n).mp hn
      obtain ⟨x', hx', _, hroute, hlink⟩ := installed_owned hs ha
      obtain rfl := Option.some.inj (hx.symm.trans hx')
      rcases h with hrefused | hother
      · obtain ⟨e, k, he, hroutes⟩ := refused_fails env hrefused name s.kernel
        unfold flushedInterface
        rw [after_error (RuleExecutor.flushInterface_error he)]
        exact ⟨hn, hroutes x.2 hroute⟩
      · have hne := hother n a ha
        exact ⟨flushedInterface_active ha hne, flushedInterface_routes hroute fun hi =>
          hne (env.ifindex_inj _ _ _ hlink hi)⟩
    constructor
    · intro n x hn hx
      obtain ⟨hactive, hroute⟩ := hkept n x hn hx
      exact iff_of_false (fun h => h hactive) fun h => h hroute
    · intro n x hn hx hforgotten
      exact absurd (hkept n x hn hx).1 hforgotten

/-! ### One rule -/

/- The rule of the LAN has been applied in table 100. -/
def lanApplied : KernelExec :=
  after (RuleExecutor.applyRule noFault.plain lanRule 0 100)
    ⟨.new connected, .empty, []⟩

theorem lanApplied_active {n : String} {a : ActiveRoute}
    (ha : lanApplied.executor.activeRoutes.lookup n = some a) :
    n = "lan" ∧ a = ⟨"lan", "eth0", 100⟩ := by
  have hentries : lanApplied.executor.activeRoutes.entries =
      [⟨"lan", ⟨"lan", "eth0", 100⟩⟩] := by decide
  have hm := (mem_entries_iff _ n a).mpr ha
  rw [hentries] at hm
  cases List.mem_singleton.mp hm
  exact ⟨rfl, rfl⟩

theorem lanApplied_installed : Installed noFault lanApplied := by
  intro n a ha
  obtain ⟨rfl, rfl⟩ := lanApplied_active ha
  exact ⟨lanRule, 100, _, _, rfl, rfl, rfl, by decide, by decide⟩

/- The flush leaves the policy rule, whether it is of the rule's table or of another. -/
theorem lan_flush_out_of_step : Installed noFault lanApplied ∧
    ¬ InStep noFault "eth0" 100 lanApplied ∧ ¬ InStep noFault "eth0" 101 lanApplied := by
  refine ⟨lanApplied_installed, fun h => ?_, fun h => ?_⟩
  · exact h.rules "lan" _ (by decide) rfl (by decide) (by decide)
  · exact h.rules "lan" _ (by decide) rfl (by decide) (by decide)

theorem noFault_clean (k : KernelState) (v : IpVersion) (t : ℕ) :
    Clean (noFault.routeDump k v t) := by
  intro item hitem
  obtain ⟨r, _, rfl⟩ := List.mem_map.mp hitem
  rfl

theorem flush_in_step_wlan : InStep noFault "wlan0" 100 lanApplied := by
  refine (flush_in_step_iff noFault noFault_quiet noFault_clean lanApplied lanApplied_installed
    "wlan0" 100).mpr (.inr ?_)
  intro n a ha
  rw [(lanApplied_active ha).2]
  decide

end NicAutoswitch.Kernel.FlushTracking
