import NicAutoswitch.Kernel.Removal
import NicAutoswitch.Kernel.Tracking
import NicAutoswitch.Lib.Selection

/-!
# What is left of a lost interface

For each active route via the interface, the handler looks up a rule by name in the
current configuration, and removes what that rule names. The deletes of routes to one
destination in one table take the routes of lowest metric, whosever they are.
-/

namespace NicAutoswitch.Kernel.DownCleanup
open HashMaps Schema Monitor Router StateProg Engine Transition Removal Tracking Selection

variable {env : Env}

/-! ### The routes to a destination -/

def routesTo (k : KernelState) (t : ℕ) (d : IpNetwork) : List Route :=
  k.routes.filter fun r => r.table = t ∧ r.destination = d

theorem mem_routesTo {k : KernelState} {t : ℕ} {d : IpNetwork} {q : Route} :
    q ∈ routesTo k t d ↔ q ∈ k.routes ∧ q.table = t ∧ q.destination = d := by
  unfold routesTo
  rw [List.mem_filter, decide_eq_true_iff]

theorem routesTo_nodup (k : KernelState) (t : ℕ) (d : IpNetwork) : (routesTo k t d).Nodup :=
  k.routes_nodup.filter _

theorem pick_routesTo (k : KernelState) (t : ℕ) (d : IpNetwork) :
    k.pick t d none none = (routesTo k t d).argmin Route.metric := by
  have hnamed : ∀ r, KernelState.Named t d none none r ↔ r.table = t ∧ r.destination = d := by
    intro r
    refine ⟨fun h => ⟨h.1, h.2.1⟩, fun h => ⟨h.1, h.2, rfl, rfl⟩⟩
  unfold KernelState.pick routesTo
  simp only [hnamed]

/- Taking the least route of one kind leaves the routes of other kinds. -/
theorem routesTo_taken {k k' : KernelState} {t : ℕ} {d : IpNetwork} {x : Route}
    (hx : k.pick t d none none = some x) (h : k'.routes = k.routes.erase x) (t' : ℕ)
    (d' : IpNetwork) :
    routesTo k' t' d' =
      if t = t' ∧ d = d' then eraseLeast Route.metric (routesTo k t' d') else routesTo k t' d' := by
  obtain ⟨_, ht, hd, _, _⟩ := KernelState.pick_some hx
  have hfilter : routesTo k' t' d' = (routesTo k t' d').filter fun r => r != x := by
    unfold routesTo
    rw [h, k.routes_nodup.erase_eq_filter, List.filter_filter, List.filter_filter]
    exact List.filter_congr fun r _ => Bool.and_comm _ _
  rw [hfilter]
  split_ifs with hc
  · obtain ⟨rfl, rfl⟩ := hc
    unfold eraseLeast
    rw [← pick_routesTo, hx]
    exact ((routesTo_nodup k t d).erase_eq_filter x).symm
  · refine List.filter_eq_self.mpr fun r hr => ?_
    obtain ⟨_, hrt, hrd⟩ := mem_routesTo.mp hr
    refine bne_iff_ne.mpr fun he => hc ?_
    rw [he] at hrt hrd
    exact ⟨ht.symm.trans hrt, hd.symm.trans hrd⟩

theorem eraseLeast_none {k : KernelState} {t : ℕ} {d : IpNetwork}
    (hx : k.pick t d none none = none) :
    eraseLeast Route.metric (routesTo k t d) = routesTo k t d := by
  unfold eraseLeast
  rw [← pick_routesTo, hx]

/-! ### What the loop deletes -/

/- The policy rule that the loop deletes for an entry. -/
def named? (rules : HashMap String RouteRule) (e : String × ℕ) : Option PolicyRule :=
  (rules.lookup e.1).bind fun rule =>
    (RuleOperator.target? rule).map fun d => ⟨d, e.2, rule.priority⟩

section Loop

variable {rules : HashMap String RouteRule} (hrules : ∀ n r, rules.lookup n = some r → r.name = n)

theorem removeOne_rules {s : System KernelState} {e : String × ℕ}
    (hl : Live s.dispatcher.executor.routeManager) (hq : Quiet env) (he : Due rules e)
    (p : PolicyRule) :
    p ∈ (removeOne env.plain rules s e).kernel.rules ↔
      p ∈ s.kernel.rules ∧ named? rules e ≠ some p := by
  obtain ⟨d, hd⟩ := Option.isSome_iff_exists.mp he.1
  obtain ⟨rule, hr, htarget⟩ := Option.bind_eq_some_iff.mp hd
  have hnamed : named? rules e = some ⟨d, e.2, rule.priority⟩ := by
    unfold named?
    rw [hr, Option.bind_some, htarget]
    rfl
  have hdrop : (removeOne env.plain rules s e).kernel.rules =
      (s.kernel.dropRule ⟨d, e.2, rule.priority⟩).rules := by
    unfold removeOne
    rw [hr]
    cases hx : s.kernel.pick e.2 d none none with
    | some x =>
      have hok := executor_present (s := s.execState) hl hq htarget he.2 hx
      simp only [after_ok hok]
      rfl
    | none =>
      obtain ⟨err, herr⟩ := executor_absent (s := s.execState) hl hq htarget he.2 hx
      simp only [after_error herr]
      rfl
  rw [hdrop, KernelState.mem_dropRule, hnamed, Option.some_inj.ne, ne_comm, and_comm]

include hrules

theorem removeOne_routesTo {s : System KernelState} {e : String × ℕ}
    (hl : Live s.dispatcher.executor.routeManager) (hq : Quiet env) (he : Due rules e) (t : ℕ)
    (d : IpNetwork) :
    routesTo (removeOne env.plain rules s e).kernel t d =
      if e.2 = t ∧ destination? rules e.1 = some d then
        eraseLeast Route.metric (routesTo s.kernel t d)
      else routesTo s.kernel t d := by
  obtain ⟨d0, hd⟩ := Option.isSome_iff_exists.mp he.1
  simp only [hd, Option.some_inj]
  rcases removeOne_cases hrules hl hq hd he.2 with ⟨x, hx, hroutes, _⟩ | ⟨hx, hroutes, _⟩
  · exact routesTo_taken hx hroutes t d
  · have hsame : routesTo (removeOne env.plain rules s e).kernel t d = routesTo s.kernel t d := by
      unfold routesTo
      rw [hroutes]
    rw [hsame]
    split_ifs with hc
    · obtain ⟨rfl, rfl⟩ := hc
      exact (eraseLeast_none hx).symm
    · rfl

/- For each kind of route, the loop takes as many as it has entries that need one. -/
theorem removeLoop_routesTo {todo : List (String × ℕ)} {s : System KernelState}
    (hl : Live s.dispatcher.executor.routeManager) (hq : Quiet env)
    (hdue : ∀ e ∈ todo, Due rules e) (t : ℕ) (d : IpNetwork) :
    routesTo (run (removeOne env.plain rules) s todo).kernel t d =
      (eraseLeast Route.metric)^[needed rules todo t d] (routesTo s.kernel t d) := by
  induction todo generalizing s with
  | nil => rfl
  | cons e rest ih =>
    have he := hdue e List.mem_cons_self
    have hm := removeOne_manager hrules e hl hq
    rw [run_cons, ih (hm ▸ hl) fun x hx => hdue x (List.mem_cons_of_mem e hx),
      removeOne_routesTo hrules hl hq he, needed_cons]
    split_ifs
    · rw [Function.iterate_succ_apply]
    · rfl

theorem removeLoop_rules {todo : List (String × ℕ)} {s : System KernelState}
    (hl : Live s.dispatcher.executor.routeManager) (hq : Quiet env)
    (hdue : ∀ e ∈ todo, Due rules e) (p : PolicyRule) :
    p ∈ (run (removeOne env.plain rules) s todo).kernel.rules ↔
      p ∈ s.kernel.rules ∧ ∀ e ∈ todo, named? rules e ≠ some p := by
  induction todo generalizing s with
  | nil => exact (and_iff_left fun e he => absurd he List.not_mem_nil).symm
  | cons e rest ih =>
    have hm := removeOne_manager hrules e hl hq
    rw [run_cons, ih (hm ▸ hl) fun x hx => hdue x (List.mem_cons_of_mem e hx),
      removeOne_rules hl hq (hdue e List.mem_cons_self), List.forall_mem_cons, and_assoc]

/- A route stays exactly where enough others are taken before it. -/
theorem mem_removeLoop_routes {todo : List (String × ℕ)} {s : System KernelState}
    (hl : Live s.dispatcher.executor.routeManager) (hq : Quiet env)
    (hdue : ∀ e ∈ todo, Due rules e) (q : Route) :
    q ∈ (run (removeOne env.plain rules) s todo).kernel.routes ↔
      q ∈ s.kernel.routes ∧ needed rules todo q.table q.destination ≤
        rank Route.metric (routesTo s.kernel q.table q.destination) q := by
  have hself : ∀ k : KernelState, q ∈ routesTo k q.table q.destination ↔ q ∈ k.routes :=
    fun k => mem_routesTo.trans (and_iff_left ⟨rfl, rfl⟩)
  rw [← hself, removeLoop_routesTo hrules hl hq hdue, ← hself s.kernel]
  exact mem_eraseLeast_iterate Route.metric _ (routesTo_nodup s.kernel q.table q.destination) q

end Loop

/-! ### After the event -/

/- No route via the interface is active, nothing that one stood for is in the kernel, and
the other active routes are there with what they have in the kernel. -/
structure CleanedUp (env : Env) (i : String) (s s' : System KernelState) : Prop where
  none_via : NoneVia i s'.dispatcher
  gone : ∀ n a x, s.dispatcher.activeRoute n = some a → a.interface = i →
    owned env s.history n = some x → x.1 ∉ s'.kernel.rules ∧ x.2 ∉ s'.kernel.routes
  kept : ∀ n a, s.dispatcher.activeRoute n = some a → a.interface ≠ i →
    s'.dispatcher.activeRoute n = some a ∧
      ∀ x, owned env s.history n = some x →
        (x.1 ∈ s'.kernel.rules ↔ x.1 ∈ s.kernel.rules) ∧
          (x.2 ∈ s'.kernel.routes ↔ x.2 ∈ s.kernel.routes)

/- The policy rule is that of the current rule under the name of an active route via the
interface. -/
def Named (d : EventDispatcher) (i : String) (p : PolicyRule) : Prop :=
  ∃ n a, d.activeRoute n = some a ∧ a.interface = i ∧
    named? (EventDispatcher.rulesMap d.config) (n, a.tableId) = some p

/- Of the routes to its destination in its table, those that go before the route are
fewer than the event takes. -/
def Reached (order : RouteOrder) (s : System KernelState) (i : String) (q : Route) : Prop :=
  rank Route.metric (routesTo s.kernel q.table q.destination) q <
    demand order s.dispatcher i q.table q.destination

/- The current configuration has a rule that can be removed for each active route via the
interface, the kernel has as many routes as they need, and what the rules name and the
deletes reach is what these active routes have in the kernel, and nothing of the others. -/
structure DownSafe (env : Env) (order : RouteOrder) (i : String) (s : System KernelState) :
    Prop where
  due : ∀ n a, s.dispatcher.activeRoute n = some a → a.interface = i →
    Due (EventDispatcher.rulesMap s.dispatcher.config) (n, a.tableId)
  enough : ∀ t d, demand order s.dispatcher i t d ≤ remaining s.kernel t d
  own : ∀ n a x, s.dispatcher.activeRoute n = some a → a.interface = i →
    owned env s.history n = some x →
      (x.1 ∈ s.kernel.rules → Named s.dispatcher i x.1) ∧
        (x.2 ∈ s.kernel.routes → Reached order s i x.2)
  others : ∀ n a x, s.dispatcher.activeRoute n = some a → a.interface ≠ i →
    owned env s.history n = some x →
      (x.1 ∈ s.kernel.rules → ¬ Named s.dispatcher i x.1) ∧
        (x.2 ∈ s.kernel.routes → ¬ Reached order s i x.2)

section Event

variable (order : RouteOrder) {i : String} {change : InterfaceChange} {s s' : System KernelState}

/- What the event does where every active route via the interface is due for removal. -/
theorem lost_kernel (hq : Quiet env) (hc : change = .down ∨ change = .removed)
    (hl : Live s.dispatcher.executor.routeManager) (hr : s.dispatcher.state = .running)
    (hs : s' = Dispatch.perform env.plain s (.handleEvent order (.interfaceChanged i change)))
    (hdue : ∀ n a, s.dispatcher.activeRoute n = some a → a.interface = i →
      Due (EventDispatcher.rulesMap s.dispatcher.config) (n, a.tableId)) :
    (∀ p, p ∈ s'.kernel.rules ↔ p ∈ s.kernel.rules ∧ ¬ Named s.dispatcher i p) ∧
      ∀ q, q ∈ s'.kernel.routes ↔ q ∈ s.kernel.routes ∧ ¬ Reached order s i q := by
  have hrules := EventDispatcher.rulesMap_name s.dispatcher.config
  have hdue' := (EventDispatcher.forall_dependentRoutes order s.dispatcher i _).mpr hdue
  rw [hs, perform_lost order i hc hr]
  refine ⟨fun p => ?_, fun q => ?_⟩
  · rw [removeLoop_rules (s := observed (.interfaceChanged i change) s) hrules hl hq hdue' p,
      EventDispatcher.forall_dependentRoutes]
    refine and_congr_right fun _ => ⟨fun h hn => ?_, fun h n a ha hi hp => ?_⟩
    · obtain ⟨n, a, ha, hi, hp⟩ := hn
      exact h n a ha hi hp
    · exact h ⟨n, a, ha, hi, hp⟩
  · rw [mem_removeLoop_routes (s := observed (.interfaceChanged i change) s) hrules hl hq hdue' q]
    exact and_congr_right fun _ => not_lt.symm

/- The active routes via other interfaces stay in any case. -/
theorem lost_others (hq : Quiet env) (hc : change = .down ∨ change = .removed)
    (hl : Live s.dispatcher.executor.routeManager) (hr : s.dispatcher.state = .running)
    {n : String} {a : ActiveRoute} (ha : s.dispatcher.activeRoute n = some a)
    (hi : a.interface ≠ i) :
    (Dispatch.perform env.plain s (.handleEvent order (.interfaceChanged i change))
      ).dispatcher.activeRoute n = some a := by
  have hrules := EventDispatcher.rulesMap_name s.dispatcher.config
  have hn : n ∉ (EventDispatcher.dependentRoutes order s.dispatcher.executor.activeRoutes i).map
      Prod.fst := by
    intro hm
    obtain ⟨e, he, rfl⟩ := List.mem_map.mp hm
    obtain ⟨b, hb, hbi, _⟩ := (EventDispatcher.mem_dependentRoutes order _ i e.1 e.2).mp he
    exact hi (Option.some_inj.mp (ha.symm.trans hb) ▸ hbi)
  rw [perform_lost order i hc hr,
    removeLoop_other (s := observed (.interfaceChanged i change) s) hrules hl hq hn]
  exact ha

end Event

/- A Down or Removed event cleans up after the interface and leaves the rest exactly where
the current configuration still describes what was installed, and the routes that its
deletes reach are those of the interface. -/
theorem down_cleans_up_iff (env : Env) (hq : Quiet env) {rm : RouteManager} (hl : Live rm)
    (config : Config) (k : KernelState) (ops : List Dispatch.Op) (s : System KernelState)
    (hs : s = run (Dispatch.perform env.plain) (Dispatch.launch config rm k) ops)
    (hr : s.dispatcher.state = .running) (order : RouteOrder) (i : String)
    {change : InterfaceChange} (hc : change = .down ∨ change = .removed) :
    CleanedUp env i s
        (Dispatch.perform env.plain s (.handleEvent order (.interfaceChanged i change))) ↔
      DownSafe env order i s := by
  have hm : s.dispatcher.executor.routeManager = rm := hs ▸ (known_run env hl config k ops).1
  have hlive : Live s.dispatcher.executor.routeManager := hm ▸ hl
  have hnone := noneVia_iff hq order i hc hlive hr
  apply Iff.intro
  · intro h
    obtain ⟨hdue, henough⟩ := hnone.mp h.none_via
    obtain ⟨hrules, hroutes⟩ := lost_kernel order hq hc hlive hr rfl hdue
    refine ⟨hdue, henough, fun n a x ha hi hx => ?_, fun n a x ha hi hx => ?_⟩
    · obtain ⟨hp, hq'⟩ := h.gone n a x ha hi hx
      rw [hrules, not_and, not_not] at hp
      rw [hroutes, not_and, not_not] at hq'
      exact ⟨hp, hq'⟩
    · obtain ⟨hp, hq'⟩ := (h.kept n a ha hi).2 x hx
      rw [hrules] at hp
      rw [hroutes] at hq'
      exact ⟨fun hin => (hp.mpr hin).2, fun hin => (hq'.mpr hin).2⟩
  · intro h
    obtain ⟨hrules, hroutes⟩ := lost_kernel order hq hc hlive hr rfl h.due
    refine ⟨hnone.mpr ⟨h.due, h.enough⟩, fun n a x ha hi hx => ?_, fun n a ha hi => ⟨?_, ?_⟩⟩
    · obtain ⟨hp, hq'⟩ := h.own n a x ha hi hx
      rw [hrules, hroutes, not_and, not_not, not_and, not_not]
      exact ⟨hp, hq'⟩
    · exact lost_others order hq hc hlive hr ha hi
    · intro x hx
      obtain ⟨hp, hq'⟩ := h.others n a x ha hi hx
      rw [hrules, hroutes]
      exact ⟨and_iff_left_of_imp hp, and_iff_left_of_imp hq'⟩

theorem down_cleans_up_iff_lan :
    CleanedUp noFault "eth0" lanStarted
        (Dispatch.perform noFault.plain lanStarted
          (.handleEvent .asListed (.interfaceChanged "eth0" .down))) ↔
      DownSafe noFault .asListed "eth0" lanStarted :=
  down_cleans_up_iff noFault noFault_quiet connected_live lanOnly .empty
    [.applyInitialState eth0Up] lanStarted rfl (by decide) .asListed "eth0" (Or.inl rfl)

/- A reload drops the only rule. -/
def lanDropped : Config := { lanOnly with routing := ⟨[]⟩ }

def reloaded : System KernelState :=
  Dispatch.perform noFault.plain lanStarted (.updateConfig lanDropped)

/- The event finds no rule under the name of the active route, which stays, with all that
is installed for it. -/
theorem dropped_rule_not_cleaned_up :
    lanDropped.validate = .ok () ∧
      ¬ CleanedUp noFault "eth0" reloaded (Dispatch.perform noFault.plain reloaded
        (.handleEvent .asListed (.interfaceChanged "eth0" .down))) := by
  refine ⟨by decide +kernel, fun h => ?_⟩
  exact h.none_via "lan" ⟨"lan", "eth0", 100⟩ (by decide) rfl

end NicAutoswitch.Kernel.DownCleanup
