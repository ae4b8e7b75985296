import NicAutoswitch.Engine.Handlers
import NicAutoswitch.Kernel.FlushScope
import NicAutoswitch.Kernel.Tracking

/-!
# What a daemon leaves behind

Stopping clears the record of the active routes and sends no request, so what the
calls have put into the kernel stays there. The startup cleanup of the next daemon
visits a fixed list of tables, and for routes only IPv4.
-/

namespace NicAutoswitch.Kernel.Leftovers
open HashMaps Schema Monitor Router StateProg Engine Transition Tracking

/-! ### What the calls have put into the kernel -/

section History

variable {α : Type} (content : KernelState → List α) (x : α)

/- Some call has put the entry into the kernel. The history lists the newest call first,
each with the kernel it met; `k` is the kernel after them. -/
def Put : List (CallRecord KernelState) → KernelState → Prop
  | [], _ => False
  | c :: older, k => x ∉ content c.kernel ∧ x ∈ content k ∨ Put older c.kernel

def Applies (c : CallRecord KernelState) : Prop := ∃ rule t, c.call = .applyRule rule t

/- No call has put the entry into the kernel, or a later removal or cleanup has deleted it. -/
def Undone : List (CallRecord KernelState) → KernelState → Prop
  | [], _ => True
  | c :: older, k => ¬ (x ∉ content c.kernel ∧ x ∈ content k) ∧
      (x ∈ content c.kernel ∧ x ∉ content k ∧ ¬ Applies c ∨ Undone older c.kernel)

/- A call that applies a rule deletes nothing. -/
def AppliesGrow : List (CallRecord KernelState) → KernelState → Prop
  | [], _ => True
  | c :: older, k =>
    (Applies c → ∀ y ∈ content c.kernel, y ∈ content k) ∧ AppliesGrow older c.kernel

variable {content x}

/- An entry that was put into the kernel is gone exactly where a later call deleted it. -/
theorem gone_iff_undone {history : List (CallRecord KernelState)} {k : KernelState}
    (h : AppliesGrow content history k) :
    (Put content x history k → x ∉ content k) ↔ Undone content x history k := by
  induction history generalizing k with
  | nil => exact iff_of_true (fun hp => hp.elim) trivial
  | cons c older ih =>
    have hold := ih h.2
    unfold Put Undone
    rw [← hold]
    by_cases hc : x ∈ content c.kernel <;> by_cases hk : x ∈ content k
    · simp [hc, hk]
    · -- the call has deleted it, so it was no application
      have hn : ¬ Applies c := fun ha => hk (h.1 ha x hc)
      simp [hc, hk, hn]
    · simp [hc, hk]
    · simp [hc, hk]

end History

variable {env : Env}

theorem grow_calls (env : Env) {α : Type} (content : KernelState → List α) {rm : RouteManager}
    (hl : Live rm) (happly : ∀ (s : KernelExec) rule t, Live s.executor.routeManager →
      ∀ y ∈ content s.kernel,
        y ∈ content (after (RuleExecutor.applyRule env.plain rule 0 t) s).kernel) :
    CallsKeep env.plain fun s =>
      s.executor.routeManager = rm ∧ AppliesGrow content s.history s.kernel where
  apply rule t s h := by
    have hg := happly s rule t (h.1 ▸ hl)
    obtain ⟨e, k, ok, he, hexec⟩ := applyRule_cases env.plain rule t s
    rw [he] at hg ⊢
    refine ⟨?_, fun _ => hg, h.2⟩
    rcases hexec with rfl | rfl <;> exact h.1
  remove rule t s h := by
    obtain ⟨e, k, ok, he, hexec⟩ := removeRule_cases env.plain rule t s
    rw [he]
    refine ⟨?_, fun ha => ?_, h.2⟩
    · rcases hexec with rfl | rfl <;> exact h.1
    · obtain ⟨_, _, hc⟩ := ha
      cases hc
  cleanup s h := by
    obtain ⟨k, hk⟩ := sweep_ok env.plain s
    rw [after_ok hk]
    refine ⟨h.1, fun ha => ?_, h.2⟩
    obtain ⟨_, _, hc⟩ := ha
    cases hc

theorem applyRule_grows (rule : RouteRule) (t : ℕ) {s : KernelExec}
    (hl : Live s.executor.routeManager) :
    (∀ p ∈ s.kernel.rules,
        p ∈ (after (RuleExecutor.applyRule env.plain rule 0 t) s).kernel.rules) ∧
      ∀ q ∈ s.kernel.routes,
        q ∈ (after (RuleExecutor.applyRule env.plain rule 0 t) s).kernel.routes := by
  by_cases hc : ApplyCompletes env s.kernel rule
  · obtain ⟨d, hd⟩ := Option.isSome_iff_exists.mp hc.1.2
    obtain ⟨l, hi⟩ := Option.isSome_iff_exists.mp hc.2.2.2.1
    obtain ⟨k', he, hrules, hroutes⟩ := apply_done hl t hd hi hc
    rw [he]
    exact ⟨fun p hp => (hrules p).mpr (Or.inr hp), fun q hq => (hroutes q).mpr (Or.inr hq)⟩
  · obtain ⟨k', he, hrules, hroutes⟩ := apply_stopped hl t hc
    rw [he]
    exact ⟨hrules, hroutes⟩

theorem grow_run (env : Env) {rm : RouteManager} (hl : Live rm) (config : Config)
    (k : KernelState) (ops : List Dispatch.Op) :
    AppliesGrow KernelState.rules
        (run (Dispatch.perform env.plain) (Dispatch.launch config rm k) ops).history
        (run (Dispatch.perform env.plain) (Dispatch.launch config rm k) ops).kernel ∧
      AppliesGrow KernelState.routes
        (run (Dispatch.perform env.plain) (Dispatch.launch config rm k) ops).history
        (run (Dispatch.perform env.plain) (Dispatch.launch config rm k) ops).kernel := by
  have hrules := grow_calls env KernelState.rules hl
    fun s rule t hs => (applyRule_grows rule t hs).1
  have hroutes := grow_calls env KernelState.routes hl
    fun s rule t hs => (applyRule_grows rule t hs).2
  have h1 := run_keeps_all hrules (fun _ h => h) ops
    (s := Dispatch.launch config rm k) ⟨rfl, trivial⟩
  have h2 := run_keeps_all hroutes (fun _ h => h) ops
    (s := Dispatch.launch config rm k) ⟨rfl, trivial⟩
  exact ⟨h1.2, h2.2⟩

/-! ### Stopping -/

/- Nothing that the dispatcher has put into the kernel is there, and no route is active. -/
def Withdrawn (s : System KernelState) : Prop :=
  (∀ p, Put KernelState.rules p s.history s.kernel → p ∉ s.kernel.rules) ∧
    (∀ q, Put KernelState.routes q s.history s.kernel → q ∉ s.kernel.routes) ∧
      ∀ n, s.dispatcher.activeRoute n = none

/- Whatever the calls have put into the kernel, later ones have deleted. -/
def AllUndone (s : System KernelState) : Prop :=
  (∀ p, Undone KernelState.rules p s.history s.kernel) ∧
    ∀ q, Undone KernelState.routes q s.history s.kernel

/- Stopping withdraws nothing: all is withdrawn exactly where the run has already undone
all that it installed. -/
theorem stop_withdraws_iff (env : Env) {rm : RouteManager} (hl : Live rm) (config : Config)
    (k : KernelState) (ops : List Dispatch.Op) (s : System KernelState)
    (hs : s = run (Dispatch.perform env.plain) (Dispatch.launch config rm k) ops) :
    Withdrawn (Dispatch.perform env.plain s .stop) ↔ AllUndone s := by
  obtain ⟨hrules, hroutes⟩ := grow_run env hl config k ops
  rw [← hs] at hrules hroutes
  have hp := fun p => gone_iff_undone (x := p) hrules
  have hq := fun q => gone_iff_undone (x := q) hroutes
  have hnone : ∀ n, (Dispatch.perform env.plain s .stop).dispatcher.activeRoute n = none :=
    fun n => AList.lookup_empty n
  unfold Withdrawn AllUndone
  rw [and_iff_left hnone]
  exact and_congr (forall_congr' hp) (forall_congr' hq)

theorem stop_withdraws_iff_lan :
    Withdrawn (Dispatch.perform noFault.plain lanStarted .stop) ↔ AllUndone lanStarted :=
  stop_withdraws_iff noFault connected_live lanOnly .empty [.applyInitialState eth0Up] lanStarted
    rfl

theorem lan_rule_put :
    Put KernelState.rules ⟨lan, 100, 100⟩ lanStarted.history lanStarted.kernel := by
  obtain ⟨c, c', hh, _, hrules, _⟩ := start_history
  rw [hh]
  refine Or.inl ⟨?_, by decide⟩
  rw [hrules]
  exact List.not_mem_nil

/- The policy rule and the route are still in the kernel after the stop. -/
theorem lan_rule_outlives_stop :
    lanStarted.dispatcher.state = .running ∧
      ¬ Withdrawn (Dispatch.perform noFault.plain lanStarted .stop) := by
  refine ⟨by decide, fun h => ?_⟩
  exact absurd (h.1 ⟨lan, 100, 100⟩ lan_rule_put) (by decide)

/-! ### The startup cleanup -/

/- The dumps list exactly what they are asked for. -/
structure ExactDumps (env : Env) : Prop where
  routes_clean : ∀ k v t, Clean (env.routeDump k v t)
  mem_routes : ∀ k v t r,
    .ok r ∈ env.routeDump k v t ↔ r ∈ k.routes ∧ r.destination.version = v ∧ r.table = t
  rules_clean : ∀ k v, Clean (env.ruleDump k v)
  mem_rules : ∀ k v p, .ok p ∈ env.ruleDump k v ↔ p ∈ k.rules ∧ p.destination.version = v

section Cleanup

variable (hq : Quiet env) (he : ExactDumps env)
include hq

theorem mem_granted {ι : Type} (sel : ι → Bool) {items : List (Except RtError ι)}
    (hc : Clean items) (c : ℕ) (x : ι) :
    x ∈ granted env sel c items ↔ .ok x ∈ items ∧ sel x = true := by
  refine ⟨granted_listed, ?_⟩
  induction items generalizing c with
  | nil => exact fun h => absurd h.1 List.not_mem_nil
  | cons item rest ih =>
    cases item with
    | error e => exact absurd hc (not_clean_cons_error e rest)
    | ok y =>
      have hrest := (clean_cons_ok y rest).mp hc
      have hf : env.fault c = none := hq c
      intro h
      obtain ⟨hm, hx⟩ := h
      unfold granted
      rcases List.mem_cons.mp hm with heq | hm
      · cases heq
        rw [if_pos hx, if_pos hf]
        exact List.mem_cons_self
      · split_ifs
        · exact List.mem_cons_of_mem y (ih hrest (c + 1) ⟨hm, hx⟩)
        · exact ih hrest c ⟨hm, hx⟩

theorem mem_sweepDeletes {ι : Type} (sel : ι → Bool) (list : KernelState → List (Except RtError ι))
    (k : KernelState) (hc : Clean (list k)) (x : ι) :
    x ∈ sweepDeletes env sel list k ↔ .ok x ∈ list k ∧ sel x = true := by
  have hf : env.fault k.clock = none := hq k.clock
  unfold sweepDeletes
  rw [if_pos hf]
  exact mem_granted hq sel hc _ x

include he

theorem mem_flushDeletes {t : ℕ} (ht : t ≤ 255) (k : KernelState) (q : Route) :
    q ∈ flushDeletes env t k ↔ q ∈ k.routes ∧ q.destination.version = .v4 ∧ q.table = t := by
  unfold flushDeletes
  rw [if_pos ht, mem_sweepDeletes hq _ _ k (he.routes_clean k .v4 t), he.mem_routes]
  exact and_iff_left rfl

theorem mem_ruleDeletes {t : ℕ} (ht : t ≤ 255) (k : KernelState) (p : PolicyRule) :
    p ∈ ruleDeletes env t k ↔ p ∈ k.rules ∧ headerTable p.table = t := by
  have hlisted : Listed env (ruleList env .v4) k := ⟨hq k.clock, he.rules_clean k .v4⟩
  have hsel : inTable t p = true ↔ headerTable p.table = t := decide_eq_true_iff
  unfold ruleDeletes
  rw [if_pos ht, if_pos hlisted, List.mem_append, mem_sweepDeletes hq _ _ k (he.rules_clean k .v4),
    mem_sweepDeletes hq _ _ _ (he.rules_clean _ .v6), he.mem_rules, he.mem_rules, hsel,
    mem_rulePass, mem_sweepDeletes hq _ _ k (he.rules_clean k .v4), he.mem_rules, hsel]
  cases p.destination.version <;> simp

theorem mem_completeRules {t : ℕ} (ht : t ≤ 255) (k : KernelState) (p : PolicyRule) :
    p ∈ completeRules env t k ↔ p ∈ k.rules ∧ headerTable p.table = t := by
  have hlisted : Listed env (routeList env t) k := ⟨hq k.clock, he.routes_clean k .v4 t⟩
  unfold completeRules
  rw [if_pos ⟨ht, hlisted⟩, mem_ruleDeletes hq he ht, flushed_rules]

/- A sweep of tables below the reserved ones leaves IPv6 routes and other tables. -/
theorem mem_run_flushComplete {rm : RouteManager} (hl : Live rm) (tables : List ℕ)
    (ht : ∀ t ∈ tables, t < 252) (k : KernelState) :
    (∀ q, q ∈ (run (flushComplete env rm) k tables).routes ↔
        q ∈ k.routes ∧ ¬ (q.destination.version = .v4 ∧ q.table ∈ tables)) ∧
      ∀ p, p ∈ (run (flushComplete env rm) k tables).rules ↔ p ∈ k.rules ∧ p.table ∉ tables := by
  induction tables generalizing k with
  | nil => exact ⟨fun q => by simp [run], fun p => by simp [run]⟩
  | cons t rest ih =>
    have htt := ht t List.mem_cons_self
    have hle : t ≤ 255 := by omega
    obtain ⟨hroutes, hrules⟩ := ih (fun u hu => ht u (List.mem_cons_of_mem t hu))
      (flushComplete env rm k t)
    refine ⟨fun q => ?_, fun p => ?_⟩
    · rw [run_cons, hroutes, mem_flushComplete hl, mem_flushDeletes hq he hle, List.mem_cons]
      tauto
    · have hheader : headerTable p.table = t ↔ p.table = t := by
        unfold headerTable
        split_ifs <;> omega
      rw [run_cons, hrules, mem_flushComplete_rules hl, mem_completeRules hq he hle, hheader,
        List.mem_cons]
      tauto

end Cleanup

theorem mem_staleTables (base t : ℕ) :
    t ∈ Dispatch.staleTables base ↔ base ≤ t ∧ t < base + 32 ∨ 200 ≤ t ∧ t < 232 := by
  unfold Dispatch.staleTables Dispatch.maxInterfaces
  simp only [List.mem_flatMap, List.mem_range, List.mem_cons, List.not_mem_nil, or_false]
  apply Iff.intro
  · intro h
    obtain ⟨idx, hidx, rfl | rfl⟩ := h
    · exact Or.inl ⟨by omega, by omega⟩
    · exact Or.inr ⟨by omega, by omega⟩
  · intro h
    rcases h with h | h
    · exact ⟨t - base, by omega, Or.inl (by omega)⟩
    · exact ⟨t - 200, by omega, Or.inr (by omega)⟩

/- Of what the calls of the daemon have put into the kernel, nothing is in `k`. -/
def NoneLeft (s : System KernelState) (k : KernelState) : Prop :=
  (∀ p, Put KernelState.rules p s.history s.kernel → p ∉ k.rules) ∧
    ∀ q, Put KernelState.routes q s.history s.kernel → q ∉ k.routes

/- What the daemon has left in the kernel lies in a table that the cleanup visits, and
the routes are IPv4. -/
def Covered (base : ℕ) (s : System KernelState) : Prop :=
  (∀ p, Put KernelState.rules p s.history s.kernel → p ∈ s.kernel.rules →
      p.table ∈ Dispatch.staleTables base) ∧
    ∀ q, Put KernelState.routes q s.history s.kernel → q ∈ s.kernel.routes →
      q.destination.version = .v4 ∧ q.table ∈ Dispatch.staleTables base

/- An earlier daemon may have been killed at any point: its requests fail from then on.
The cleanup of the next one leaves nothing of it exactly where it has used only the
tables that the cleanup visits, and no IPv6 route. -/
theorem clean_slate_iff (killed env : Env) (hq : Quiet env) (he : ExactDumps env) (config : Config)
    (rm : RouteManager) (k : KernelState) (ops : List Dispatch.Op) (next : EventDispatcher)
    (hl : Live next.executor.routeManager)
    (hbase : next.executor.routeManager.baseTableId = rm.baseTableId) :
    NoneLeft (run (Dispatch.perform killed.plain) (Dispatch.launch config rm k) ops)
        (after (Dispatch.cleanupStaleTables env.plain)
          ⟨next, (run (Dispatch.perform killed.plain) (Dispatch.launch config rm k) ops).kernel,
            []⟩).kernel ↔
      Covered rm.baseTableId
        (run (Dispatch.perform killed.plain) (Dispatch.launch config rm k) ops) := by
  have hbounds := rm.base_mem
  unfold ipv4TableStart ipv4TableEnd at hbounds
  have htables : ∀ t ∈ Dispatch.staleTables rm.baseTableId, t < 252 := by
    intro t ht
    rw [mem_staleTables] at ht
    omega
  obtain ⟨hroutes, hrules⟩ := mem_run_flushComplete hq he hl _ htables
    (run (Dispatch.perform killed.plain) (Dispatch.launch config rm k) ops).kernel
  have htable : next.executor.routeManager.tableIdV4 0 = rm.baseTableId := hbase
  unfold NoneLeft Covered
  rw [FlushScope.cleanup_kernel, htable]
  refine and_congr (forall_congr' fun p => imp_congr_right fun _ => ?_)
    (forall_congr' fun q => imp_congr_right fun _ => ?_)
  · rw [hrules]
    tauto
  · rw [hroutes]
    tauto

theorem clean_dump {ι : Type} (xs : List ι) : Clean (xs.map Except.ok) := by
  intro item h
  obtain ⟨x, _, rfl⟩ := List.mem_map.mp h
  rfl

theorem mem_dump {ι : Type} (xs : List ι) (P : ι → Prop) [DecidablePred P] (x : ι) :
    (.ok x : Except RtError ι) ∈ (xs.filter fun y => P y).map Except.ok ↔ x ∈ xs ∧ P x := by
  rw [List.mem_map_of_injective fun _ _ h => Except.ok.inj h, List.mem_filter, decide_eq_true_iff]

/- The links of `noFault`, with a dump that lists the routes of the requested table alone. -/
def tableDumps : Env where
  __ := noFault
  routeDump k v t :=
    (k.routes.filter fun r => r.destination.version = v ∧ r.table = t).map .ok
  routeDump_mem k v t r h := by
    obtain ⟨hr, hv, _⟩ := (mem_dump k.routes _ r).mp h
    exact ⟨hr, hv⟩

theorem tableDumps_quiet : Quiet tableDumps := fun _ => rfl

theorem tableDumps_exact : ExactDumps tableDumps where
  routes_clean _ _ _ := clean_dump _
  mem_routes k _ _ r := mem_dump k.routes _ r
  rules_clean _ _ := clean_dump _
  mem_rules k _ p := mem_dump k.rules _ p

theorem clean_slate_iff_lan :
    NoneLeft lanStarted (after (Dispatch.cleanupStaleTables tableDumps.plain)
        ⟨.new lanOnly connected, lanStarted.kernel, []⟩).kernel ↔
      Covered 100 lanStarted :=
  clean_slate_iff noFault tableDumps tableDumps_quiet tableDumps_exact lanOnly connected .empty
    [.applyInitialState eth0Up] (.new lanOnly connected) connected_live rfl

/- A host whose one rule is for IPv6. -/
def lan6 : IpNetwork := .v6 ⟨0xfd000000000000000000000000000000, 8, len8_v6⟩

def lan6Only : Config := { lanOnly with routing := ⟨[⟨"lan6", .cidr lan6, ⟨"eth0"⟩, 100⟩]⟩ }

def lan6Started : System KernelState :=
  run (Dispatch.perform noFault.plain) (Dispatch.launch lan6Only connected .empty)
    [.applyInitialState eth0Up]

/- The cleanup of the next daemon leaves the route in table 100. -/
theorem lan6_route_survives :
    lan6Only.validate = .ok () ∧
      ¬ NoneLeft lan6Started (after (Dispatch.cleanupStaleTables tableDumps.plain)
        ⟨.new lan6Only connected, lan6Started.kernel, []⟩).kernel := by
  refine ⟨by decide +kernel, fun h => ?_⟩
  have hput : Put KernelState.routes ⟨100, lan6, 100, 2⟩ lan6Started.history
      lan6Started.kernel := by
    have hcalls : lan6Started.history.map (fun c => c.kernel.routes) = [[], []] := by decide
    obtain ⟨c, rest, hh, hc, _⟩ := List.map_eq_cons_iff.mp hcalls
    rw [hh]
    refine Or.inl ⟨?_, by decide⟩
    rw [hc]
    exact List.not_mem_nil
  exact absurd (by decide) (h.2 ⟨100, lan6, 100, 2⟩ hput)

end NicAutoswitch.Kernel.Leftovers
