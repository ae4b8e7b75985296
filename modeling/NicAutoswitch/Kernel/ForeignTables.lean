import NicAutoswitch.Kernel.Footprint

/-!
# Tables that are not the daemon's

The requests of a call name the table that the call has been given, and the startup cleanup
visits a fixed range of tables. Entries of other tables are neither added nor deleted, as long
as the dumps list what they are asked for.
-/

namespace NicAutoswitch.Kernel.ForeignTables
open Router StateProg Engine Transition Linux Footprint

/- The table that a call has been given. -/
def given? : ExecutorCall → Option ℕ
  | .applyRule _ t => some t
  | .removeRule _ t => some t
  | .cleanup => none

/- The startup cleanup does not visit the table, and no call of the history has been given it. -/
structure Foreign (rm : RouteManager) (history : List (CallRecord KernelState)) (t : ℕ) : Prop where
  unvisited : t ∉ Dispatch.staleTables (rm.tableIdV4 0)
  ungiven : ∀ c ∈ history, given? c.call ≠ some t

/- The dumps list routes of the table that they are asked for. -/
def Strict (env : Env) : Prop := ∀ k v t q, .ok q ∈ env.routeDump k v t → q.table = t

/- The table has the policy rules that it had, and as far as the dumps are strict the routes. -/
structure SameTable (env : Env) (t : ℕ) (k k' : KernelState) : Prop where
  rules : ∀ p, p.table = t → (p ∈ k'.rules ↔ p ∈ k.rules)
  routes : Strict env → ∀ q, q.table = t → (q ∈ k'.routes ↔ q ∈ k.routes)

/- No call has been given table 0, which Linux takes for any table. -/
def Named (history : List (CallRecord KernelState)) : Prop := ∀ c ∈ history, given? c.call ≠ some 0

/- What is in a foreign table is as it was. -/
structure Spared (env : Env) (rm : RouteManager) (k : KernelState) (s : ExecutorState KernelState) :
    Prop where
  manager : s.executor.routeManager = rm
  same : Named s.history → ∀ t, Foreign rm s.history t → SameTable env t k s.kernel

variable {env : Env} {rm : RouteManager} {f : Footprint} {k : KernelState} {t : ℕ}

theorem sameTable_refl (env : Env) (t : ℕ) (k : KernelState) : SameTable env t k k :=
  ⟨fun _ _ => Iff.rfl, fun _ _ _ => Iff.rfl⟩

theorem Foreign.older {c : CallRecord KernelState} {older : List (CallRecord KernelState)}
    (h : Foreign rm (c :: older) t) : Foreign rm older t :=
  ⟨h.unvisited, fun c' hc' => h.ungiven c' (List.mem_cons_of_mem c hc')⟩

/-! ### Footprints beside the table -/

theorem keeps_rules (ha : ∀ p, f.addRule p → p.table ≠ t) (hd : ∀ p, f.dropRule p → p.table ≠ t) :
    Keeps f fun k' => ∀ p, p.table = t → (p ∈ k'.rules ↔ p ∈ k.rules) where
  tick _ h := h
  addRule k' p hp h q hq := by
    rw [KernelState.mem_addRule]
    refine (or_iff_right fun he => ?_).trans (h q hq)
    exact ha p hp (he ▸ hq)
  dropRule k' p hp h q hq := by
    rw [KernelState.mem_dropRule]
    refine (and_iff_right fun he => ?_).trans (h q hq)
    exact hd p hp (he ▸ hq)
  addRoute k' q _ h := by
    rw [KernelState.addRoute_rules]
    exact h
  dropRoute k' q _ h := h

theorem keeps_routes (ha : ∀ q, f.addRoute q → q.table ≠ t)
    (hd : ∀ q, f.dropRoute q → q.table ≠ t) :
    Keeps f fun k' => ∀ q, q.table = t → (q ∈ k'.routes ↔ q ∈ k.routes) where
  tick _ h := h
  addRule k' p _ h := by
    rw [KernelState.addRule_routes]
    exact h
  dropRule k' p _ h := h
  addRoute k' r hr h q hq := by
    rw [KernelState.mem_addRoute]
    refine (or_iff_right fun he => ?_).trans (h q hq)
    exact ha r hr (he ▸ hq)
  dropRoute k' r hr h q hq := by
    rw [KernelState.mem_dropRoute]
    refine (and_iff_right fun he => ?_).trans (h q hq)
    exact hd r hr (he ▸ hq)

/- A header that the cleanup looks for is that of one table alone. -/
theorem headerTable_stale (rm : RouteManager) {t u : ℕ}
    (ht : t ∈ Dispatch.staleTables (rm.tableIdV4 0)) (h : headerTable u = t) : u = t := by
  have hbounds := rm.base_mem
  unfold ipv4TableStart ipv4TableEnd at hbounds
  rw [Leftovers.mem_staleTables] at ht
  unfold RouteManager.tableIdV4 at ht
  unfold headerTable at h
  split_ifs at h <;> omega

/- What a call may change is beside a table that it has not been given. -/
theorem ofCall_beside (env : Env) (rm : RouteManager) {call : ExecutorCall}
    (ht : t ∉ Dispatch.staleTables (rm.tableIdV4 0)) (hg : given? call ≠ some t)
    (hz : given? call ≠ some 0) :
    ((∀ p, (ofCall env rm call).addRule p → p.table ≠ t) ∧
        ∀ p, (ofCall env rm call).dropRule p → p.table ≠ t) ∧
      (∀ q, (ofCall env rm call).addRoute q → q.table ≠ t) ∧
        (Strict env → ∀ q, (ofCall env rm call).dropRoute q → q.table ≠ t) := by
  cases call with
  | applyRule rule u =>
    have hne : u ≠ t := fun he => hg (congrArg some he)
    refine ⟨⟨?_, nofun⟩, ?_, fun _ => nofun⟩
    · rintro p ⟨d, _, rfl⟩
      exact hne
    · rintro q ⟨d, _, hq⟩
      obtain ⟨i, d', _, _, rfl⟩ := route?_some hq
      exact hne
  | removeRule rule u =>
    have hne : u ≠ t := fun he => hg (congrArg some he)
    refine ⟨⟨nofun, ?_⟩, nofun, fun _ => nofun⟩
    rintro p ⟨d, v, _, hp⟩ he
    have htable : u = 0 ∨ p.table = u := hp.2.1
    rcases htable with hzero | hown
    · exact hz (congrArg some hzero)
    · exact hne (hown.symm.trans he)
  | cleanup =>
    refine ⟨⟨nofun, ?_⟩, nofun, fun hstrict => ?_⟩
    · rintro p ⟨u, hu, p', hheader, hp⟩ he
      -- the dump has listed a rule of the table itself, which is not table 0
      have hown : p'.table = u := headerTable_stale rm hu hheader
      have hbase := rm.base_mem.1
      unfold ipv4TableStart at hbase
      rw [Leftovers.mem_staleTables] at hu
      unfold RouteManager.tableIdV4 at hu
      have hsame : p.table = p'.table := hp.resolve_left (by omega)
      rw [← he, hsame, hown] at ht
      exact ht ((Leftovers.mem_staleTables _ _).mpr hu)
    · rintro q ⟨u, hu, k', q', hlisted, hq⟩ he
      exact ht (he ▸ hq ▸ (hstrict _ _ _ _ hlisted).symm ▸ hu)

/-! ### Runs -/

theorem callsKeep_spared (env : Env) (rm : RouteManager) (k : KernelState) :
    CallsKeep env.linux (Spared env rm k) := by
  refine callsKeep_of_footprint fun s s' call hc hs => ?_
  obtain ⟨ok, hhistory⟩ := hc.history
  refine ⟨hc.manager.trans hs.manager, fun hnamed t ht => ?_⟩
  rw [hhistory] at hnamed ht
  have hsame := hs.same (fun c hm => hnamed c (List.mem_cons_of_mem _ hm)) t ht.older
  have hbeside := ofCall_beside env s.executor.routeManager (hs.manager.symm ▸ ht.unvisited)
    (ht.ungiven _ List.mem_cons_self) (hnamed _ List.mem_cons_self)
  obtain ⟨⟨haddRule, hdropRule⟩, haddRoute, hdropRoute⟩ := hbeside
  refine ⟨?_, fun hstrict => ?_⟩
  · exact hc.kernel _ (keeps_rules haddRule hdropRule) hsame.rules
  · exact hc.kernel _ (keeps_routes haddRoute (hdropRoute hstrict)) (hsame.routes hstrict)

/- Whatever requests fail, a run leaves every foreign table as it was. -/
theorem Spared.run {s : System KernelState} (h : Spared env rm k s.execState)
    (ops : List Dispatch.Op) :
    Spared env rm k (Transition.run (Dispatch.perform env.linux) s ops).execState :=
  run_keeps_all (callsKeep_spared env rm k) (fun _ h => ⟨h.manager, h.same⟩) ops h

end NicAutoswitch.Kernel.ForeignTables
