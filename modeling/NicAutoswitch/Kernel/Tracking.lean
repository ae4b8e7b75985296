import NicAutoswitch.Engine.CallHistory
import NicAutoswitch.Kernel.Calls
import NicAutoswitch.Kernel.Sweep
import NicAutoswitch.Lib.Run

/-!
# Tracked and installed

An entry of the active routes stands for the policy rule and the route that were
installed by the call that recorded it. The kernel holds both before and after every
call of a run exactly where every call is sound, in the state that it meets.
-/

namespace NicAutoswitch.Kernel.Tracking
open HashMaps Schema Monitor Router StateProg Engine Transition

abbrev KernelExec := ExecutorState KernelState

/-! ### What an entry stands for -/

/- A call that recorded an entry. -/
def recording (c : CallRecord KernelState) : Option (RouteRule × ℕ) :=
  match c.call, c.returnedOk with
  | .applyRule rule t, true => some (rule, t)
  | _, _ => none

/- The rule and the table of the newest call that recorded the entry of the name. -/
def recordedBy (history : List (CallRecord KernelState)) (n : String) : Option (RouteRule × ℕ) :=
  (history.filterMap recording).find? fun x => x.1.name = n

/- The entries of the kernel that belong to a name. -/
def owned (env : Env) (history : List (CallRecord KernelState)) (n : String) :
    Option (PolicyRule × Route) :=
  (recordedBy history n).bind fun x => entries env x.1 x.2

/- Each active route has in the kernel the policy rule that leads to its table and the
route in the table that goes out of its interface, as its recording call installs them. -/
def Installed (env : Env) (s : KernelExec) : Prop :=
  ∀ n a, s.executor.activeRoutes.lookup n = some a →
    ∃ rule t p q, recordedBy s.history n = some (rule, t) ∧ a = entryOf t rule ∧
      entries env rule t = some (p, q) ∧ p ∈ s.kernel.rules ∧ q ∈ s.kernel.routes

/- The part of it that no failure can break. -/
def Recorded (env : Env) (s : KernelExec) : Prop :=
  ∀ n a, s.executor.activeRoutes.lookup n = some a →
    ∃ rule t x, recordedBy s.history n = some (rule, t) ∧ a = entryOf t rule ∧
      entries env rule t = some x

def Backed (env : Env) (s : KernelExec) : Prop :=
  ∀ n x, n ∈ s.executor.activeRoutes → owned env s.history n = some x →
    x.1 ∈ s.kernel.rules ∧ x.2 ∈ s.kernel.routes

theorem installed_iff {env : Env} {s : KernelExec} (h : Recorded env s) :
    Installed env s ↔ Backed env s := by
  refine ⟨?_, ?_⟩
  · intro hi n x hn hx
    obtain ⟨a, ha⟩ := (mem_iff_lookup _ n).mp hn
    obtain ⟨rule, t, p, q, hr, _, he, hp, hq⟩ := hi n a ha
    unfold owned at hx
    rw [hr] at hx
    have hxe : x = (p, q) := Option.some_inj.mp (hx.symm.trans he)
    rw [hxe]
    exact ⟨hp, hq⟩
  · intro hb n a ha
    obtain ⟨rule, t, x, hr, hae, he⟩ := h n a ha
    have hx : owned env s.history n = some x := by
      unfold owned
      rw [hr]
      exact he
    obtain ⟨hp, hq⟩ := hb n x ((mem_iff_lookup _ n).mpr ⟨a, ha⟩) hx
    exact ⟨rule, t, x.1, x.2, hr, hae, he, hp, hq⟩

theorem recordedBy_apply (rule : RouteRule) (t : ℕ) (e : RuleExecutor) (k : KernelState)
    (history : List (CallRecord KernelState)) (n : String) :
    recordedBy (⟨.applyRule rule t, e, k, true⟩ :: history) n =
      if rule.name = n then some (rule, t) else recordedBy history n := by
  have hr : recording ⟨.applyRule rule t, e, k, true⟩ = some (rule, t) := rfl
  unfold recordedBy
  rw [List.filterMap_cons_some hr, List.find?_cons]
  split_ifs with hn <;> simp [hn]

/- Other calls record nothing. -/
theorem recordedBy_skip {c : CallRecord KernelState} (h : recording c = none)
    (history : List (CallRecord KernelState)) (n : String) :
    recordedBy (c :: history) n = recordedBy history n := by
  unfold recordedBy
  rw [List.filterMap_cons_none h]

theorem owned_skip (env : Env) {c : CallRecord KernelState} (h : recording c = none)
    (history : List (CallRecord KernelState)) (n : String) :
    owned env (c :: history) n = owned env history n := by
  unfold owned
  rw [recordedBy_skip h]

/-! ### Sound calls -/

/- A call that records its entry finds the policy rule and the route in the kernel or
has them added. -/
def SoundApply (env : Env) (k : KernelState) (rule : RouteRule) (t : ℕ) : Prop :=
  ApplyCompletes env k rule → ∀ x, entries env rule t = some x →
    (env.Passes k.clock ∨ x.1 ∈ k.rules) ∧
      (env.Passes (k.clock + 2) ∧ ¬ Occupied k t x.2.destination rule.priority ∨ x.2 ∈ k.routes)

/- A removal takes neither the policy rule nor the route of an entry that stays; its own
entry stays where a request fails. -/
def SoundRemove (env : Env) (s : KernelExec) (rule : RouteRule) (t : ℕ) : Prop :=
  ∀ d, RuleOperator.target? rule = some d → t ≤ 255 →
    ∀ n x, n ∈ s.executor.activeRoutes → owned env s.history n = some x →
      (RemoveAnswered env s.kernel d t → n ≠ rule.name) →
        ¬ (env.Passes s.kernel.clock ∧ x.1 = ⟨d, t, rule.priority⟩) ∧
          ¬ (RemoveAnswered env s.kernel d t ∧ env.Passes (s.kernel.clock + 1) ∧
            s.kernel.pick t d none none = some x.2)

/- The cleanup deletes nothing that belongs to an entry. -/
def SoundCleanup (env : Env) (s : KernelExec) : Prop :=
  ∀ n x, n ∈ s.executor.activeRoutes → owned env s.history n = some x →
    Along (flushComplete env s.executor.routeManager)
      (fun k t => x.1 ∉ completeRules env t k ∧ x.2 ∉ flushDeletes env t k) s.kernel
      (Dispatch.staleTables (s.executor.routeManager.tableIdV4 0))

def SoundCall (env : Env) (s : KernelExec) : ExecutorCall → Prop
  | .applyRule rule t => SoundApply env s.kernel rule t
  | .removeRule rule t => SoundRemove env s rule t
  | .cleanup => SoundCleanup env s

/- Every call of the history is sound in the state that it met. -/
def SoundHistory (env : Env) : List (CallRecord KernelState) → Prop
  | [] => True
  | c :: older => SoundCall env ⟨c.executor, c.kernel, older⟩ c.call ∧ SoundHistory env older

/- The kernel holds what the entries stand for whenever a call is made. -/
def InstalledBefore (env : Env) : List (CallRecord KernelState) → Prop
  | [] => True
  | c :: older => Installed env ⟨c.executor, c.kernel, older⟩ ∧ InstalledBefore env older

/-! ### One call -/

/- What a call does to the bookkeeping, and when the kernel still backs it. -/
structure CallStep (env : Env) (s s' : KernelExec) (call : ExecutorCall) : Prop where
  history : ∃ ok, s'.history = ⟨call, s.executor, s.kernel, ok⟩ :: s.history
  manager : s'.executor.routeManager = s.executor.routeManager
  recorded : Recorded env s → Recorded env s'
  backed : Backed env s → (Backed env s' ↔ SoundCall env s call)

variable {env : Env} {s : KernelExec}

/- A call that records nothing keeps the record. -/
theorem recorded_skip {k : KernelState} {c : CallRecord KernelState} (hc : recording c = none)
    (h : Recorded env s) : Recorded env ⟨s.executor, k, c :: s.history⟩ := by
  intro n a ha
  obtain ⟨rule, t, x, hr, hae, he⟩ := h n a ha
  exact ⟨rule, t, x, (recordedBy_skip hc s.history n).trans hr, hae, he⟩

/- What the call that records an entry does to the record. -/
theorem owned_apply (env : Env) (rule : RouteRule) (t : ℕ) (s : KernelExec) (n : String) :
    owned env (⟨.applyRule rule t, s.executor, s.kernel, true⟩ :: s.history) n =
      if rule.name = n then entries env rule t else owned env s.history n := by
  unfold owned
  rw [recordedBy_apply]
  split_ifs <;> rfl

theorem recorded_apply {rule : RouteRule} {t : ℕ} {x : PolicyRule × Route} (k : KernelState)
    (hown : entries env rule t = some x) (h : Recorded env s) :
    Recorded env
      { executor := s.executor.trackActiveRoute rule.name rule.routeVia.interface t
        kernel := k
        history := ⟨.applyRule rule t, s.executor, s.kernel, true⟩ :: s.history } := by
  intro n a ha
  have ha' : (s.executor.activeRoutes.insert rule.name (entryOf t rule)).lookup n = some a := ha
  rw [lookup_insert_eq_ite] at ha'
  simp only [recordedBy_apply]
  split_ifs at ha' with hnr
  · cases ha'
    rw [if_pos hnr.symm]
    exact ⟨rule, t, x, rfl, rfl, hown⟩
  · rw [if_neg (fun h => hnr h.symm)]
    exact h n a ha'

theorem applyRule_done_step (hl : Live s.executor.routeManager) {rule : RouteRule} (t : ℕ)
    (hc : ApplyCompletes env s.kernel rule) :
    CallStep env s (after (RuleExecutor.applyRule env.plain rule 0 t) s) (.applyRule rule t) := by
  obtain ⟨d, hd⟩ := Option.isSome_iff_exists.mp hc.1.2
  obtain ⟨l, hi⟩ := Option.isSome_iff_exists.mp hc.2.2.2.1
  obtain ⟨k', he, hrules, hroutes⟩ := apply_done hl t hd hi hc
  have hown := entries_own t hd hi
  have hmem : ∀ n, n ∈ s.executor.activeRoutes.insert rule.name (entryOf t rule) ↔
      n = rule.name ∨ n ∈ s.executor.activeRoutes := fun _ => AList.mem_insert _
  rw [he]
  refine ⟨⟨true, rfl⟩, rfl, recorded_apply k' hown, fun hb =>
    ⟨fun h _ x hx => ?_, fun h n x hn hx => ?_⟩⟩
  · -- the call's own entry
    obtain ⟨hp, hq⟩ := h rule.name x ((hmem _).mpr (Or.inl rfl))
      ((owned_apply env rule t s rule.name).trans ((if_pos rfl).trans hx))
    rw [hown] at hx
    cases hx
    exact ⟨((hrules _).mp hp).imp_left And.left, ((hroutes _).mp hq).imp_left And.left⟩
  · have hx' := (owned_apply env rule t s n).symm.trans hx
    split_ifs at hx' with hnr
    · have hs := h hc x hx'
      rw [hown] at hx'
      cases hx'
      exact ⟨(hrules _).mpr (hs.1.imp_left fun hp => ⟨hp, rfl⟩),
        (hroutes _).mpr (hs.2.imp_left fun hp => ⟨hp, rfl⟩)⟩
    · have hn' := ((hmem n).mp hn).resolve_left fun heq => hnr heq.symm
      obtain ⟨hp, hq⟩ := hb n x hn' hx'
      exact ⟨(hrules _).mpr (Or.inr hp), (hroutes _).mpr (Or.inr hq)⟩

theorem applyRule_step (hl : Live s.executor.routeManager) (rule : RouteRule) (t : ℕ) :
    CallStep env s (after (RuleExecutor.applyRule env.plain rule 0 t) s) (.applyRule rule t) := by
  by_cases hc : ApplyCompletes env s.kernel rule
  · exact applyRule_done_step hl t hc
  · obtain ⟨k', he, hrules, hroutes⟩ := apply_stopped hl t hc
    have hskip : recording ⟨.applyRule rule t, s.executor, s.kernel, false⟩ = none := rfl
    rw [he]
    refine ⟨⟨false, rfl⟩, rfl, recorded_skip hskip, fun hb => ⟨fun _ ha => absurd ha hc, ?_⟩⟩
    intro _ n x hn hx
    rw [owned_skip env hskip] at hx
    obtain ⟨hp, hq⟩ := hb n x hn hx
    exact ⟨hrules _ hp, hroutes _ hq⟩

theorem recording_remove (rule : RouteRule) (t : ℕ) (s : KernelExec) (ok : Bool) :
    recording ⟨.removeRule rule t, s.executor, s.kernel, ok⟩ = none := rfl

/- The entry of the rule's name goes, the others must be spared. -/
theorem removeRule_done_step (hl : Live s.executor.routeManager) {rule : RouteRule}
    {d : IpNetwork} {t : ℕ} (hd : RuleOperator.target? rule = some d) (ht : t ≤ 255)
    (hc : RemoveAnswered env s.kernel d t) :
    CallStep env s (after (RuleExecutor.removeRule env.plain rule t) s) (.removeRule rule t) := by
  obtain ⟨k', he, hrules, hroutes⟩ := remove_done hl hd ht hc
  have hskip := recording_remove rule t s true
  have hmem : ∀ n, n ∈ s.executor.activeRoutes.erase rule.name ↔
      n ≠ rule.name ∧ n ∈ s.executor.activeRoutes := fun _ => AList.mem_erase
  rw [he]
  refine ⟨⟨true, rfl⟩, rfl, fun h n a ha => ?_, fun hb => ⟨fun h => ?_, fun h n x hn hx => ?_⟩⟩
  · have ha' : (s.executor.activeRoutes.erase rule.name).lookup n = some a := ha
    rw [lookup_erase_eq_ite] at ha'
    split_ifs at ha'
    exact recorded_skip (k := k') hskip h n a ha'
  · intro d' hd' _ n x hn hx hne
    have hdd : d' = d := Option.some_inj.mp (hd'.symm.trans hd)
    subst hdd
    have hx' := (owned_skip env hskip s.history n).trans hx
    obtain ⟨hp, hq⟩ := h n x ((hmem n).mpr ⟨hne hc, hn⟩) hx'
    exact ⟨((hrules _).mp hp).2, fun hy => ((hroutes _).mp hq).2 hy.2⟩
  · rw [owned_skip env hskip] at hx
    obtain ⟨hne, hn'⟩ := (hmem n).mp hn
    obtain ⟨hp, hq⟩ := hb n x hn' hx
    have hs := h d hd ht n x hn' hx fun _ => hne
    exact ⟨(hrules _).mpr ⟨hp, hs.1⟩, (hroutes _).mpr ⟨hq, fun hy => hs.2 ⟨hc, hy⟩⟩⟩

/- Every entry stays, and the policy rule may be gone. -/
theorem removeRule_stopped_step (hl : Live s.executor.routeManager) {rule : RouteRule}
    {d : IpNetwork} {t : ℕ} (hd : RuleOperator.target? rule = some d) (ht : t ≤ 255)
    (hc : ¬ RemoveAnswered env s.kernel d t) :
    CallStep env s (after (RuleExecutor.removeRule env.plain rule t) s) (.removeRule rule t) := by
  obtain ⟨k', he, hrules, hroutes⟩ := remove_stopped hl hd ht hc
  have hskip := recording_remove rule t s false
  rw [he]
  refine ⟨⟨false, rfl⟩, rfl, recorded_skip hskip,
    fun hb => ⟨fun h => ?_, fun h n x hn hx => ?_⟩⟩
  · intro d' hd' _ n x hn hx _
    have hdd : d' = d := Option.some_inj.mp (hd'.symm.trans hd)
    subst hdd
    have hx' := (owned_skip env hskip s.history n).trans hx
    obtain ⟨hp, _⟩ := h n x hn hx'
    exact ⟨((hrules _).mp hp).2, fun hy => hc hy.1⟩
  · rw [owned_skip env hskip] at hx
    obtain ⟨hp, hq⟩ := hb n x hn hx
    have hs := h d hd ht n x hn hx fun hy => absurd hy hc
    exact ⟨(hrules _).mpr ⟨hp, hs.1⟩, hroutes ▸ hq⟩

theorem removeRule_step (hl : Live s.executor.routeManager) (rule : RouteRule) (t : ℕ) :
    CallStep env s (after (RuleExecutor.removeRule env.plain rule t) s) (.removeRule rule t) := by
  by_cases hw : (RuleOperator.target? rule).isSome ∧ t ≤ 255
  · obtain ⟨d, hd⟩ := Option.isSome_iff_exists.mp hw.1
    by_cases hc : RemoveAnswered env s.kernel d t
    · exact removeRule_done_step hl hd hw.2 hc
    · exact removeRule_stopped_step hl hd hw.2 hc
  · have hskip := recording_remove rule t s false
    rw [remove_rejected hl hw]
    refine ⟨⟨false, rfl⟩, rfl, recorded_skip hskip, fun hb => ⟨fun _ d hd ht => ?_, ?_⟩⟩
    · exact absurd ⟨by rw [hd]; rfl, ht⟩ hw
    · intro _ n x hn hx
      rw [owned_skip env hskip] at hx
      exact hb n x hn hx

/- What a sweep of tables leaves of two given entries. -/
theorem sweep_keeps_iff {rm : RouteManager} (hl : Live rm) (tables : List ℕ) (k : KernelState)
    (p : PolicyRule) (q : Route) :
    p ∈ (run (flushComplete env rm) k tables).rules ∧
        q ∈ (run (flushComplete env rm) k tables).routes ↔
      (p ∈ k.rules ∧ q ∈ k.routes) ∧
        Along (flushComplete env rm)
          (fun k t => p ∉ completeRules env t k ∧ q ∉ flushDeletes env t k) k tables := by
  induction tables generalizing k with
  | nil => exact (and_iff_left trivial).symm
  | cons t rest ih =>
    rw [run_cons, ih, mem_flushComplete hl, mem_flushComplete_rules hl]
    show _ ↔ _ ∧ (_ ∧ _) ∧ Along _ _ (flushComplete env rm k t) rest
    tauto

theorem cleanup_step (hl : Live s.executor.routeManager) :
    CallStep env s (after (Dispatch.sweepStaleTables env.plain) s) .cleanup := by
  have hskip : recording ⟨.cleanup, s.executor, s.kernel, true⟩ = none := rfl
  rw [sweep_after]
  refine ⟨⟨true, rfl⟩, rfl, recorded_skip hskip, fun hb => ⟨fun h n x hn hx => ?_, ?_⟩⟩
  · have hx' := (owned_skip env hskip s.history n).trans hx
    exact ((sweep_keeps_iff hl _ s.kernel x.1 x.2).mp (h n x hn hx')).2
  · intro h n x hn hx
    rw [owned_skip env hskip] at hx
    exact (sweep_keeps_iff hl _ s.kernel x.1 x.2).mpr ⟨hb n x hn hx, h n x hn hx⟩

/-! ### Whole runs -/

/- What holds of every state. -/
def Known (env : Env) (rm : RouteManager) (s : KernelExec) : Prop :=
  s.executor.routeManager = rm ∧ Recorded env s

theorem callStep_decides {rm : RouteManager} {s' : KernelExec} {call : ExecutorCall}
    (hs : CallStep env s s' call) (h : Known env rm s) :
    CallDecides (Known env rm) (Installed env) (SoundCall env) s s' call := by
  have hrec := hs.recorded h.2
  refine ⟨hs.history, ⟨hs.manager.trans h.1, hrec⟩, fun hi => ?_⟩
  rw [installed_iff hrec]
  exact hs.backed ((installed_iff h.2).mp hi)

theorem installed_calls (env : Env) {rm : RouteManager} (hl : Live rm) :
    CallsDecide env.plain (Known env rm) (Installed env) (SoundCall env) where
  apply rule t _ h := callStep_decides (applyRule_step (h.1 ▸ hl) rule t) h
  remove rule t _ h := callStep_decides (removeRule_step (h.1 ▸ hl) rule t) h
  cleanup _ h := callStep_decides (cleanup_step (h.1 ▸ hl)) h

theorem known_launch (env : Env) (config : Config) (rm : RouteManager) (k : KernelState) :
    Known env rm (Dispatch.launch config rm k).execState := by
  refine ⟨rfl, fun n a ha => ?_⟩
  cases ha

theorem known_calls (env : Env) {rm : RouteManager} (hl : Live rm) :
    CallsKeep env.plain (Known env rm) :=
  callsKeep_of_decides (installed_calls env hl) (fun _ h => h) fun _ _ _ hd _ => hd.keeps

/- The run may stop and start again. -/
theorem known_run (env : Env) {rm : RouteManager} (hl : Live rm) (config : Config)
    (k : KernelState) (ops : List Dispatch.Op) :
    Known env rm
      (run (Dispatch.perform env.plain) (Dispatch.launch config rm k) ops).execState := by
  refine run_keeps_all (known_calls env hl) (fun s h => ⟨h.1, fun n a ha => ?_⟩) ops
    (known_launch env config rm k)
  have hnone : (∅ : HashMap String ActiveRoute).lookup n = none := AList.lookup_empty n
  exact absurd (hnone.symm.trans ha) (by simp)

theorem installed_launch (env : Env) (config : Config) (rm : RouteManager) (k : KernelState) :
    Judged (Known env rm) (Installed env) (SoundCall env)
      (Dispatch.launch config rm k).execState := by
  refine ⟨known_launch env config rm k, iff_of_true ⟨fun n a ha => ?_, trivial⟩ trivial⟩
  cases ha

theorem installedBefore_iff (env : Env) (history : List (CallRecord KernelState)) :
    InstalledBefore env history ↔ AtCalls (Installed env) history := by
  induction history with
  | nil => exact Iff.rfl
  | cons c older ih => exact and_congr_right fun _ => ih

theorem soundHistory_iff (env : Env) (history : List (CallRecord KernelState)) :
    SoundHistory env history ↔ CallsMeet (SoundCall env) history := by
  induction history with
  | nil => exact Iff.rfl
  | cons c older ih => exact and_congr_right fun _ => ih

/- The kernel backs the active routes at every call of a run, and at its end, exactly
where every call of the run is sound; then it does so after every operation. -/
theorem installed_iff_calls_sound (env : Env) {rm : RouteManager} (hl : Live rm) (config : Config)
    (k : KernelState) (ops : List Dispatch.Op) (hops : ∀ op ∈ ops, op.Continues) :
    (Installed env (run (Dispatch.perform env.plain) (Dispatch.launch config rm k) ops).execState ∧
          InstalledBefore env
            (run (Dispatch.perform env.plain) (Dispatch.launch config rm k) ops).history ↔
        SoundHistory env
          (run (Dispatch.perform env.plain) (Dispatch.launch config rm k) ops).history) ∧
      (SoundHistory env
          (run (Dispatch.perform env.plain) (Dispatch.launch config rm k) ops).history →
        Throughout (Dispatch.perform env.plain) (fun s => Installed env s.execState)
          (Dispatch.launch config rm k) ops) := by
  simp only [installedBefore_iff, soundHistory_iff]
  exact holds_iff_callsMeet (installed_calls env hl) (installed_launch env config rm k) hops

theorem start_continues : ∀ op ∈ [Dispatch.Op.applyInitialState eth0Up], op.Continues :=
  List.forall_mem_singleton.mpr trivial

/- The startup of a host with one rule, on an empty kernel and without failures, makes two
calls. -/
theorem start_history : ∃ c c' : CallRecord KernelState, lanStarted.history = [c, c'] ∧
      c.call = .applyRule lanRule 100 ∧ c.kernel.rules = [] ∧ c.kernel.routes = [] ∧
      c'.call = .cleanup ∧ c'.executor.activeRoutes.entries = [] := by
  have hcalls : lanStarted.history.map
        (fun c => (c.call, c.kernel.rules, c.kernel.routes,
          c.executor.activeRoutes.entries.length)) =
      [(.applyRule lanRule 100, [], [], 0), (.cleanup, [], [], 0)] := by decide
  obtain ⟨c, rest, hh, hc, hrest⟩ := List.map_eq_cons_iff.mp hcalls
  obtain ⟨c', rest', hh', hc', hnil⟩ := List.map_eq_cons_iff.mp hrest
  rw [List.map_eq_nil_iff] at hnil
  simp only [Prod.mk.injEq] at hc hc'
  have hactive := List.length_eq_zero_iff.mp hc'.2.2.2
  exact ⟨c, c', by rw [hh, hh', hnil], hc.1, hc.2.1, hc.2.2.1, hc'.1, hactive⟩

theorem start_sound : SoundHistory noFault lanStarted.history := by
  obtain ⟨⟨_, executor, kernel, _⟩, ⟨_, executor', kernel', _⟩, hh, rfl, _, hroutes, rfl, hactive⟩ :=
    start_history
  rw [hh]
  refine ⟨fun _ x _ => ⟨Or.inl (noFault_quiet _), Or.inl ⟨noFault_quiet _, ?_⟩⟩, fun n x hn _ => ?_,
    trivial⟩
  · intro ho
    obtain ⟨r, hr, _⟩ := ho
    rw [hroutes] at hr
    cases hr
  · obtain ⟨a, ha⟩ := (mem_iff_lookup _ n).mp hn
    have hm := (mem_entries_iff _ n a).mpr ha
    rw [hactive] at hm
    cases hm

theorem installed_iff_calls_sound_start :
    Throughout (Dispatch.perform noFault.plain) (fun s => Installed noFault s.execState)
      (Dispatch.launch lanOnly connected .empty) [.applyInitialState eth0Up] :=
  (installed_iff_calls_sound noFault connected_live lanOnly .empty [.applyInitialState eth0Up]
    start_continues).2 start_sound

/-! ### A failure between the two requests of a removal -/

/- The request that deletes the route of the rule fails. -/
def routeKept : Env := Env.twoLinks fun c =>
  if c = 196 then some (errno 105 "No buffer space available (os error 105)") else none

/- The policy rule is gone, and the entry stays. -/
theorem lan_rule_not_installed :
    ¬ Throughout (Dispatch.perform routeKept.plain) (fun s => Installed routeKept s.execState)
      (Dispatch.launch lanOnly connected .empty)
      [.applyInitialState eth0Up, .handleEvent .asListed (.interfaceChanged "eth0" .down)] := by
  intro h
  have hentry := h _ List.prefix_rfl "lan" ⟨"lan", "eth0", 100⟩ (by decide)
  obtain ⟨rule, t, p, q, _, _, _, hp, _⟩ := hentry
  have hnone : (run (Dispatch.perform routeKept.plain) (Dispatch.launch lanOnly connected .empty)
    [.applyInitialState eth0Up, .handleEvent .asListed (.interfaceChanged "eth0" .down)]
    ).execState.kernel.rules = [] := by decide
  rw [hnone] at hp
  cases hp

end NicAutoswitch.Kernel.Tracking
