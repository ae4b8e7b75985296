import NicAutoswitch.Engine.ExecutorInvariant
import NicAutoswitch.Engine.Handlers
import NicAutoswitch.Engine.LinkState

/-!
# Dry runs

A manager in dry-run mode returns from each operation before it sends a request. A dry
run and a run on a kernel that grants every request then differ in their managers alone,
as long as no table id is beyond the header.
-/

namespace NicAutoswitch.Engine.DryRun
open HashMaps Schema Monitor Router StateProg Transition

/-! ### A log of the requests -/

inductive NetRequest where
  | routeAdd (request : RouteAddRequest)
  | routeDel (message : RouteMessage)
  | routeGet (version : IpVersion) (table : ℕ)
  | ruleAdd (request : RuleAddRequest)
  | ruleDel (message : RuleMessage)
  | ruleGet (version : IpVersion)
  | linkGet (name : String)
  deriving Repr, DecidableEq

variable {κ κ' α : Type}

def noted (request : NetRequest) (f : κ → α × κ) (k : κ × List NetRequest) :
    α × κ × List NetRequest :=
  ((f k.1).1, (f k.1).2, k.2 ++ [request])

/- The same kernel, which also notes the requests that it meets. -/
def logged (rt : Rtnetlink κ) : Rtnetlink (κ × List NetRequest) where
  routeAdd q := noted (.routeAdd q) (rt.routeAdd q)
  routeDel m := noted (.routeDel m) (rt.routeDel m)
  routeGet v t := noted (.routeGet v t) (rt.routeGet v t)
  ruleAdd q := noted (.ruleAdd q) (rt.ruleAdd q)
  ruleDel m := noted (.ruleDel m) (rt.ruleDel m)
  ruleGet v := noted (.ruleGet v) (rt.ruleGet v)
  linkGet name := noted (.linkGet name) (rt.linkGet name)

/-! ### A dry run leaves the kernel alone -/

section Harmless

variable (rt : Rtnetlink κ) {rm : RouteManager} (hd : rm.dryRun = true)
include hd

theorem operator_apply_dry (rule : RouteRule) (index t : ℕ) (k : κ) :
    after (RuleOperator.applyRule rt rm rule index t) k = k := by
  cases hx : RuleOperator.getDestination rule with
  | error e => simp only [RuleOperator.applyRule, hx]; rfl
  | ok d => rw [after_ok (RuleOperator.applyRule_dry rt hx t k hd index)]

theorem operator_remove_dry (rule : RouteRule) (t : ℕ) (k : κ) :
    after (RuleOperator.removeRule rt rm rule t) k = k := by
  cases hx : RuleOperator.getDestination rule with
  | error e => simp only [RuleOperator.removeRule, hx]; rfl
  | ok d => rw [after_ok (RuleOperator.removeRule_dry rt hx t k hd)]

theorem flushTableComplete_dry (t : ℕ) (k : κ) : rm.flushTableComplete rt t k = .ok 0 k := by
  unfold RouteManager.flushTableComplete RouteManager.flushTable RouteManager.flushTablePolicyRules
  simp only [if_pos hd]
  rfl

theorem flushTables_dry (tables : List ℕ) (k : κ) :
    Dispatch.flushTables rt rm tables k = .ok () k := by
  induction tables with
  | nil => rfl
  | cons t rest ih =>
    rw [Dispatch.flushTables, bind_ok (attempt_ok (flushTableComplete_dry rt hd t k))]
    exact ih

end Harmless

/- The manager is in dry-run mode and the kernel is as it was. -/
def Untouched (k : κ) (s : ExecutorState κ) : Prop :=
  s.executor.routeManager.dryRun = true ∧ s.kernel = k

theorem callsKeep_untouched (rt : Rtnetlink κ) (k : κ) : CallsKeep rt (Untouched k) where
  apply rule t s hs := by
    obtain ⟨hd, hk⟩ := hs
    have hop := operator_apply_dry rt hd rule 0 t s.kernel
    cases hv : RuleOperator.validateRule rule with
    | error err =>
      rw [after_error (RuleExecutor.applyRule_invalid rt 0 t s hv)]
      exact ⟨hd, hk⟩
    | ok u =>
      cases hx : RuleOperator.applyRule rt s.executor.routeManager rule 0 t s.kernel with
      | ok u' k' =>
        rw [after_ok hx] at hop
        rw [after_ok (RuleExecutor.applyRule_ok hv hx)]
        exact ⟨hd, hop.trans hk⟩
      | error err k' =>
        rw [after_error hx] at hop
        rw [after_error (RuleExecutor.applyRule_error hv hx)]
        exact ⟨hd, hop.trans hk⟩
  remove rule t s hs := by
    obtain ⟨hd, hk⟩ := hs
    have hop := operator_remove_dry rt hd rule t s.kernel
    cases hx : RuleOperator.removeRule rt s.executor.routeManager rule t s.kernel with
    | ok u k' =>
      rw [after_ok hx] at hop
      rw [after_ok (RuleExecutor.removeRule_ok hx)]
      exact ⟨hd, hop.trans hk⟩
    | error err k' =>
      rw [after_error hx] at hop
      rw [after_error (RuleExecutor.removeRule_error hx)]
      exact ⟨hd, hop.trans hk⟩
  cleanup s hs := by
    obtain ⟨hd, hk⟩ := hs
    have hflush := flushTables_dry rt hd (Dispatch.staleTables (s.executor.routeManager.tableIdV4 0))
      s.kernel
    unfold Dispatch.sweepStaleTables
    rw [after_ok (recorded_ok ((bind_ok (RuleExecutor.readExecutor_ok s)).trans
      (onKernel_ok hflush)))]
    exact ⟨hd, hk⟩

theorem run_untouched (rt : Rtnetlink κ) (ops : List Dispatch.Op) {s : System κ}
    (hd : s.dispatcher.executor.routeManager.dryRun = true) :
    Untouched s.kernel (run (Dispatch.perform rt) s ops).execState :=
  run_keeps_all (callsKeep_untouched rt s.kernel) (fun _ h => h) ops ⟨hd, rfl⟩

/-! ### Changing the manager of a dispatcher -/

/- The manager is in dry-run mode, the other one is not, and both count tables alike. -/
structure Alike (rm live : RouteManager) : Prop where
  dry : rm.dryRun = true
  wet : live.dryRun = false
  base : live.baseTableId = rm.baseTableId

theorem withdrawable_iff {rm live : RouteManager} (h : Alike rm live) {t : ℕ} (ht : t ≤ 255) :
    rm.Withdrawable t ↔ live.Withdrawable t :=
  iff_of_true (Or.inl h.dry) (Or.inr ht)

section Executor

variable (live : RouteManager) (e : RuleExecutor)

theorem grant_setRouteManager (rule : RouteRule) (t : ℕ) :
    (e.setRouteManager live).grant rule t = (e.grant rule t).setRouteManager live := by
  unfold RuleExecutor.grant
  split_ifs <;> rfl

theorem grantRules_setRouteManager (t : ℕ) (rules : List RouteRule) :
    RuleExecutor.grantRules t rules (e.setRouteManager live) =
      (RuleExecutor.grantRules t rules e).setRouteManager live := by
  unfold RuleExecutor.grantRules
  induction rules generalizing e with
  | nil => rfl
  | cons rule rest ih => rw [List.foldl_cons, List.foldl_cons, grant_setRouteManager, ih]

theorem grantDefaults_setRouteManager (t : ℕ) (rules : List RouteRule) :
    RuleExecutor.grantDefaults t rules (e.setRouteManager live) =
      (RuleExecutor.grantDefaults t rules e).setRouteManager live := by
  induction rules generalizing e with
  | nil => rfl
  | cons rule rest ih =>
    rw [RuleExecutor.grantDefaults, RuleExecutor.grantDefaults, grant_setRouteManager, ← ih]
    show RuleExecutor.grantDefaults t rest (if e.isRouteActive rule.name then _ else _) = _
    split_ifs <;> rfl

theorem withdraw_setRouteManager (rule : RouteRule) {t : ℕ}
    (ht : e.routeManager.Withdrawable t ↔ live.Withdrawable t) :
    (e.setRouteManager live).withdraw rule t = (e.withdraw rule t).setRouteManager live := by
  have hiff : (RuleOperator.target? rule).isSome ∧
      (e.setRouteManager live).routeManager.Withdrawable t ↔
        (RuleOperator.target? rule).isSome ∧ e.routeManager.Withdrawable t :=
    and_congr_right fun _ => ht.symm
  unfold RuleExecutor.withdraw
  by_cases hw : (RuleOperator.target? rule).isSome ∧ e.routeManager.Withdrawable t
  · rw [if_pos (hiff.mpr hw), if_pos hw]
    rfl
  · rw [if_neg fun hl => hw (hiff.mp hl), if_neg hw]

theorem withdrawAll_setRouteManager (rules : HashMap String RouteRule)
    (todo : List (String × ℕ))
    (ht : ∀ x ∈ todo, e.routeManager.Withdrawable x.2 ↔ live.Withdrawable x.2) :
    RuleExecutor.withdrawAll rules todo (e.setRouteManager live) =
      (RuleExecutor.withdrawAll rules todo e).setRouteManager live := by
  induction todo generalizing e with
  | nil => rfl
  | cons entry rest ih =>
    have hrest : ∀ x ∈ rest, e.routeManager.Withdrawable x.2 ↔ live.Withdrawable x.2 :=
      fun x hx => ht x (List.mem_cons_of_mem entry hx)
    rw [RuleExecutor.withdrawAll, RuleExecutor.withdrawAll]
    cases rules.lookup entry.1 with
    | none => exact ih e hrest
    | some rule =>
      simp only [withdraw_setRouteManager live e rule (ht entry List.mem_cons_self)]
      exact ih (e.withdraw rule entry.2) (by rw [RuleExecutor.withdraw_routeManager]; exact hrest)

end Executor

/- The active routes are in tables that the header can hold. -/
def InHeader (d : EventDispatcher) : Prop := ∀ n a, d.activeRoute n = some a → a.tableId ≤ 255

section Dispatcher

variable {live : RouteManager} {d : EventDispatcher} (h : Alike d.executor.routeManager live)
include h

theorem getTableId_setRouteManager (i : String) :
    (d.setRouteManager live).getTableIdForInterface i =
      ((d.getTableIdForInterface i).1, (d.getTableIdForInterface i).2.setRouteManager live) := by
  unfold EventDispatcher.getTableIdForInterface
  exact Prod.ext (congrArg (· + _) h.base) rfl

theorem grantedDefaults_setRouteManager (i : String) :
    (d.setRouteManager live).grantedDefaults i = (d.grantedDefaults i).setRouteManager live := by
  unfold EventDispatcher.grantedDefaults
  rw [getTableId_setRouteManager h]
  show (if d.config.routing.defaultRules.isEmpty then _ else _) = _
  split_ifs
  · rfl
  · show EventDispatcher.mapExecutor _ _ = _
    unfold EventDispatcher.mapExecutor EventDispatcher.setRouteManager
    dsimp only
    rw [grantDefaults_setRouteManager]

theorem grantedRulesFor_setRouteManager (i : String) (ssid : Option String) :
    (d.setRouteManager live).grantedRulesFor i ssid =
      (d.grantedRulesFor i ssid).setRouteManager live := by
  unfold EventDispatcher.grantedRulesFor
  rw [getTableId_setRouteManager h, grantedDefaults_setRouteManager h]
  have hconfig : (d.setRouteManager live).config = d.config := rfl
  simp only [hconfig]
  cases ssid.bind d.config.wifiProfiles.lookup with
  | none => rfl
  | some profile =>
    show EventDispatcher.mapExecutor _ _ = _
    unfold EventDispatcher.mapExecutor EventDispatcher.setRouteManager
    dsimp only
    rw [grantRules_setRouteManager]

theorem grantedDown_setRouteManager (hin : InHeader d) (order : RouteOrder) (i : String) :
    (d.setRouteManager live).grantedDown order i =
      (d.grantedDown order i).setRouteManager live := by
  have hw : ∀ x ∈ EventDispatcher.dependentRoutes order d.executor.activeRoutes i,
      d.executor.routeManager.Withdrawable x.2 ↔ live.Withdrawable x.2 := by
    intro x hx
    obtain ⟨a, ha, _, ht⟩ := (EventDispatcher.mem_dependentRoutes order _ i x.1 x.2).mp hx
    exact withdrawable_iff h (ht ▸ hin x.1 a ha)
  have hall := withdrawAll_setRouteManager live d.executor
    (EventDispatcher.rulesMap d.config) _ hw
  unfold EventDispatcher.grantedDown EventDispatcher.mapExecutor EventDispatcher.setRouteManager
  exact congrArg (fun e => { d with executor := e }) hall

theorem grantedReaction_setRouteManager (hin : InHeader d) (order : RouteOrder)
    (event : NetworkEvent) : (d.setRouteManager live).grantedReaction order event =
      (d.grantedReaction order event).setRouteManager live := by
  cases event with
  | interfaceChanged i change =>
    cases change with
    | up =>
      show (if d.shouldApply i then _ else _) = EventDispatcher.setRouteManager (ite _ _ _) live
      split_ifs
      · exact grantedDefaults_setRouteManager h i
      · rfl
    | down => exact grantedDown_setRouteManager h hin order i
    | added => rfl
    | removed => exact grantedDown_setRouteManager h hin order i
  | wifiConnected i ssid =>
    exact grantedRulesFor_setRouteManager (d := d.recordSsid i ssid) h i (some ssid)
  | wifiDisconnected i last => exact grantedDefaults_setRouteManager (d := d.forgetSsid i) h i
  | addressChanged i added removed =>
    exact grantedRulesFor_setRouteManager h i (d.currentSsid i)
  | routeChanged i destination gateway added => rfl

omit h in
theorem foldl_setRouteManager (names : List String) (h : Alike d.executor.routeManager live) :
    names.foldl EventDispatcher.grantedDefaults (d.setRouteManager live) =
      (names.foldl EventDispatcher.grantedDefaults d).setRouteManager live := by
  induction names generalizing d with
  | nil => rfl
  | cons name rest ih =>
    rw [List.foldl_cons, List.foldl_cons, grantedDefaults_setRouteManager h]
    exact ih ((EventDispatcher.grantedDefaults_routeManager d name).symm ▸ h)

/- An operation does the same under either manager. -/
theorem granted_setRouteManager (hin : InHeader d) (op : Dispatch.Op) :
    (d.setRouteManager live).granted op = (d.granted op).setRouteManager live := by
  cases op with
  | start =>
    show (if d.state = .running then _ else _) = EventDispatcher.setRouteManager (ite _ _ _) live
    split_ifs <;> rfl
  | stop => rfl
  | updateConfig config => rfl
  | applyInitialState interfaces =>
    exact foldl_setRouteManager (d := d.withInterfaces interfaces) (d.upNames interfaces) h
  | handleEvent order event =>
    show (if d.state ≠ .running then _ else _) = EventDispatcher.setRouteManager (ite _ _ _) live
    split_ifs
    · rfl
    · exact grantedReaction_setRouteManager (d := d.observing event) h hin order event

end Dispatcher

/-! ### Runs -/

/- A rule has been handed to the executor with the table. -/
def HandedOut (history : List (CallRecord κ)) (t : ℕ) : Prop :=
  ∃ c ∈ history, ∃ rule, c.call = .applyRule rule t

theorem handedOut_suffix {older newer : List (CallRecord κ)} (h : older <:+ newer) {t : ℕ}
    (ht : HandedOut older t) : HandedOut newer t := by
  obtain ⟨c, hc, hrule⟩ := ht
  exact ⟨c, h.subset hc, hrule⟩

/- The history has grown, and has every table of the active routes. -/
structure Traced (older : List (CallRecord κ)) (s : ExecutorState κ) : Prop where
  grown : older <:+ s.history
  handed : ∀ n a, s.executor.activeRoutes.lookup n = some a → HandedOut s.history a.tableId

theorem callsKeep_traced (rt : Rtnetlink κ) (older : List (CallRecord κ)) :
    CallsKeep rt (Traced older) where
  apply rule t s hs := by
    obtain ⟨e, k, ok, heq, he⟩ := applyRule_cases rt rule t s
    rw [heq]
    have hsuffix : s.history <:+ ⟨.applyRule rule t, s.executor, s.kernel, ok⟩ :: s.history :=
      List.suffix_cons _ _
    refine ⟨hs.grown.trans hsuffix, fun n a ha => ?_⟩
    rcases he with rfl | rfl
    · exact handedOut_suffix hsuffix (hs.handed n a ha)
    · change (s.executor.activeRoutes.insert rule.name _).lookup n = some a at ha
      rw [lookup_insert_eq_ite] at ha
      split_ifs at ha with hn
      · cases ha
        exact ⟨_, List.mem_cons_self, rule, rfl⟩
      · exact handedOut_suffix hsuffix (hs.handed n a ha)
  remove rule t s hs := by
    obtain ⟨e, k, ok, heq, he⟩ := removeRule_cases rt rule t s
    rw [heq]
    have hsuffix : s.history <:+ ⟨.removeRule rule t, s.executor, s.kernel, ok⟩ :: s.history :=
      List.suffix_cons _ _
    refine ⟨hs.grown.trans hsuffix, fun n a ha => ?_⟩
    rcases he with rfl | rfl
    · exact handedOut_suffix hsuffix (hs.handed n a ha)
    · change (s.executor.activeRoutes.erase rule.name).lookup n = some a at ha
      rw [lookup_erase_eq_ite] at ha
      split_ifs at ha with hn
      exact handedOut_suffix hsuffix (hs.handed n a ha)
  cleanup s hs := by
    obtain ⟨k, hk⟩ := sweep_ok rt s
    rw [after_ok hk]
    have hsuffix : s.history <:+ ⟨.cleanup, s.executor, s.kernel, true⟩ :: s.history :=
      List.suffix_cons _ _
    exact ⟨hs.grown.trans hsuffix, fun n a ha => handedOut_suffix hsuffix (hs.handed n a ha)⟩

theorem traced_clear {older : List (CallRecord κ)} {s : ExecutorState κ} (h : Traced older s) :
    Traced older { s with executor := s.executor.clearActiveRoutes } := by
  refine ⟨h.grown, fun n a ha => ?_⟩
  change (∅ : HashMap String ActiveRoute).lookup n = some a at ha
  rw [AList.lookup_empty] at ha
  cases ha

theorem traced_run (rt : Rtnetlink κ) (ops : List Dispatch.Op) {s : System κ}
    (h : Traced s.history s.execState) :
    Traced s.history (run (Dispatch.perform rt) s ops).execState :=
  run_keeps_all (callsKeep_traced rt s.history) (fun _ hs => traced_clear hs) ops h

/- A fresh dispatcher, not yet started. -/
def created (config : Config) (rm : RouteManager) (kernel : κ) : System κ :=
  ⟨.new config rm, kernel, []⟩

/- What the two dispatchers have recorded is the same. -/
structure SameRecords (d d' : EventDispatcher) : Prop where
  activeRoutes : d'.executor.activeRoutes = d.executor.activeRoutes
  currentSsids : d'.currentSsids = d.currentSsids
  interfaceIndices : d'.interfaceIndices = d.interfaceIndices
  networkState : d'.networkState = d.networkState

section Faithful

variable {rt : Rtnetlink κ} {rt' : Rtnetlink κ'} {rm live : RouteManager}

/- The live run is the dry run under the other manager. -/
theorem run_setRouteManager (h : Alike rm live) (hc : live.handle.isSome) (hg : rt'.Grants)
    (config : Config) (k : κ) (k' : κ') (ops : List Dispatch.Op)
    (hin : ∀ t, HandedOut (run (Dispatch.perform rt) (created config rm k) ops).history t →
      t ≤ 255) :
    (run (Dispatch.perform rt') (created config live k') ops).dispatcher =
        (run (Dispatch.perform rt) (created config rm k) ops).dispatcher.setRouteManager live ∧
      (run (Dispatch.perform rt) (created config rm k) ops).dispatcher.executor.routeManager =
        rm := by
  induction ops using List.reverseRecOn with
  | nil => exact ⟨rfl, rfl⟩
  | append_singleton pre op ih =>
    have htraced : Traced [] (run (Dispatch.perform rt) (created config rm k) pre).execState := by
      refine traced_run rt pre (s := created config rm k) ⟨List.suffix_rfl, fun n a ha => ?_⟩
      change (∅ : HashMap String ActiveRoute).lookup n = some a at ha
      rw [AList.lookup_empty] at ha
      cases ha
    rw [run_append, run_append] at *
    have hgrown := (traced_run rt [op]
      (s := run (Dispatch.perform rt) (created config rm k) pre)
      ⟨List.suffix_rfl, htraced.handed⟩).grown
    obtain ⟨hsame, hrm⟩ := ih fun t ht => hin t (handedOut_suffix hgrown ht)
    have hheader : InHeader (run (Dispatch.perform rt) (created config rm k) pre).dispatcher :=
      fun n a ha => hin _ (handedOut_suffix hgrown (htraced.handed n a ha))
    have hdry : (Dispatch.perform rt _ op).dispatcher = _ :=
      perform_served (run (Dispatch.perform rt) (created config rm k) pre) op
        (hrm.symm ▸ Or.inl h.dry)
    have hwet : (Dispatch.perform rt' _ op).dispatcher = _ :=
      perform_served (run (Dispatch.perform rt') (created config live k') pre) op
        (hsame.symm ▸ Or.inr ⟨hc, hg⟩)
    refine ⟨?_, ?_⟩
    · show (Dispatch.perform rt' _ op).dispatcher = (Dispatch.perform rt _ op).dispatcher.setRouteManager live
      rw [hwet, hdry, hsame]
      exact granted_setRouteManager (hrm.symm ▸ h) hheader op
    · show (Dispatch.perform rt _ op).dispatcher.executor.routeManager = rm
      rw [hdry, EventDispatcher.granted_routeManager, hrm]

/- A dry run sends no request, and records what a live run records whose requests are all
granted, as long as no table id that it has handed out is beyond the header. -/
theorem dry_run_harmless_and_faithful (h : Alike rm live) (hc : live.handle.isSome)
    (hg : rt'.Grants) (config : Config) (k : κ) (k' : κ') (ops : List Dispatch.Op) :
    (run (Dispatch.perform (logged rt)) (created config rm (k, [])) ops).kernel = (k, []) ∧
      ((∀ t, HandedOut (run (Dispatch.perform (logged rt)) (created config rm (k, [])) ops).history
          t → t ≤ 255) →
        SameRecords (run (Dispatch.perform (logged rt)) (created config rm (k, [])) ops).dispatcher
          (run (Dispatch.perform rt') (created config live k') ops).dispatcher) := by
  refine ⟨(run_untouched (logged rt) ops (s := created config rm (k, [])) h.dry).2, fun hin => ?_⟩
  rw [(run_setRouteManager h hc hg config (k, []) k' ops hin).1]
  exact ⟨rfl, rfl, rfl, rfl⟩

end Faithful

/- eth0 and wlan0 are up at startup, and eth0 goes down. -/
def upThenDown : List Dispatch.Op :=
  [.start, .applyInitialState LinkState.bothUp,
    .handleEvent .asListed (.interfaceChanged "eth0" .down)]

theorem dry_run_harmless_and_faithful_two_links :
    (run (Dispatch.perform (logged grantAll)) (created LinkState.twoLinks .default ((), []))
        upThenDown).kernel = ((), []) ∧
      SameRecords
        (run (Dispatch.perform (logged grantAll)) (created LinkState.twoLinks .default ((), []))
          upThenDown).dispatcher
        (run (Dispatch.perform grantAll) (created LinkState.twoLinks connected ())
          upThenDown).dispatcher := by
  have hlike : Alike .default connected := ⟨rfl, rfl, rfl⟩
  obtain ⟨hharmless, hfaithful⟩ := @dry_run_harmless_and_faithful Unit Unit grantAll grantAll
    .default connected hlike rfl grantAll_grants LinkState.twoLinks () () upThenDown
  refine ⟨hharmless, hfaithful fun t ht => ?_⟩
  have hcalls : (run (Dispatch.perform (logged grantAll))
      (created LinkState.twoLinks .default ((), [])) upThenDown).history.map CallRecord.call =
        [.removeRule LinkState.toEth0 101, .applyRule LinkState.toEth0 101, .cleanup] := by decide
  obtain ⟨c, hc, rule, hcall⟩ := ht
  have hmem := List.mem_map_of_mem (f := CallRecord.call) hc
  rw [hcalls, hcall] at hmem
  simp at hmem
  omega

end NicAutoswitch.Engine.DryRun
