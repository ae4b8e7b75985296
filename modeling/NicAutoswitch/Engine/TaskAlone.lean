import NicAutoswitch.Engine.Tasks
import NicAutoswitch.Router.Granted

/-!
# A task alone

A handler that runs with no other one beside it does what `handle_event` does.
-/

namespace NicAutoswitch.Engine.Tasks
open HashMaps Schema Monitor Router StateProg Transition

variable {κ : Type} {rt : Rtnetlink κ}

/-! ### Handlers as lists of work -/

/- A call, taken at once. -/
def called (rt : Rtnetlink κ) (s : System κ) : Work → System κ
  | .applyDefault rule t => applied rt t s rule
  | .applyProfile rule t => applied rt t s rule
  | .remove rule t => System.withExec (after (RuleExecutor.removeRule rt rule t) s.execState) s

/- A turn of a loop. -/
def performed (rt : Rtnetlink κ) (s : System κ) (w : Work) : System κ :=
  if w.skipped s.dispatcher.executor then s else called rt s w

/- The system with the dispatcher of a handler that has found out what to do. -/
def readied (s : System κ) (x : List Work × EventDispatcher) : System κ :=
  { s with dispatcher := x.2 }

theorem defaults_performed (i : String) (s : System κ) :
    appliedDefaults rt s i =
      run (performed rt) (readied s (defaultsWork i s.dispatcher))
        (defaultsWork i s.dispatcher).1 := by
  unfold appliedDefaults defaultsWork
  split_ifs with he
  · rfl
  · simp only [run, List.foldl_map]
    rfl

theorem rules_performed (i : String) (ssid : Option String) (s : System κ) :
    appliedRules rt s i ssid =
      run (performed rt) (readied s (rulesWork i ssid s.dispatcher))
        (rulesWork i ssid s.dispatcher).1 := by
  unfold appliedRules rulesWork
  cases ssid.bind s.dispatcher.config.wifiProfiles.lookup with
  | none => exact defaults_performed i s
  | some profile =>
    simp only [run, List.foldl_map]
    rfl

theorem removes_performed (rules : HashMap String RouteRule) (todo : List (String × ℕ))
    (s : System κ) : run (removeOne rt rules) s todo =
      run (performed rt) s (todo.filterMap fun entry =>
        (rules.lookup entry.1).map (Work.remove · entry.2)) := by
  induction todo generalizing s with
  | nil => rfl
  | cons entry rest ih =>
    rw [run_cons]
    unfold removeOne
    cases hr : rules.lookup entry.1 with
    | none =>
      rw [List.filterMap_cons_none (by rw [hr]; rfl)]
      exact ih s
    | some rule =>
      rw [List.filterMap_cons_some (by rw [hr]; rfl), run_cons]
      exact ih _

theorem reacted_performed (order : RouteOrder) (event : NetworkEvent) (s : System κ) :
    reacted rt order s event =
      run (performed rt) (readied s (reactWork order event s.dispatcher))
        (reactWork order event s.dispatcher).1 := by
  cases event with
  | interfaceChanged i change =>
    cases change with
    | up =>
      simp only [reacted]
      by_cases hs : s.dispatcher.shouldApply i = true
      · have hwork : reactWork order (.interfaceChanged i .up) s.dispatcher =
            defaultsWork i s.dispatcher := if_pos hs
        rw [if_pos hs, hwork]
        exact defaults_performed i s
      · have hwork : reactWork order (.interfaceChanged i .up) s.dispatcher =
            ([], s.dispatcher) := if_neg hs
        rw [if_neg hs, hwork]
        rfl
    | down => exact removes_performed _ _ s
    | added => rfl
    | removed => exact removes_performed _ _ s
  | wifiConnected i ssid => exact rules_performed i (some ssid) _
  | wifiDisconnected i last => exact defaults_performed i _
  | addressChanged i added removed => exact rules_performed i (s.dispatcher.currentSsid i) s
  | routeChanged i destination gateway added => rfl

/- Handling an event is to do what it asks for, one turn after another. -/
theorem handleEvent_performed (order : RouteOrder) (event : NetworkEvent) (s : System κ) :
    after (Dispatch.handleEvent rt order event) s =
      run (performed rt) (readied s (eventWork order event s.dispatcher))
        (eventWork order event s.dispatcher).1 := by
  by_cases hr : s.dispatcher.state = .running
  · rw [handleEvent_after rt order event hr, reacted_performed]
    unfold eventWork
    rw [if_neg (not_not.mpr hr), NetworkState.applyEvent_observe]
    rfl
  · rw [handleEvent_idle rt order event hr]
    unfold eventWork
    rw [if_pos hr]
    rfl

/-! ### Calls -/

/- What becomes of a program of the router layer. -/
def Outcome (x : Net κ Unit) (k : κ) (ok : Bool) (k' : κ) : Prop :=
  if ok then x k = .ok () k' else ∃ e, x k = .error e k'

theorem outcome_congr {x y : Net κ Unit} {k k1 k' : κ} {ok : Bool} (h : x k = y k1)
    (hy : Outcome y k1 ok k') : Outcome x k ok k' := by
  unfold Outcome
  rw [h]
  exact hy

theorem outcome_bind {x y : Net κ Unit} {k k1 k' : κ} {ok : Bool} (hx : Outcome x k true k1)
    (hy : Outcome y k1 ok k') : Outcome (x >>= fun _ => y) k ok k' :=
  outcome_congr (bind_ok hx) hy

theorem outcome_bind_error {x y : Net κ Unit} {k k' : κ} (hx : Outcome x k false k') :
    Outcome (x >>= fun _ => y) k false k' := by
  obtain ⟨e, he⟩ := hx
  exact ⟨e, bind_error he⟩

/- A request settles in the same way in the program and in the task. -/
theorem settled_outcome (tolerated : RtError → Bool) (message : RtError → String)
    (req : κ → Except RtError Unit × κ) (next : Stage) (k : κ) :
    ∃ ok k', Outcome (settle tolerated message req) k ok k' ∧
      settled tolerated next (req k) = (if ok then next else .ended false, k') := by
  unfold Outcome settle settled
  cases hr : req k with
  | mk answer k' =>
    cases answer with
    | ok u => exact ⟨true, k', rfl, rfl⟩
    | error e =>
      cases ht : tolerated e with
      | true => exact ⟨true, k', by simp [ht], by simp [ht]⟩
      | false => exact ⟨false, k', ⟨.route (message e), by simp [ht]⟩, by simp [ht]⟩

/- The last request of a call. -/
theorem last_outcome (tolerated : RtError → Bool) (message : RtError → String)
    (req : κ → Except RtError Unit × κ) (k : κ) :
    ∃ ok k', Outcome (settle tolerated message req) k ok k' ∧
      settled tolerated (.ended true) (req k) = (.ended ok, k') := by
  obtain ⟨ok, k', hout, hset⟩ := settled_outcome tolerated message req (.ended true) k
  refine ⟨ok, k', hout, hset.trans ?_⟩
  cases ok <;> rfl

/- The dispatcher and the kernel with one task. -/
def alone (d : EventDispatcher) (k : κ) (task : Task) : Concurrent κ := ⟨d, k, [task]⟩

def Reaches (rt : Rtnetlink κ) (c c' : Concurrent κ) : Prop :=
  ∃ n, run (step rt) c (List.replicate n 0) = c'

theorem Reaches.refl (c : Concurrent κ) : Reaches rt c c := ⟨0, rfl⟩

theorem Reaches.head {c c' : Concurrent κ} (h : Reaches rt (step rt c 0) c') : Reaches rt c c' := by
  obtain ⟨n, hn⟩ := h
  exact ⟨n + 1, hn⟩

theorem Reaches.trans {c c' c'' : Concurrent κ} (h : Reaches rt c c') (h' : Reaches rt c' c'') :
    Reaches rt c c'' := by
  obtain ⟨n, rfl⟩ := h
  obtain ⟨m, rfl⟩ := h'
  refine ⟨n + m, ?_⟩
  rw [List.replicate_add, run_append]

theorem reaches_resume {d d' : EventDispatcher} {k : κ} {task task' : Task} {c : Concurrent κ}
    (hr : resume d task = some (task', d')) (h : Reaches rt (alone d' k task') c) :
    Reaches rt (alone d k task) c := by
  have hstep : step rt (alone d k task) 0 = alone d' k task' := by
    simp only [step, alone, List.getElem?_cons_zero, hr, List.set_cons_zero]
  exact Reaches.head (hstep ▸ h)

theorem reaches_serve {d : EventDispatcher} {k k' : κ} {w : Work} {stage stage' : Stage}
    {rest : List Work} {c : Concurrent κ} (hw : ∀ ok, stage ≠ .ended ok)
    (hs : serve rt w stage k = (stage', k'))
    (h : Reaches rt (alone d k' (.calling w stage' rest)) c) :
    Reaches rt (alone d k (.calling w stage rest)) c := by
  have hr : resume d (.calling w stage rest) = none := by
    cases stage with
    | ended ok => exact absurd rfl (hw ok)
    | addRule d => rfl
    | getLink d => rfl
    | addRoute d index => rfl
    | delRule d message => rfl
    | delRoute message => rfl
  have hstep : step rt (alone d k (.calling w stage rest)) 0 =
      alone d k' (.calling w stage' rest) := by
    simp only [step, alone, List.getElem?_cons_zero, hr, hs, List.set_cons_zero]
  exact Reaches.head (hstep ▸ h)

section Calls

/- A request, and what the program does if it is settled. -/
theorem bind_reaches {x y : Net κ Unit} {tolerated : RtError → Bool} {message : RtError → String}
    {req : κ → Except RtError Unit × κ} {d : EventDispatcher} {w : Work} {rest : List Work}
    {stage next : Stage} (k : κ) (hw : ∀ ok, stage ≠ .ended ok)
    (hx : x k = settle tolerated message req k)
    (hs : serve rt w stage k = settled tolerated next (req k))
    (hy : ∀ k1, ∃ ok k', Outcome y k1 ok k' ∧
      Reaches rt (alone d k1 (.calling w next rest)) (alone d k' (.calling w (.ended ok) rest))) :
    ∃ ok k', Outcome (x >>= fun _ => y) k ok k' ∧
      Reaches rt (alone d k (.calling w stage rest)) (alone d k' (.calling w (.ended ok) rest)) := by
  obtain ⟨ok1, k1, hout1, hset1⟩ := settled_outcome tolerated message req next k
  have hout := outcome_congr hx hout1
  rw [← hs] at hset1
  cases ok1 with
  | false => exact ⟨false, k1, outcome_bind_error hout, reaches_serve hw hset1 (Reaches.refl _)⟩
  | true =>
    obtain ⟨ok, k', hout', hreach⟩ := hy k1
    exact ⟨ok, k', outcome_bind hout hout', reaches_serve hw hset1 hreach⟩

variable {rm : RouteManager} (hdry : ¬ rm.dryRun = true) (hc : rm.handle.isSome)
  (d : EventDispatcher) (w : Work) (rest : List Work)
include hdry hc

theorem addRoute_reaches (destination : IpNetwork) (k : κ) :
    ∃ ok k', Outcome (rm.addRoute rt destination none w.rule.routeVia.interface w.tableId
        w.rule.priority) k ok k' ∧
      Reaches rt (alone d k (.calling w (.getLink destination) rest))
        (alone d k' (.calling w (.ended ok) rest)) := by
  cases hlink : rt.linkGet w.rule.routeVia.interface k with
  | mk answer k1 =>
    by_cases hfound : ∃ index, answer = .ok (some index)
    · obtain ⟨index, rfl⟩ := hfound
      have hserve : serve rt w (.getLink destination) k = (.addRoute destination index, k1) := by
        simp only [serve, hlink]
      obtain ⟨message, hadd⟩ := addRoute_settles rt hdry hc destination none w.tableId
        w.rule.priority (resolveInterfaceIndex_found hc hlink)
      obtain ⟨ok, k', hout, hset⟩ := last_outcome isAlreadyExists message
        (rt.routeAdd (routeRequest destination none index w.tableId w.rule.priority)) k1
      refine ⟨ok, k', outcome_congr hadd hout, ?_⟩
      apply reaches_serve (fun _ => by simp) hserve
      exact reaches_serve (fun _ => by simp) hset (Reaches.refl _)
    · have hnot : ∀ index, answer ≠ .ok (some index) := fun index he => hfound ⟨index, he⟩
      have hserve : serve rt w (.getLink destination) k = (.ended false, k1) := by
        rcases answer with e | _ | index
        · simp only [serve, hlink]
        · simp only [serve, hlink]
        · exact absurd rfl (hnot index)
      have hfails := addRoute_linkless rt hdry hc destination none w.tableId w.rule.priority
        (resolveInterfaceIndex_lost hc hlink hnot)
      exact ⟨false, k1, hfails, reaches_serve (fun _ => by simp) hserve (Reaches.refl _)⟩

theorem apply_reaches {destination : IpNetwork}
    (hd : RuleOperator.getDestination w.rule = .ok destination) (k : κ) :
    ∃ ok k', Outcome (RuleOperator.applyRule rt rm w.rule 0 w.tableId) k ok k' ∧
      Reaches rt (alone d k (.calling w (.addRule destination) rest))
        (alone d k' (.calling w (.ended ok) rest)) := by
  have hprogram : RuleOperator.applyRule rt rm w.rule 0 w.tableId =
      (rm.addPolicyRule rt (some destination) none w.tableId w.rule.priority >>= fun _ =>
        rm.addRoute rt destination none w.rule.routeVia.interface w.tableId w.rule.priority) := by
    unfold RuleOperator.applyRule RuleOperator.getGateway
    rw [hd]
  obtain ⟨message, hadd⟩ := addPolicyRule_settles rt hdry hc (some destination) none w.tableId
    w.rule.priority
  rw [hprogram]
  exact bind_reaches k (fun _ => by simp) (congrFun hadd k) rfl
    (addRoute_reaches hdry hc d w rest destination)

theorem removeRoute_reaches (destination : IpNetwork) (k : κ) {stage : Stage}
    (hs : stage = match removeRouteMessage destination w.tableId with
      | .error _ => .ended false
      | .ok message => .delRoute message) :
    ∃ ok k', Outcome (rm.removeRoute rt destination w.tableId) k ok k' ∧
      Reaches rt (alone d k (.calling w stage rest)) (alone d k' (.calling w (.ended ok) rest)) := by
  cases hm : removeRouteMessage destination w.tableId with
  | error e =>
    simp only [hm] at hs
    subst hs
    refine ⟨false, k, ⟨e, ?_⟩, Reaches.refl _⟩
    unfold RouteManager.removeRoute
    rw [if_neg hdry, withHandle_some hc]
    simp only [hm]
    rfl
  | ok message =>
    simp only [hm] at hs
    subst hs
    obtain ⟨text, hdel⟩ := removeRoute_settles rt hdry hc hm
    obtain ⟨ok, k', hout, hset⟩ := last_outcome isNoSuchEntry text (rt.routeDel message) k
    rw [hdel]
    exact ⟨ok, k', hout, reaches_serve (fun _ => by simp) hset (Reaches.refl _)⟩

theorem remove_reaches {destination : IpNetwork} {message : RuleMessage}
    (hd : RuleOperator.getDestination w.rule = .ok destination)
    (hm : buildRuleMessage (some destination) none w.tableId w.rule.priority
      (RouteManager.ruleIsIpv4 (some destination) none) = .ok message) (k : κ) :
    ∃ ok k', Outcome (RuleOperator.removeRule rt rm w.rule w.tableId) k ok k' ∧
      Reaches rt (alone d k (.calling w (.delRule destination message) rest))
        (alone d k' (.calling w (.ended ok) rest)) := by
  have hprogram : RuleOperator.removeRule rt rm w.rule w.tableId =
      (rm.removePolicyRule rt (some destination) none w.tableId w.rule.priority >>= fun _ =>
        rm.removeRoute rt destination w.tableId) := by
    unfold RuleOperator.removeRule
    rw [hd]
  obtain ⟨text, hdel⟩ := removePolicyRule_settles rt hdry hc hm
  rw [hprogram]
  exact bind_reaches k (fun _ => by simp) (congrFun hdel k) rfl fun k1 =>
    removeRoute_reaches hdry hc d w rest destination k1 rfl

end Calls

/-! ### From the first request of a call to its end -/

/- The system after a call: what the executor records, and the kernel. -/
structure Completed (d : EventDispatcher) (e : RuleExecutor) (k : κ) (s : System κ) : Prop where
  dispatcher : s.dispatcher = { d with executor := e }
  kernel : s.kernel = k

theorem applied_outcome {s : System κ} {rule : RouteRule} {t : ℕ} {ok : Bool} {k : κ}
    (hv : RuleOperator.validateRule rule = .ok ())
    (h : Outcome (RuleOperator.applyRule rt s.dispatcher.executor.routeManager rule 0 t)
      s.kernel ok k) :
    Completed s.dispatcher
      (if ok then s.dispatcher.executor.trackActiveRoute rule.name rule.routeVia.interface t
        else s.dispatcher.executor) k (applied rt t s rule) := by
  unfold applied
  cases ok with
  | true =>
    rw [after_ok (RuleExecutor.applyRule_ok (s := s.execState) hv h)]
    exact ⟨rfl, rfl⟩
  | false =>
    obtain ⟨e, he⟩ := h
    rw [after_error (RuleExecutor.applyRule_error (s := s.execState) hv he)]
    exact ⟨rfl, rfl⟩

theorem removed_outcome {s : System κ} {rule : RouteRule} {t : ℕ} {ok : Bool} {k : κ}
    (h : Outcome (RuleOperator.removeRule rt s.dispatcher.executor.routeManager rule t)
      s.kernel ok k) :
    Completed s.dispatcher
      (if ok then s.dispatcher.executor.untrackActiveRoute rule.name else s.dispatcher.executor) k
      (System.withExec (after (RuleExecutor.removeRule rt rule t) s.execState) s) := by
  cases ok with
  | true =>
    rw [after_ok (RuleExecutor.removeRule_ok (s := s.execState) h)]
    exact ⟨rfl, rfl⟩
  | false =>
    obtain ⟨e, he⟩ := h
    rw [after_error (RuleExecutor.removeRule_error (s := s.execState) he)]
    exact ⟨rfl, rfl⟩

/- A call of `apply_rule` ends at once, or sends its first request. -/
theorem openApply_cases (rt : Rtnetlink κ) (s : System κ) (rule : RouteRule) (t : ℕ) :
    (∃ ok, Work.openApply s.dispatcher.executor.routeManager rule = .ended ok ∧
      Completed s.dispatcher
        (if ok then s.dispatcher.executor.trackActiveRoute rule.name rule.routeVia.interface t
          else s.dispatcher.executor) s.kernel (applied rt t s rule)) ∨
    ∃ destination, Work.openApply s.dispatcher.executor.routeManager rule = .addRule destination ∧
      RuleOperator.validateRule rule = .ok () ∧
      RuleOperator.getDestination rule = .ok destination ∧
      ¬ s.dispatcher.executor.routeManager.dryRun = true ∧
      s.dispatcher.executor.routeManager.handle.isSome := by
  have hopens := applyOpens s.dispatcher.executor.routeManager rule
  generalize Work.openApply s.dispatcher.executor.routeManager rule = stage at hopens ⊢
  cases hopens with
  | invalid hv =>
    refine Or.inl ⟨false, rfl, ?_⟩
    unfold applied
    rw [after_error (RuleExecutor.applyRule_invalid rt 0 t s.execState hv)]
    exact ⟨rfl, rfl⟩
  | @aimless e hv hd =>
    refine Or.inl ⟨false, rfl, applied_outcome hv ⟨e, ?_⟩⟩
    unfold RuleOperator.applyRule
    rw [hd]
    rfl
  | dry hv hd hdry =>
    have hout := RuleOperator.applyRule_dry rt hd t s.kernel hdry 0
    exact Or.inl ⟨true, rfl, applied_outcome hv hout⟩
  | unconnected hv hd hdry hn =>
    have hout := RuleOperator.applyRule_unconnected rt hd t s.kernel hdry hn 0
    exact Or.inl ⟨false, rfl, applied_outcome hv hout⟩
  | request hv hd hdry hc => exact Or.inr ⟨_, rfl, hv, hd, hdry, hc⟩

theorem openRemove_cases (rt : Rtnetlink κ) (s : System κ) (rule : RouteRule) (t : ℕ) :
    (∃ ok, Work.openRemove s.dispatcher.executor.routeManager rule t = .ended ok ∧
      Completed s.dispatcher
        (if ok then s.dispatcher.executor.untrackActiveRoute rule.name else s.dispatcher.executor)
        s.kernel (System.withExec (after (RuleExecutor.removeRule rt rule t) s.execState) s)) ∨
    ∃ destination message,
      Work.openRemove s.dispatcher.executor.routeManager rule t = .delRule destination message ∧
      RuleOperator.getDestination rule = .ok destination ∧
      buildRuleMessage (some destination) none t rule.priority
        (RouteManager.ruleIsIpv4 (some destination) none) = .ok message ∧
      ¬ s.dispatcher.executor.routeManager.dryRun = true ∧
      s.dispatcher.executor.routeManager.handle.isSome := by
  have hopens := removeOpens s.dispatcher.executor.routeManager rule t
  generalize Work.openRemove s.dispatcher.executor.routeManager rule t = stage at hopens ⊢
  cases hopens with
  | @aimless e hd =>
    refine Or.inl ⟨false, rfl, removed_outcome ⟨e, ?_⟩⟩
    unfold RuleOperator.removeRule
    rw [hd]
    rfl
  | dry hd hdry =>
    have hout := RuleOperator.removeRule_dry rt hd t s.kernel hdry
    exact Or.inl ⟨true, rfl, removed_outcome hout⟩
  | unconnected hd hdry hn =>
    have hout := RuleOperator.removeRule_unconnected rt hd t s.kernel hdry hn
    exact Or.inl ⟨false, rfl, removed_outcome hout⟩
  | unsendable hd hdry hc hm =>
    refine Or.inl ⟨false, rfl, removed_outcome ?_⟩
    unfold RuleOperator.removeRule RouteManager.removePolicyRule
    simp only [hd, if_neg hdry, withHandle_some hc, hm]
    exact ⟨_, rfl⟩
  | request hd hdry hc hm => exact Or.inr ⟨_, _, rfl, hd, hm, hdry, hc⟩

/- The call ends before it has sent a request, or the task reaches its end; what it leaves
is in either case what the call leaves that is taken at once. -/
def CallEnds (rt : Rtnetlink κ) (s : System κ) (w : Work) (rest : List Work) : Prop :=
  (∃ ok, w.opening s.dispatcher.executor.routeManager = .ended ok ∧
    Completed s.dispatcher (w.complete s.dispatcher.executor ok) s.kernel (called rt s w)) ∨
  ∃ ok k, (∀ ok', w.opening s.dispatcher.executor.routeManager ≠ .ended ok') ∧
    Reaches rt
      (alone s.dispatcher s.kernel
        (.calling w (w.opening s.dispatcher.executor.routeManager) rest))
      (alone s.dispatcher k (.calling w (.ended ok) rest)) ∧
    Completed s.dispatcher (w.complete s.dispatcher.executor ok) k (called rt s w)

theorem apply_callEnds {s : System κ} {w : Work} (rest : List Work)
    (hopen : w.opening s.dispatcher.executor.routeManager =
      Work.openApply s.dispatcher.executor.routeManager w.rule)
    (hcomplete : ∀ ok, w.complete s.dispatcher.executor ok =
      if ok then
        s.dispatcher.executor.trackActiveRoute w.rule.name w.rule.routeVia.interface w.tableId
      else s.dispatcher.executor)
    (hcalled : called rt s w = applied rt w.tableId s w.rule) : CallEnds rt s w rest := by
  unfold CallEnds
  simp only [hopen, hcomplete, hcalled]
  rcases openApply_cases rt s w.rule w.tableId with
    ⟨ok, hended, hdone⟩ | ⟨destination, hadd, hv, hd, hdry, hc⟩
  · exact Or.inl ⟨ok, hended, hdone⟩
  · obtain ⟨ok, k, hout, hreach⟩ := apply_reaches hdry hc s.dispatcher w rest hd s.kernel
    refine Or.inr ⟨ok, k, fun ok' he => ?_, ?_, applied_outcome hv hout⟩
    · rw [hadd] at he
      cases he
    · rw [hadd]
      exact hreach

theorem remove_callEnds (s : System κ) (rule : RouteRule) (t : ℕ) (rest : List Work) :
    CallEnds rt s (.remove rule t) rest := by
  rcases openRemove_cases rt s rule t with
    ⟨ok, hended, hdone⟩ | ⟨destination, message, hdel, hd, hm, hdry, hc⟩
  · exact Or.inl ⟨ok, hended, hdone⟩
  · obtain ⟨ok, k, hout, hreach⟩ := remove_reaches hdry hc s.dispatcher (.remove rule t) rest hd hm
      s.kernel
    have hopen : (Work.remove rule t).opening s.dispatcher.executor.routeManager =
        .delRule destination message := hdel
    refine Or.inr ⟨ok, k, fun ok' he => ?_, ?_, removed_outcome hout⟩
    · rw [hopen] at he
      cases he
    · rw [hopen]
      exact hreach

theorem callEnds (rt : Rtnetlink κ) (s : System κ) (w : Work) (rest : List Work) :
    CallEnds rt s w rest := by
  cases w with
  | applyDefault rule t => exact apply_callEnds rest rfl (fun _ => rfl) rfl
  | applyProfile rule t => exact apply_callEnds rest rfl (fun _ => rfl) rfl
  | remove rule t => exact remove_callEnds s rule t rest

/-! ### A handler -/

/- The rest of a handler, taken on alone, ends in the state that its loop ends in. -/
theorem advance_reaches (work : List Work) (s : System κ) :
    Reaches rt (alone (advance work s.dispatcher).2 s.kernel (advance work s.dispatcher).1)
      (alone (run (performed rt) s work).dispatcher (run (performed rt) s work).kernel
        .finished) := by
  induction work generalizing s with
  | nil => exact Reaches.refl _
  | cons w rest ih =>
    rw [run_cons]
    cases hs : w.skipped s.dispatcher.executor with
    | true =>
      have hskip : performed rt s w = s := by
        unfold performed
        rw [hs]
        rfl
      have hadvance : advance (w :: rest) s.dispatcher = advance rest s.dispatcher := by
        rw [advance, if_pos hs]
      rw [hskip, hadvance]
      exact ih s
    | false =>
      have hcall : performed rt s w = called rt s w := by
        unfold performed
        rw [hs]
        rfl
      rw [hcall]
      have hnext := ih (called rt s w)
      rcases callEnds rt s w rest with
        ⟨ok, hended, hdone⟩ | ⟨ok, k, hcalled, hreach, hdone⟩
      · have hadvance : advance (w :: rest) s.dispatcher = advance rest
            { s.dispatcher with executor := w.complete s.dispatcher.executor ok } := by
          rw [advance, hs, hended]
          rfl
        rw [hadvance]
        rw [hdone.dispatcher, hdone.kernel] at hnext
        exact hnext
      · have hadvance : advance (w :: rest) s.dispatcher =
            (.calling w (w.opening s.dispatcher.executor.routeManager) rest, s.dispatcher) := by
          rw [advance, hs]
          cases ho : w.opening s.dispatcher.executor.routeManager with
          | ended ok' => exact absurd ho (hcalled ok')
          | addRule d => rfl
          | getLink d => rfl
          | addRoute d index => rfl
          | delRule d message => rfl
          | delRoute message => rfl
        rw [hadvance]
        rw [hdone.dispatcher, hdone.kernel] at hnext
        exact hreach.trans (reaches_resume rfl hnext)

/- A handler with no other one beside it does what `handle_event` does. -/
theorem alone_handleEvent (order : RouteOrder) (event : NetworkEvent) (s : System κ) :
    Reaches rt (alone s.dispatcher s.kernel (.spawned order event))
      (alone (after (Dispatch.handleEvent rt order event) s).dispatcher
        (after (Dispatch.handleEvent rt order event) s).kernel .finished) := by
  rw [handleEvent_performed]
  exact reaches_resume rfl (advance_reaches _ (readied s (eventWork order event s.dispatcher)))

end NicAutoswitch.Engine.Tasks
