import NicAutoswitch.Engine.ExecutorInvariant
import NicAutoswitch.Engine.Handlers
import NicAutoswitch.Engine.LinkState

/-!
# Table ids and the ranges of the families

A table id is the base and an index below 256. Nothing bounds the sum by the end of the
IPv4 range, and the family of a rule has no part in it.
-/

namespace NicAutoswitch.Engine.TableRanges
open HashMaps Schema Monitor Router StateProg Transition

variable {κ : Type}

/- A rule to the destination has been handed to the executor with the table. -/
def Handed (history : List (CallRecord κ)) (d : IpNetwork) (t : ℕ) : Prop :=
  ∃ c ∈ history, ∃ rule, c.call = .applyRule rule t ∧ RuleOperator.target? rule = some d

/- The table is in the range of the network's family. -/
def InFamilyRange (d : IpNetwork) (t : ℕ) : Prop :=
  if d.isIpv4 then ipv4TableStart ≤ t ∧ t ≤ ipv4TableEnd
  else ipv6TableStart ≤ t ∧ t ≤ ipv6TableEnd

instance (d : IpNetwork) (t : ℕ) : Decidable (InFamilyRange d t) :=
  inferInstanceAs (Decidable (ite _ (_ ∧ _) (_ ∧ _)))

structure TablesInRange (history : List (CallRecord κ)) : Prop where
  range : ∀ d t, Handed history d t → InFamilyRange d t
  header : ∀ d t, Handed history d t → tableIdToU8 t = .ok t
  unreserved : ∀ d t, Handed history d t → ¬ (253 ≤ t ∧ t ≤ 255)
  apart : ∀ d d' t, Handed history d t → Handed history d' t → d.isIpv4 = d'.isIpv4

/- In the range of its family, and below the reserved tables. -/
def Fits (history : List (CallRecord κ)) : Prop :=
  ∀ d t, Handed history d t → InFamilyRange d t ∧ t ≤ 252

theorem tablesInRange_of_fits {history : List (CallRecord κ)} (h : Fits history) :
    TablesInRange history := by
  refine ⟨fun d t ht => (h d t ht).1, fun d t ht => ?_, fun d t ht => ?_, fun d d' t ht ht' => ?_⟩
  · have hle := (h d t ht).2
    exact tableIdToU8_ok (by omega)
  · have hle := (h d t ht).2
    omega
  · have hr := (h d t ht).1
    have hr' := (h d' t ht').1
    unfold InFamilyRange ipv4TableEnd ipv6TableStart at hr hr'
    cases hd : d.isIpv4 <;> cases hd' : d'.isIpv4 <;> simp only [hd, hd'] at hr hr' ⊢
    · simp only [Bool.false_eq_true, if_false, if_true] at hr hr'
      omega
    · simp only [Bool.false_eq_true, if_false, if_true] at hr hr'
      omega

/- The table suits the rule: one of the IPv4 range or below it, or one of the IPv6 range
below the reserved tables. -/
def Suits (t : ℕ) (rule : RouteRule) : Prop :=
  ∀ d, RuleOperator.target? rule = some d →
    if d.isIpv4 then t ≤ ipv4TableEnd else ipv6TableStart ≤ t ∧ t ≤ 252

theorem fits_apply {history : List (CallRecord κ)} {rule : RouteRule} {t : ℕ} {e : RuleExecutor}
    {k : κ} {ok : Bool} (ht : ipv4TableStart ≤ t) (hs : Suits t rule) (h : Fits history) :
    Fits (⟨.applyRule rule t, e, k, ok⟩ :: history) := by
  intro d u hu
  obtain ⟨c, hc, r, hcall, hd⟩ := hu
  rcases List.mem_cons.mp hc with rfl | hold
  · cases hcall
    have hx := hs d hd
    unfold InFamilyRange ipv6TableEnd
    unfold ipv4TableEnd at hx ⊢
    split_ifs at hx ⊢ <;> omega
  · exact h d u ⟨c, hold, r, hcall, hd⟩

/- Calls that apply no rule hand over no table. -/
theorem fits_other {history : List (CallRecord κ)} {c : CallRecord κ}
    (hc : ∀ rule t, c.call ≠ .applyRule rule t) (h : Fits history) : Fits (c :: history) := by
  intro d t ht
  obtain ⟨c', hm, rule, hcall, hd⟩ := ht
  rcases List.mem_cons.mp hm with rfl | hold
  · exact absurd hcall (hc rule t)
  · exact h d t ⟨c', hold, rule, hcall, hd⟩

/-! ### Applying rules -/

variable (rt : Rtnetlink κ)

theorem applied_fits {s : System κ} {rule : RouteRule} {t : ℕ} (ht : ipv4TableStart ≤ t)
    (hs : Suits t rule) (h : Fits s.history) : Fits (applied rt t s rule).history := by
  obtain ⟨e, k, ok, he, _⟩ := applyRule_cases rt rule t s.execState
  unfold applied
  rw [he]
  exact fits_apply ht hs h

/- A route stays active while rules are applied. -/
theorem applied_keeps_active {s : System κ} (t : ℕ) (rule : RouteRule) {n : String}
    (h : s.dispatcher.executor.isRouteActive n = true) :
    (applied rt t s rule).dispatcher.executor.isRouteActive n = true := by
  obtain ⟨e, k, ok, he, hexec⟩ := applyRule_cases rt rule t s.execState
  unfold applied
  rw [he]
  rcases hexec with rfl | rfl
  · exact h
  · unfold RuleExecutor.isRouteActive at h ⊢
    rw [decide_eq_true_iff] at h ⊢
    exact (AList.mem_insert _).mpr (Or.inr h)

theorem loop_fits {t : ℕ} (ht : ipv4TableStart ≤ t) (rules : List RouteRule) (s : System κ)
    (hs : ∀ rule ∈ rules, ¬ s.dispatcher.executor.isRouteActive rule.name = true → Suits t rule)
    (h : Fits s.history) : Fits (run (appliedUnlessActive rt t) s rules).history := by
  induction rules generalizing s with
  | nil => exact h
  | cons rule rest ih =>
    rw [run_cons]
    unfold appliedUnlessActive
    split_ifs with ha
    · exact ih s (fun r hr => hs r (List.mem_cons_of_mem rule hr)) h
    · refine ih _ (fun r hr hn => ?_) (applied_fits rt ht (hs rule List.mem_cons_self ha) h)
      have hnow : ¬ s.dispatcher.executor.isRouteActive r.name = true :=
        fun hx => hn (applied_keeps_active rt t rule hx)
      exact hs r (List.mem_cons_of_mem rule hr) hnow

theorem tableId_start (d : EventDispatcher) (i : String) :
    ipv4TableStart ≤ (d.getTableIdForInterface i).1 :=
  le_trans d.executor.routeManager.base_mem.1 (Nat.le_add_right _ _)

/- The default rules that an event of the interface would apply suit its table. -/
def DefaultsSuit (d : EventDispatcher) (i : String) : Prop :=
  ∀ rule ∈ d.config.routing.defaultRules, ¬ d.executor.isRouteActive rule.name = true →
    Suits (d.executor.routeManager.baseTableId + indexOf d i) rule

def RulesSuit (d : EventDispatcher) (i : String) (ssid : Option String) : Prop :=
  match ssid.bind d.config.wifiProfiles.lookup with
  | some profile =>
    ∀ rule ∈ profile.rules, Suits (d.executor.routeManager.baseTableId + indexOf d i) rule
  | none => DefaultsSuit d i

theorem defaults_fit {s : System κ} {i : String} (hs : DefaultsSuit s.dispatcher i)
    (h : Fits s.history) : Fits (appliedDefaults rt s i).history := by
  unfold appliedDefaults
  split_ifs
  · exact h
  · exact loop_fits rt (tableId_start s.dispatcher i) _ (indexed i s) hs h

theorem rules_fit {s : System κ} {i : String} {ssid : Option String}
    (hs : RulesSuit s.dispatcher i ssid) (h : Fits s.history) :
    Fits (appliedRules rt s i ssid).history := by
  unfold RulesSuit at hs
  unfold appliedRules
  cases hp : ssid.bind s.dispatcher.config.wifiProfiles.lookup with
  | none =>
    rw [hp] at hs
    exact defaults_fit rt hs h
  | some profile =>
    rw [hp] at hs
    exact run_invariant (applied rt _) (fun s => Fits s.history) (Suits _)
      (fun _ _ hr hf => applied_fits rt (tableId_start s.dispatcher i) hr hf) (indexed i s)
      profile.rules hs h

/-! ### Runs -/

/- The condition on an event, judged in the state before it. -/
def EventSuits (d : EventDispatcher) : NetworkEvent → Prop
  | .interfaceChanged i .up =>
    (d.observing (.interfaceChanged i .up)).shouldApply i = true → DefaultsSuit d i
  | .wifiConnected i ssid => RulesSuit d i (some ssid)
  | .wifiDisconnected i _ => DefaultsSuit d i
  | .addressChanged i _ _ => RulesSuit d i (d.currentSsid i)
  | _ => True

/- The initial state applies the default rules for one interface after the other. -/
def OpSuits (s : System κ) : Dispatch.Op → Prop
  | .handleEvent _ event => s.dispatcher.state = .running → EventSuits s.dispatcher event
  | .applyInitialState interfaces =>
    Along (appliedDefaults rt) (fun s i => DefaultsSuit s.dispatcher i) (swept rt interfaces s)
      (s.dispatcher.upNames interfaces)
  | _ => True

theorem removals_fit (rule : RouteRule) (t : ℕ) :
    Preserves (fun s : ExecutorState κ => Fits s.history) (RuleExecutor.removeRule rt rule t) := by
  intro s h
  obtain ⟨e, k, ok, he, _⟩ := removeRule_cases rt rule t s
  rw [he]
  exact fits_other (fun _ _ hc => by cases hc) h

theorem removes_fit {s : System κ} (rules : HashMap String RouteRule) (todo : List (String × ℕ))
    (h : Fits s.history) : Fits (run (removeOne rt rules) s todo).history := by
  refine run_preserves (removeOne rt rules) (fun s' => Fits s'.history) (fun s' e hs => ?_) s todo h
  unfold removeOne
  cases rules.lookup e.1 with
  | none => exact hs
  | some rule => exact removals_fit rt rule e.2 s'.execState hs

theorem reacted_fits {s : System κ} (order : RouteOrder) (event : NetworkEvent)
    (hs : EventSuits s.dispatcher event) (h : Fits s.history) :
    Fits (reacted rt order (observed event s) event).history := by
  cases event with
  | interfaceChanged i change =>
    cases change with
    | up =>
      simp only [reacted]
      split_ifs with ha
      · exact defaults_fit rt (s := observed (.interfaceChanged i .up) s) (hs ha) h
      · exact h
    | down => exact removes_fit rt _ _ h
    | removed => exact removes_fit rt _ _ h
    | added => exact h
  | wifiConnected i ssid =>
    exact rules_fit rt (s := ⟨(s.dispatcher.observing _).recordSsid i ssid, s.kernel, s.history⟩)
      hs h
  | wifiDisconnected i last =>
    exact defaults_fit rt (s := ⟨(s.dispatcher.observing _).forgetSsid i, s.kernel, s.history⟩)
      hs h
  | addressChanged i added removed =>
    exact rules_fit rt (s := observed (.addressChanged i added removed) s) hs h
  | routeChanged i destination gateway added => exact h

theorem swept_fits {s : System κ} (interfaces : List InterfaceInfo) (h : Fits s.history) :
    Fits (swept rt interfaces s).history := by
  obtain ⟨k, hk⟩ := sweep_ok rt s.execState
  unfold swept
  rw [after_ok hk]
  exact fits_other (fun _ _ hc => by cases hc) h

theorem perform_fits {s : System κ} {op : Dispatch.Op} (hs : OpSuits rt s op)
    (h : Fits s.history) : Fits (Dispatch.perform rt s op).history := by
  cases op with
  | start => exact h
  | stop => exact h
  | updateConfig config => exact h
  | applyInitialState interfaces =>
    show Fits (after (Dispatch.applyInitialState rt interfaces) s).history
    rw [applyInitialState_after]
    exact throughout_of_along (appliedDefaults rt) (fun s => Fits s.history)
      (fun s i => DefaultsSuit s.dispatcher i) (fun _ _ hf hd => defaults_fit rt hd hf) _ _
      (swept_fits rt interfaces h) hs _ List.prefix_rfl
  | handleEvent order event =>
    show Fits (after (Dispatch.handleEvent rt order event) s).history
    by_cases hr : s.dispatcher.state = .running
    · rw [handleEvent_after rt order event hr]
      exact reacted_fits rt order event (hs hr) h
    · rw [handleEvent_idle rt order event hr]
      exact h

/- In a run whose operations find every rule that they apply to suit the table of the
interface, all tables stay in the ranges. -/
theorem tables_in_range_of_suits (config : Config) (rm : RouteManager) (k : κ)
    (ops : List Dispatch.Op)
    (hs : Along (Dispatch.perform rt) (OpSuits rt) (Dispatch.launch config rm k) ops) :
    Throughout (Dispatch.perform rt) (fun s => TablesInRange s.history)
      (Dispatch.launch config rm k) ops := by
  have hfit : Throughout (Dispatch.perform rt) (fun s => Fits s.history)
      (Dispatch.launch config rm k) ops :=
    throughout_of_along (Dispatch.perform rt) (fun s => Fits s.history) (OpSuits rt)
      (fun _ _ hf hop => perform_fits rt hop hf) _ ops
      (fun d t ht => by obtain ⟨c, hc, _⟩ := ht; cases hc) hs
  exact fun pre hpre => tablesInRange_of_fits (hfit pre hpre)

def joined : List Dispatch.Op := [.handleEvent .asListed (.wifiConnected "wlan0" "home")]

/- The default rule of a host with two links suits the table of the second one. -/
theorem tables_in_range_of_suits_two_links :
    Throughout (Dispatch.perform grantAll) (fun s => TablesInRange s.history)
      (Dispatch.launch LinkState.twoLinks .default ()) joined := by
  refine tables_in_range_of_suits grantAll LinkState.twoLinks .default () joined
    ⟨fun _ rule hm _ d hd => ?_, trivial⟩
  have hrule : rule = LinkState.toEth0 := List.mem_singleton.mp hm
  subst hrule
  cases hd
  decide

def toEth0V6 : RouteRule := ⟨"lan6", .cidr (.v6 ⟨0xfd000000000000000000000000000000, 8, len8_v6⟩),
  ⟨"eth0"⟩, 100⟩

/- The default rule is for IPv6. -/
def ipv6Lan : Config := { LinkState.twoLinks with routing := ⟨[toEth0V6]⟩ }

/- The rule for IPv6 is handed over with a table of the IPv4 range. -/
theorem ipv6_rule_in_ipv4_table :
    ipv6Lan.validate = .ok () ∧
      ¬ Throughout (Dispatch.perform grantAll) (fun s => TablesInRange s.history)
        (Dispatch.launch ipv6Lan .default ()) joined := by
  refine ⟨by decide +kernel, fun h => ?_⟩
  have hcalls : (run (Dispatch.perform grantAll) (Dispatch.launch ipv6Lan .default ())
      joined).history.map (·.call) = [.applyRule toEth0V6 100] := by decide
  obtain ⟨c, hm, hc⟩ := List.mem_map.mp (hcalls ▸ List.mem_singleton.mpr rfl)
  have hrange := (h _ List.prefix_rfl).range _ 100 ⟨c, hm, toEth0V6, hc, rfl⟩
  exact absurd hrange (by decide)

end NicAutoswitch.Engine.TableRanges
