import NicAutoswitch.Engine.Handlers

/-!
# Rules that fail to apply

The loops over the rules of a profile and over the default rules go on after a rule that
fails. The rules whose own call succeeds account for all that becomes of the active routes:
those of a profile overwrite the entries of their names, the default rules are passed over
where their name is tracked already.
-/

namespace NicAutoswitch.Engine.FailingRules
open HashMaps Schema Router StateProg Transition

variable {κ : Type} (rt : Rtnetlink κ)

/- The map with the entry of the rule. -/
def record (t : ℕ) (routes : HashMap String ActiveRoute) (rule : RouteRule) :
    HashMap String ActiveRoute :=
  routes.insert rule.name (entryOf t rule)

/- The rules of a profile whose own call succeeds. -/
def goodRules (index t : ℕ) (s : ExecutorState κ) (rules : List RouteRule) : List RouteRule :=
  accepted (attempted rt index t) (succeeds rt index t) s rules

/- The default rule is not tracked when it is reached, and its call succeeds. -/
def joins (t : ℕ) (s : System κ) (rule : RouteRule) : Bool :=
  !s.dispatcher.executor.isRouteActive rule.name && succeeds rt 0 t s.execState rule

/- The default rules that are recorded when they are applied for the interface. -/
def goodDefaults (i : String) (s : System κ) : List RouteRule :=
  accepted (appliedUnlessActive rt (s.dispatcher.getTableIdForInterface i).1)
    (joins rt (s.dispatcher.getTableIdForInterface i).1) (indexed i s)
    s.dispatcher.config.routing.defaultRules

/-! ### One rule -/

theorem attempted_executor (index t : ℕ) (s : ExecutorState κ) (rule : RouteRule) :
    (attempted rt index t s rule).executor =
      if succeeds rt index t s rule then
        s.executor.trackActiveRoute rule.name rule.routeVia.interface t
      else s.executor := by
  obtain ⟨k, h⟩ := attempted_eq rt index t s rule
  rw [h]

theorem attempted_activeRoutes (index t : ℕ) (s : ExecutorState κ) (rule : RouteRule) :
    (attempted rt index t s rule).executor.activeRoutes =
      if succeeds rt index t s rule then record t s.executor.activeRoutes rule
      else s.executor.activeRoutes := by
  rw [attempted_executor]
  split_ifs <;> rfl

theorem unlessActive_activeRoutes (t : ℕ) (s : System κ) (rule : RouteRule) :
    (appliedUnlessActive rt t s rule).dispatcher.executor.activeRoutes =
      if joins rt t s rule then record t s.dispatcher.executor.activeRoutes rule
      else s.dispatcher.executor.activeRoutes := by
  unfold appliedUnlessActive joins
  cases ha : s.dispatcher.executor.isRouteActive rule.name with
  | true => rfl
  | false => exact attempted_activeRoutes rt 0 t s.execState rule

/- A default rule that is recorded replaces no entry. -/
theorem unlessActive_keeps {t : ℕ} {s : System κ} {n : String} {a : ActiveRoute}
    (h : s.dispatcher.activeRoute n = some a) (rule : RouteRule) :
    (appliedUnlessActive rt t s rule).dispatcher.activeRoute n = some a := by
  unfold EventDispatcher.activeRoute
  rw [unlessActive_activeRoutes]
  split_ifs with hj
  · have hne : n ≠ rule.name := by
      rintro rfl
      have hactive := (RuleExecutor.isRouteActive_iff _ _).mpr ⟨a, h⟩
      simp [joins, hactive] at hj
    exact (AList.lookup_insert_ne hne).trans h
  · exact h

/-! ### Loops -/

/- The entry of a name is that of the last recorded rule of the name, or the one before. -/
theorem lookup_run_record (t : ℕ) (routes : HashMap String ActiveRoute) (rules : List RouteRule)
    (n : String) : (run (record t) routes rules).lookup n =
      ((rules.reverse.find? fun rule => decide (rule.name = n)).map (entryOf t)).or
        (routes.lookup n) := by
  refine run_last (record t) (fun m => m.lookup n) (fun rule => decide (rule.name = n))
    (entryOf t) (fun _ => True) (fun _ _ h => h) (fun m rule _ => ?_) routes rules trivial
  simp only [decide_eq_true_eq, eq_comm (a := rule.name)]
  exact lookup_insert_eq_ite m rule.name n (entryOf t rule)

theorem lookup_run_record_other (t : ℕ) (routes : HashMap String ActiveRoute)
    {rules : List RouteRule} {n : String} (h : ∀ rule ∈ rules, rule.name ≠ n) :
    (run (record t) routes rules).lookup n = routes.lookup n := by
  have hnone : (rules.reverse.find? fun rule => decide (rule.name = n)) = none := by
    rw [List.find?_eq_none]
    intro rule hm
    simp only [decide_eq_true_eq]
    exact h rule (List.mem_reverse.mp hm)
  rw [lookup_run_record, hnone]
  rfl

theorem attempts_activeRoutes (index t : ℕ) (s : ExecutorState κ) (rules : List RouteRule) :
    (run (attempted rt index t) s rules).executor.activeRoutes =
      run (record t) s.executor.activeRoutes (goodRules rt index t s rules) :=
  run_accepted (attempted rt index t) (succeeds rt index t)
    (fun s => s.executor.activeRoutes) (record t) (attempted_activeRoutes rt index t) s rules

theorem appliedDefaults_activeRoutes (i : String) (s : System κ) :
    (appliedDefaults rt s i).dispatcher.executor.activeRoutes =
      run (record (s.dispatcher.getTableIdForInterface i).1) s.dispatcher.executor.activeRoutes
        (goodDefaults rt i s) := by
  unfold appliedDefaults
  split_ifs with he
  · unfold goodDefaults
    rw [List.isEmpty_iff.mp he]
    rfl
  · exact run_accepted (appliedUnlessActive rt _) (joins rt _)
      (fun s => s.dispatcher.executor.activeRoutes) (record _) (unlessActive_activeRoutes rt _)
      (indexed i s) _

theorem appliedDefaults_keeps {i n : String} {s : System κ} {a : ActiveRoute}
    (h : s.dispatcher.activeRoute n = some a) :
    (appliedDefaults rt s i).dispatcher.activeRoute n = some a := by
  unfold appliedDefaults
  split_ifs
  · exact h
  · exact run_preserves (appliedUnlessActive rt _)
      (fun s' => s'.dispatcher.activeRoute n = some a)
      (fun _ rule hs => unlessActive_keeps rt hs rule) (indexed i s) _ h

/- Both loops come to their end, and a rule that fails leaves the executor as it was: the
active routes are those before, overwritten or extended by the rules that succeed. -/
theorem failing_rules_alone :
    (∀ (index t : ℕ) (s : ExecutorState κ) (rule : RouteRule),
      succeeds rt index t s rule = false →
        (attempted rt index t s rule).executor = s.executor) ∧
    (∀ (profile : WifiProfile) (index t : ℕ) (s : ExecutorState κ), ∃ s',
      RuleExecutor.applyWifiProfile rt profile index t s =
          .ok (goodRules rt index t s profile.rules).length s' ∧
        s' = run (attempted rt index t) s profile.rules ∧
        s'.executor.activeRoutes =
          run (record t) s.executor.activeRoutes (goodRules rt index t s profile.rules) ∧
        ∀ n, (∀ rule ∈ goodRules rt index t s profile.rules, rule.name ≠ n) →
          s'.executor.activeRoutes.lookup n = s.executor.activeRoutes.lookup n) ∧
    ∀ (i : String) (s : System κ), ∃ s', Dispatch.applyDefaultRules rt i s = .ok () s' ∧
      s'.dispatcher.executor.activeRoutes =
        run (record (s.dispatcher.getTableIdForInterface i).1)
          s.dispatcher.executor.activeRoutes (goodDefaults rt i s) ∧
      (∀ n a, s.dispatcher.activeRoute n = some a → s'.dispatcher.activeRoute n = some a) ∧
      ∀ n, (∀ rule ∈ goodDefaults rt i s, rule.name ≠ n) →
        s'.dispatcher.activeRoute n = s.dispatcher.activeRoute n := by
  refine ⟨fun index t s rule hf => ?_, fun profile index t s => ?_, fun i s => ?_⟩
  · rw [attempted_executor, hf]
    rfl
  · have hroutes := attempts_activeRoutes rt index t s profile.rules
    refine ⟨run (attempted rt index t) s profile.rules, ?_, rfl, hroutes, fun n hn => ?_⟩
    · have hloop := applyRules_ok rt index t profile.rules 0 s
      rw [Nat.zero_add] at hloop
      exact hloop
    · rw [hroutes]
      exact lookup_run_record_other t _ hn
  · have hroutes := appliedDefaults_activeRoutes rt i s
    refine ⟨appliedDefaults rt s i, applyDefaultRules_ok rt i s, hroutes,
      fun n a h => appliedDefaults_keeps rt h, fun n hn => ?_⟩
    unfold EventDispatcher.activeRoute
    rw [hroutes]
    exact lookup_run_record_other _ _ hn

def lanVia (link : String) : RouteRule :=
  ⟨"lan", .cidr (.v4 ⟨0x0a000000, 8, len8_v4⟩), ⟨link⟩, 100⟩

/- A rule without an interface fails, the one after it does not. -/
example : goodRules grantAll 0 100 ⟨.new .default, (), []⟩
    [lanVia "eth0", lanVia "", lanVia "wlan0"] = [lanVia "eth0", lanVia "wlan0"] := by
  decide

/-! ### Every pattern of failures -/

/- A kernel that answers the requests for policy rules in turn as the list says. -/
def answering : Rtnetlink (List Bool) where
  routeAdd _ answers := (.ok (), answers)
  routeDel _ answers := (.ok (), answers)
  routeGet _ _ answers := ([], answers)
  ruleAdd _ answers :=
    (if answers.headD true then .ok () else .error (.other "refused"), answers.tail)
  ruleDel _ answers := (.ok (), answers)
  ruleGet _ answers := ([], answers)
  linkGet _ answers := (.ok (some 1), answers)

section Pattern

variable {rm : RouteManager} (hd : ¬ rm.dryRun = true) (hc : rm.handle.isSome)
include hd hc

theorem applyRule_answering {rule : RouteRule} (hr : RuleOperator.Installable rule)
    (index t : ℕ) (answer : Bool) (rest : List Bool) :
    (answer = true → RuleOperator.applyRule answering rm rule index t (answer :: rest) =
      .ok () rest) ∧
    (answer = false → ∃ e, RuleOperator.applyRule answering rm rule index t (answer :: rest) =
      .error e rest) := by
  obtain ⟨d, ht⟩ := Option.isSome_iff_exists.mp hr.2
  have hdest := RuleOperator.getDestination_ok.mpr ht
  obtain ⟨m, hpolicy⟩ := addPolicyRule_settles answering hd hc (some d) none t rule.priority
  have hlink : rm.resolveInterfaceIndex answering rule.routeVia.interface rest = .ok 1 rest :=
    resolveInterfaceIndex_found hc rfl
  obtain ⟨m', hroute⟩ := addRoute_settles answering hd hc d none t rule.priority hlink
  unfold RuleOperator.applyRule
  simp only [hdest, RuleOperator.getGateway, hpolicy]
  refine ⟨?_, ?_⟩
  · rintro rfl
    exact (bind_ok (settle_ok rfl)).trans (hroute.trans (settle_ok rfl))
  · rintro rfl
    exact ⟨_, bind_error rfl⟩

end Pattern

theorem attempted_answering {s : ExecutorState (List Bool)} {rule : RouteRule}
    (hr : RuleOperator.Installable rule) (hd : ¬ s.executor.routeManager.dryRun = true)
    (hc : s.executor.routeManager.handle.isSome) (index t : ℕ) {answer : Bool}
    {rest : List Bool} (hk : s.kernel = answer :: rest) :
    succeeds answering index t s rule = answer ∧
      (attempted answering index t s rule).kernel = rest ∧
      (attempted answering index t s rule).executor.routeManager = s.executor.routeManager := by
  obtain ⟨hgrant, hrefuse⟩ := applyRule_answering hd hc hr index t answer rest
  rw [← hk] at hgrant hrefuse
  cases answer with
  | true =>
    obtain ⟨hs, ha⟩ := attempted_of_ok answering (RuleExecutor.applyRule_ok hr.1 (hgrant rfl))
    rw [ha]
    exact ⟨hs, rfl, rfl⟩
  | false =>
    obtain ⟨e, he⟩ := hrefuse rfl
    obtain ⟨hs, ha⟩ := attempted_of_error answering (RuleExecutor.applyRule_error hr.1 he)
    rw [ha]
    exact ⟨hs, rfl, rfl⟩

/- Rules that pass their own checks can fail in any pattern. -/
theorem goodRules_answering (index t : ℕ) {rules : List RouteRule}
    (hr : ∀ rule ∈ rules, RuleOperator.Installable rule) {s : ExecutorState (List Bool)}
    (hd : ¬ s.executor.routeManager.dryRun = true)
    (hc : s.executor.routeManager.handle.isSome) (hlen : s.kernel.length = rules.length) :
    goodRules answering index t s rules =
      ((rules.zip s.kernel).filter Prod.snd).map Prod.fst := by
  induction rules generalizing s with
  | nil => rfl
  | cons rule rules ih =>
    cases hk : s.kernel with
    | nil =>
      rw [hk] at hlen
      cases hlen
    | cons answer rest =>
      obtain ⟨hs, hkernel, hmanager⟩ :=
        attempted_answering (hr rule List.mem_cons_self) hd hc index t hk
      have hrest := ih (fun r hm => hr r (List.mem_cons_of_mem rule hm))
        (s := attempted answering index t s rule) (hmanager ▸ hd) (hmanager ▸ hc)
        (by rw [hkernel]; rw [hk] at hlen; exact Nat.succ.inj hlen)
      rw [hkernel] at hrest
      unfold goodRules at hrest ⊢
      rw [accepted, hs, hrest, List.zip_cons_cons, List.filter_cons]
      cases answer <;> rfl

end NicAutoswitch.Engine.FailingRules
