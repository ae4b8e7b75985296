import NicAutoswitch.Engine.TaskAlone
import NicAutoswitch.Engine.TaskSteps
import NicAutoswitch.Kernel.Footprint
import NicAutoswitch.Kernel.Forwarding
import NicAutoswitch.Kernel.LiveRemoval

/-!
# A host with one managed interface

Rules are applied for one interface only, and Linux takes no two of them for one another.
Then it has at every point the routes of the active rules, except where it has dropped those
of a link itself, and the policy rules of the rules that no removal has been tried of since
they were applied last. So an address goes where the active rules say, as long as one of
these is for it.
-/

namespace NicAutoswitch.Kernel.SingleInterface
open HashMaps Schema Monitor Router StateProg Engine Selection Transition Linux PolicyRouting
  Forwarding
open Engine.Tasks (Work called performed readied eventWork reactWork defaultsWork rulesWork
  downWork asked_down handleEvent_performed defaults_performed event_readied Readied appliesFor
  Heard eventWork_rec)

/- No two rules have one name or one network, no rule for all addresses has its priority in
common with another of its version, and each leads out of a link that is there, to a network
that Linux takes for a route. -/
structure Orderly (env : Env) (config : Config) : Prop where
  names : config.DistinctNames
  networks : Separate config.allRules
  priorities : ∀ rule ∈ config.allRules, ∀ rule' ∈ config.allRules, ∀ d d',
    RuleOperator.target? rule = some d → RuleOperator.target? rule' = some d' →
      d.prefixLen = 0 → d'.version = d.version → rule'.priority = rule.priority → rule = rule'
  linked : ∀ rule ∈ config.allRules, (env.ifindex rule.routeVia.interface).isSome
  routable : ∀ rule ∈ config.allRules, ∀ d, RuleOperator.target? rule = some d →
    (routeNetwork? d).isSome

/- The last call for the rule of the name that has reached the kernel has applied it. -/
def isArmed {κ : Type} (name : String) : List (CallRecord κ) → Bool
  | [] => false
  | c :: older =>
    match c.call with
    | .applyRule rule _ => if rule.name = name ∧ c.returnedOk then true else isArmed name older
    | .removeRule rule t => if rule.name = name ∧ t ≤ 255 then false else isArmed name older
    | .cleanup => isArmed name older

/- The rule is configured and active. -/
def Active (config : Config) (s : ExecutorState KernelState) (rule : RouteRule) : Prop :=
  rule ∈ config.allRules ∧ rule.name ∈ s.executor.activeRoutes

/- The rule is configured and armed. -/
def Armed (config : Config) (s : ExecutorState KernelState) (rule : RouteRule) : Prop :=
  rule ∈ config.allRules ∧ isArmed rule.name s.history = true

/- The kernel has the policy rules of the armed rules, and of the routes of the active ones at
least those that go out of no lost link. -/
structure InStep (env : Env) (config : Config) (rm : RouteManager) (t : ℕ) (lost : List ℕ)
    (s : ExecutorState KernelState) : Prop where
  manager : s.executor.routeManager = rm
  tables : ∀ n a, s.executor.activeRoutes.lookup n = some a → a.tableId = t
  active : ∀ rule, Armed config s rule → Active config s rule
  whole : ∀ rule, Active config s rule → (kept? env rule t).isSome
  policies : ∀ p, p ∈ s.kernel.rules ↔
    ∃ rule, Armed config s rule ∧ ∃ e, kept? env rule t = some e ∧ p = e.1
  routes : ∀ q, q ∈ s.kernel.routes →
    ∃ rule, Active config s rule ∧ ∃ e, kept? env rule t = some e ∧ q = e.2
  standing : ∀ rule, Active config s rule → ∀ e, kept? env rule t = some e → e.2.oif ∉ lost →
    e.2 ∈ s.kernel.routes

section Calls

variable {env : Env} {config : Config} {rm : RouteManager} {t : ℕ} {lost : List ℕ}
  {s : ExecutorState KernelState} {rule rule' : RouteRule}

theorem Orderly.kept_isSome (ho : Orderly env config) (hm : rule ∈ config.allRules)
    (t : ℕ) (hd : (RuleOperator.target? rule).isSome) : (kept? env rule t).isSome := by
  obtain ⟨d, hd⟩ := Option.isSome_iff_exists.mp hd
  obtain ⟨i, hi⟩ := Option.isSome_iff_exists.mp (ho.linked rule hm)
  obtain ⟨n, hn⟩ := Option.isSome_iff_exists.mp (ho.routable rule hm d hd)
  unfold kept? route? routeOf?
  rw [hd, Option.bind_some, hi, Option.bind_some, hn]
  rfl

/- Linux takes the policy rules of no two rules for one another. -/
theorem Orderly.same_policy (ho : Orderly env config) (hm : rule ∈ config.allRules)
    (hm' : rule' ∈ config.allRules) {d : IpNetwork} (hd : RuleOperator.target? rule = some d)
    {e : PolicyRule × Route} (he : kept? env rule' t = some e)
    (hv : e.1.destination.version = d.version) (hp : e.1.priority = rule.priority)
    (hdest : d.prefixLen = 0 ∨ e.1.destination = d) : rule = rule' := by
  obtain ⟨d', hd', hpolicy, _⟩ := kept?_eq_some.mp he
  rw [hpolicy] at hv hp hdest
  have hversion : d'.version = d.version := (ruleNetwork_version d').symm.trans hv
  by_cases hzero : d.prefixLen = 0
  · exact ho.priorities rule hm rule' hm' d d' hd hd' hzero hversion hp
  · have hown : ruleNetwork d' = d := hdest.resolve_left hzero
    have hlen : d'.prefixLen ≠ 0 := by
      rw [← ruleNetwork_prefixLen, hown]
      exact hzero
    rw [ruleNetwork_self hlen] at hown
    exact ho.networks rule hm rule' hm' d d' hd hd' (by rw [hown])

/- Nor the routes. -/
theorem Orderly.same_route (ho : Orderly env config) (hm : rule ∈ config.allRules)
    (hm' : rule' ∈ config.allRules) {e e' : PolicyRule × Route} (he : kept? env rule t = some e)
    (he' : kept? env rule' t = some e') (hdest : e'.2.destination = e.2.destination) :
    rule = rule' := by
  obtain ⟨d, hd, _, hr⟩ := kept?_eq_some.mp he
  obtain ⟨d', hd', _, hr'⟩ := kept?_eq_some.mp he'
  obtain ⟨_, n, _, hn, hq⟩ := route?_some hr
  obtain ⟨_, n', _, hn', hq'⟩ := route?_some hr'
  rw [hq, hq'] at hdest
  have hnet : n' = n := hdest
  exact ho.networks rule hm rule' hm' d d' hd hd' (by rw [hn, hn', hnet])

/- A call that leaves the kernel and the active routes as they were, and disarms nothing. -/
theorem InStep.skip (h : InStep env config rm t lost s) {c : CallRecord KernelState}
    {k : KernelState} (hc : ∀ n, isArmed n (c :: s.history) = isArmed n s.history)
    (hrules : k.rules = s.kernel.rules) (hroutes : k.routes = s.kernel.routes) :
    InStep env config rm t lost ⟨s.executor, k, c :: s.history⟩ := by
  have harmed : ∀ rule, Armed config ⟨s.executor, k, c :: s.history⟩ rule ↔ Armed config s rule :=
    fun rule => and_congr_right fun _ => by rw [hc]
  refine ⟨h.manager, h.tables, fun rule hr => h.active rule ((harmed rule).mp hr), h.whole,
    fun p => ?_, fun q hq => h.routes q (hroutes ▸ hq), fun rule hr e he hl => ?_⟩
  · simp only [hrules, h.policies, harmed]
  · exact hroutes ▸ h.standing rule hr e he hl

/-! ### Applying a rule -/

theorem isArmed_applied {n : String} {c : CallRecord KernelState} (hc : c.call = .applyRule rule t)
    (hok : c.returnedOk = true) (older : List (CallRecord KernelState)) :
    isArmed n (c :: older) = true ↔ rule.name = n ∨ isArmed n older = true := by
  rw [isArmed, hc]
  dsimp only
  split_ifs with h
  · exact iff_of_true rfl (.inl h.1)
  · have hne : rule.name ≠ n := fun hn => h ⟨hn, hok⟩
    exact (or_iff_right hne).symm

/- Applied, the rule is armed too. -/
theorem armed_applied (ho : Orderly env config) (hm : rule ∈ config.allRules)
    {c : CallRecord KernelState} (hc : c.call = .applyRule rule t) (hok : c.returnedOk = true)
    (x : RuleExecutor) (k : KernelState) (r : RouteRule) :
    Armed config ⟨x, k, c :: s.history⟩ r ↔ r = rule ∨ Armed config s r := by
  unfold Armed
  rw [isArmed_applied hc hok]
  apply Iff.intro
  · rintro ⟨hr, hname | hold⟩
    · exact .inl (config.rule_eq_of_name ho.names hr hm hname.symm)
    · exact .inr ⟨hr, hold⟩
  · rintro (rfl | ⟨hr, hold⟩)
    · exact ⟨hm, .inl rfl⟩
    · exact ⟨hr, .inr hold⟩

/- Tracked, the rule is active too. -/
theorem active_track (ho : Orderly env config) (hm : rule ∈ config.allRules) (k : KernelState)
    (history : List (CallRecord KernelState)) (r : RouteRule) :
    Active config ⟨s.executor.trackActiveRoute rule.name rule.routeVia.interface t, k, history⟩ r ↔
      r = rule ∨ Active config s r := by
  have hins : r.name ∈ (s.executor.trackActiveRoute rule.name rule.routeVia.interface
      t).activeRoutes ↔ r.name = rule.name ∨ r.name ∈ s.executor.activeRoutes :=
    AList.mem_insert _
  unfold Active
  rw [hins]
  apply Iff.intro
  · rintro ⟨hr, hname | hold⟩
    · exact .inl (config.rule_eq_of_name ho.names hr hm hname)
    · exact .inr ⟨hr, hold⟩
  · rintro (rfl | ⟨hr, hold⟩)
    · exact ⟨hm, .inl rfl⟩
    · exact ⟨hr, .inr hold⟩

/- An entry that is in the way is the rule's own. -/
theorem InStep.mem_rulesWith (ho : Orderly env config) (h : InStep env config rm t lost s)
    (hm : rule ∈ config.allRules) {e : PolicyRule × Route} (he : kept? env rule t = some e)
    (p : PolicyRule) : p ∈ rulesWith e.1 s.kernel.rules ↔ p = e.1 ∨ p ∈ s.kernel.rules := by
  unfold rulesWith
  split_ifs with hdup
  · refine (or_iff_right_of_imp ?_).symm
    rintro rfl
    obtain ⟨r, hr, hv, _, hp, hdest⟩ := hdup
    obtain ⟨rule', ha, e', he', rfl⟩ := (h.policies r).mp hr
    obtain ⟨d, hd, hpolicy, _⟩ := kept?_eq_some.mp he
    rw [hpolicy] at hv hp hdest
    have hown : d.prefixLen = 0 ∨ e'.1.destination = d := by
      by_cases hzero : d.prefixLen = 0
      · exact .inl hzero
      · have hself : ruleNetwork d = d := ruleNetwork_self hzero
        refine .inr ((hdest.resolve_left ?_).trans hself)
        show (ruleNetwork d).prefixLen ≠ 0
        rw [hself]
        exact hzero
    have hsame := ho.same_policy hm ha.1 hd he' (hv.trans (ruleNetwork_version d)) hp hown
    subst hsame
    rw [he] at he'
    cases he'
    exact hr
  · exact List.mem_cons

theorem InStep.mem_routesWith (ho : Orderly env config) (h : InStep env config rm t lost s)
    (hm : rule ∈ config.allRules) {e : PolicyRule × Route} (he : kept? env rule t = some e)
    (q : Route) : q ∈ routesWith e.2 s.kernel.routes ↔ q = e.2 ∨ q ∈ s.kernel.routes := by
  unfold routesWith
  split_ifs with htaken
  · refine (or_iff_right_of_imp ?_).symm
    rintro rfl
    obtain ⟨r, hr, _, hdest, _⟩ := htaken
    obtain ⟨rule', ha, e', he', rfl⟩ := h.routes r hr
    have hsame := ho.same_route hm ha.1 he he' hdest
    subst hsame
    rw [he] at he'
    cases he'
    exact hr
  · exact List.mem_cons

/- Without failures a rule that can be installed is applied, and another one is rejected. -/
theorem applied_cases (hq : Quiet env) (hl : Live s.executor.routeManager)
    (ho : Orderly env config) (hm : rule ∈ config.allRules) (t : ℕ) :
    (∃ e k, kept? env rule t = some e ∧ k.rules = rulesWith e.1 s.kernel.rules ∧
        k.routes = routesWith e.2 s.kernel.routes ∧
        after (RuleExecutor.applyRule env.linux rule 0 t) s =
          ⟨s.executor.trackActiveRoute rule.name rule.routeVia.interface t, k,
            ⟨.applyRule rule t, s.executor, s.kernel, true⟩ :: s.history⟩) ∨
      after (RuleExecutor.applyRule env.linux rule 0 t) s =
        { s with history := ⟨.applyRule rule t, s.executor, s.kernel, false⟩ :: s.history } := by
  cases hv : RuleOperator.validateRule rule with
  | error err => exact .inr (after_error (RuleExecutor.applyRule_invalid env.linux 0 t s hv))
  | ok u =>
    cases hd : RuleOperator.target? rule with
    | none =>
      obtain ⟨err, he⟩ := RuleOperator.applyRule_rejected env.linux s.executor.routeManager rule 0 t
        s.kernel hd
      exact .inr (after_error (RuleExecutor.applyRule_error hv he))
    | some d =>
      obtain ⟨e, he⟩ := Option.isSome_iff_exists.mp (ho.kept_isSome hm t (by rw [hd]; rfl))
      obtain ⟨d', hd', hp, hr⟩ := kept?_eq_some.mp he
      obtain rfl : d = d' := Option.some.inj (hd.symm.trans hd')
      obtain ⟨k, hrules, hcall⟩ := operator_apply hq hl t s.kernel hd
      rw [hr] at hcall
      exact .inl ⟨e, k, he, hp ▸ hrules, hcall.2, after_ok (RuleExecutor.applyRule_ok hv hcall.1)⟩

/- The call adds what the rule stands for, and the rule is active and armed. -/
theorem InStep.applied (hq : Quiet env) (hl : Live rm) (ho : Orderly env config)
    (h : InStep env config rm t lost s) (hm : rule ∈ config.allRules) :
    InStep env config rm t lost (after (RuleExecutor.applyRule env.linux rule 0 t) s) := by
  rcases applied_cases (s := s) hq (h.manager ▸ hl) ho hm t with
    ⟨e, k, he, hrules, hroutes, hcall⟩ | hcall
  · rw [hcall]
    have hactive := active_track (t := t) (s := s) ho hm k
      (⟨.applyRule rule t, s.executor, s.kernel, true⟩ :: s.history)
    have harmed := armed_applied (s := s)
      (c := ⟨.applyRule rule t, s.executor, s.kernel, true⟩) ho hm rfl rfl
      (s.executor.trackActiveRoute rule.name rule.routeVia.interface t) k
    refine ⟨h.manager, fun n a ha => ?_, fun r hr => ?_, fun r hr => ?_, fun p => ?_,
      fun q hmem => ?_, fun r hr e' he' hlost => ?_⟩
    · have hlook : (s.executor.activeRoutes.insert rule.name (entryOf t rule)).lookup n = some a := ha
      rw [lookup_insert_eq_ite] at hlook
      split_ifs at hlook
      · cases hlook
        rfl
      · exact h.tables n a hlook
    · exact (hactive r).mpr (((harmed r).mp hr).imp_right (h.active r))
    · rcases (hactive r).mp hr with rfl | hold
      · rw [he]
        rfl
      · exact h.whole r hold
    · rw [hrules, h.mem_rulesWith ho hm he, h.policies]
      simp only [harmed, or_and_right, exists_or, exists_eq_left, he, Option.some_inj,
        exists_eq_left']
    · rw [hroutes, h.mem_routesWith ho hm he] at hmem
      rcases hmem with rfl | hold
      · exact ⟨rule, (hactive rule).mpr (.inl rfl), e, he, rfl⟩
      · obtain ⟨r, hr, hown⟩ := h.routes q hold
        exact ⟨r, (hactive r).mpr (.inr hr), hown⟩
    · rw [hroutes, h.mem_routesWith ho hm he]
      rcases (hactive r).mp hr with rfl | hold
      · rw [he] at he'
        exact .inl (congrArg Prod.snd (Option.some.inj he').symm)
      · exact .inr (h.standing r hold e' he' hlost)
  · rw [hcall]
    refine h.skip (fun n => ?_) rfl rfl
    rw [isArmed]
    exact if_neg fun hx => Bool.false_ne_true hx.2

/-! ### Removing a rule -/

theorem isArmed_removed {n : String} {c : CallRecord KernelState}
    (hc : c.call = .removeRule rule t) (ht : t ≤ 255) (older : List (CallRecord KernelState)) :
    isArmed n (c :: older) = true ↔ rule.name ≠ n ∧ isArmed n older = true := by
  rw [isArmed, hc]
  dsimp only
  split_ifs with h
  · exact iff_of_false id fun hx => hx.1 h.1
  · have hne : rule.name ≠ n := fun hn => h ⟨hn, ht⟩
    exact (and_iff_right hne).symm

/- Removed, the rule is not armed any more. -/
theorem armed_removed (ho : Orderly env config) (hm : rule ∈ config.allRules)
    {c : CallRecord KernelState} (hc : c.call = .removeRule rule t) (ht : t ≤ 255)
    (x : RuleExecutor) (k : KernelState) (r : RouteRule) :
    Armed config ⟨x, k, c :: s.history⟩ r ↔ r ≠ rule ∧ Armed config s r := by
  unfold Armed
  rw [isArmed_removed hc ht]
  apply Iff.intro
  · rintro ⟨hr, hname, hold⟩
    exact ⟨fun he => hname (congrArg RouteRule.name he).symm, hr, hold⟩
  · rintro ⟨hne, hr, hold⟩
    exact ⟨hr, fun hn => hne (config.rule_eq_of_name ho.names hr hm hn.symm), hold⟩

/- The delete request for a rule names what Linux keeps of the rule. -/
theorem names_kept {d : IpNetwork} {e : PolicyRule × Route}
    (hd : RuleOperator.target? rule = some d) (he : kept? env rule t = some e) :
    NamesRule d.version (ruleDelMessage d t rule.priority) e.1 := by
  obtain ⟨d', hd', hpolicy, _⟩ := kept?_eq_some.mp he
  obtain rfl : d = d' := Option.some.inj (hd.symm.trans hd')
  rw [namesRule_own, hpolicy]
  refine ⟨ruleNetwork_version d, .inr rfl, rfl, ?_⟩
  by_cases hzero : d.prefixLen = 0
  · exact .inl hzero
  · exact .inr (ruleNetwork_self hzero)

/- And nothing that it keeps of another one. -/
theorem Orderly.names_own (ho : Orderly env config) (hm : rule ∈ config.allRules)
    (hm' : rule' ∈ config.allRules) {d : IpNetwork} {e : PolicyRule × Route}
    (hd : RuleOperator.target? rule = some d) (he : kept? env rule' t = some e)
    (hn : NamesRule d.version (ruleDelMessage d t rule.priority) e.1) : rule = rule' := by
  obtain ⟨hv, _, hp, hdest⟩ := (namesRule_own d t rule.priority e.1).mp hn
  exact ho.same_policy hm hm' hd he hv hp hdest

/- The policy rule that the request deletes is the rule's own. -/
theorem InStep.mem_leftBy (ho : Orderly env config) (h : InStep env config rm t lost s)
    (hm : rule ∈ config.allRules) (ht : t ≤ 255) (p : PolicyRule) :
    p ∈ leftBy rule t s.kernel.rules ↔
      ∃ r, (r ≠ rule ∧ Armed config s r) ∧ ∃ e, kept? env r t = some e ∧ p = e.1 := by
  unfold leftBy pickFor
  rw [if_pos ht]
  cases hpick : (RuleOperator.target? rule).bind fun d =>
      pickOwn s.kernel.rules d t rule.priority with
  | none =>
    -- the rule is not armed
    show p ∈ s.kernel.rules ↔ _
    rw [h.policies]
    refine exists_congr fun r => and_congr_left fun ⟨e, he, _⟩ => (and_iff_right_of_imp ?_).symm
    rintro ha rfl
    obtain ⟨d, hd, _, _⟩ := kept?_eq_some.mp he
    rw [hd, Option.bind_some] at hpick
    exact pickRule_none.mp hpick e.1 ((h.policies _).mpr ⟨r, ha, e, he, rfl⟩) (names_kept hd he)
  | some x =>
    obtain ⟨d, hd, hx⟩ := Option.bind_eq_some_iff.mp hpick
    obtain ⟨hxmem, hxnamed⟩ := pickRule_some hx
    obtain ⟨r, ha, e, he, rfl⟩ := (h.policies x).mp hxmem
    obtain rfl := ho.names_own hm ha.1 hd he hxnamed
    show p ∈ s.kernel.rules.erase e.1 ↔ _
    rw [s.kernel.rules_nodup.mem_erase_iff, h.policies]
    apply Iff.intro
    · rintro ⟨hne, r, hr, e', he', rfl⟩
      refine ⟨r, ⟨?_, hr⟩, e', he', rfl⟩
      rintro rfl
      rw [he] at he'
      exact hne (congrArg Prod.fst (Option.some.inj he').symm)
    · rintro ⟨r, ⟨hne, hr⟩, e', he', rfl⟩
      refine ⟨fun hpe => hne ?_, r, hr, e', he', rfl⟩
      exact (ho.names_own hm hr.1 hd he' (hpe ▸ hxnamed)).symm

/- The call deletes the policy rule alone, and the rule stays active. -/
theorem InStep.removed (hq : Quiet env) (hl : Live rm) (ho : Orderly env config)
    (h : InStep env config rm t lost s) (hm : rule ∈ config.allRules) :
    InStep env config rm t lost (after (RuleExecutor.removeRule env.linux rule t) s) := by
  obtain ⟨err, k, hcall, hrules, hroutes⟩ := remove_quiet (s := s) hq (h.manager ▸ hl) rule t
  rw [after_error hcall]
  by_cases ht : t ≤ 255
  · have harmed := armed_removed (s := s)
      (c := ⟨.removeRule rule t, s.executor, s.kernel, false⟩) ho hm rfl ht s.executor k
    refine ⟨h.manager, h.tables, fun r hr => h.active r ((harmed r).mp hr).2, h.whole, fun p => ?_,
      fun q hmem => h.routes q (hroutes ▸ hmem), fun r hr e he hlost => ?_⟩
    · rw [hrules, h.mem_leftBy ho hm ht]
      simp only [harmed]
    · exact hroutes ▸ h.standing r hr e he hlost
  · have hkept : leftBy rule t s.kernel.rules = s.kernel.rules := by
      unfold leftBy pickFor
      rw [if_neg ht]
      rfl
    refine h.skip (fun n => ?_) (hrules.trans hkept) hroutes
    rw [isArmed]
    exact if_neg fun hx => ht hx.2

end Calls

/-! ### What an event asks for -/

/- The interface keeps its index. -/
theorem indexOf_again (d : EventDispatcher) (i : String) :
    indexOf (d.getTableIdForInterface i).2 i = indexOf d i := by
  have hmap : indexOf (d.getTableIdForInterface i).2 i =
      (EventDispatcher.indexForInterface
        (EventDispatcher.indexForInterface d.interfaceIndices i).2 i).1 := rfl
  rw [hmap]
  unfold indexOf EventDispatcher.indexForInterface
  cases hl : d.interfaceIndices.lookup i with
  | some idx => simp only [hl]
  | none => simp only [AList.lookup_insert]

/- All is to be done in the table of the interface. -/
structure InTable (i : String) (idx t : ℕ) (x : List Work × EventDispatcher) : Prop where
  tables : ∀ w ∈ x.1, w.tableId = t
  index : indexOf x.2 i = idx

section Tables

variable {i : String} {idx t : ℕ} {d : EventDispatcher}

theorem InTable.nothing (h : indexOf d i = idx) : InTable i idx t ([], d) :=
  ⟨fun _ hw => absurd hw List.not_mem_nil, h⟩

theorem applies_inTable (h : indexOf d i = idx)
    (ht : d.executor.routeManager.tableIdV4 idx = t) {rules : List RouteRule}
    {f : RouteRule → ℕ → Work} (hf : ∀ rule u, (f rule u).tableId = u) :
    InTable i idx t (rules.map (f · (d.getTableIdForInterface i).1),
      (d.getTableIdForInterface i).2) := by
  have htable : (d.getTableIdForInterface i).1 = t := by
    rw [← ht, ← h]
    rfl
  refine ⟨fun w hw => ?_, (indexOf_again d i).trans h⟩
  obtain ⟨rule, _, rfl⟩ := List.mem_map.mp hw
  rw [hf, htable]

theorem defaults_inTable (h : indexOf d i = idx)
    (ht : d.executor.routeManager.tableIdV4 idx = t) : InTable i idx t (defaultsWork i d) := by
  simp only [defaultsWork]
  split_ifs
  · exact .nothing h
  · exact applies_inTable h ht fun _ _ => rfl

theorem rules_inTable (ssid : Option String) (h : indexOf d i = idx)
    (ht : d.executor.routeManager.tableIdV4 idx = t) : InTable i idx t (rulesWork i ssid d) := by
  cases hp : ssid.bind d.config.wifiProfiles.lookup with
  | none =>
    simp only [rulesWork, hp]
    exact defaults_inTable h ht
  | some profile =>
    simp only [rulesWork, hp]
    exact applies_inTable h ht fun _ _ => rfl

theorem down_inTable (order : RouteOrder) (j : String) (h : indexOf d i = idx)
    (hactive : ∀ n a, d.activeRoute n = some a → a.tableId = t) :
    InTable i idx t (downWork order j d) := by
  refine ⟨fun w hw => ?_, h⟩
  obtain ⟨entry, _, hmap⟩ := List.mem_filterMap.mp hw
  obtain ⟨rule, _, hrule⟩ := Option.map_eq_some_iff.mp hmap
  obtain ⟨a, ha, hat⟩ := (asked_down order j d).recorded rule entry.2 (hrule ▸ hw)
  rw [← hrule]
  exact hat.symm.trans (hactive rule.name a ha)

/- An event that applies rules for no other interface works in the one table. -/
theorem event_inTable (order : RouteOrder) (event : NetworkEvent)
    (happ : ∀ j, appliesFor event = some j → j = i) (h : indexOf d i = idx)
    (ht : d.executor.routeManager.tableIdV4 idx = t)
    (hactive : ∀ n a, d.activeRoute n = some a → a.tableId = t) :
    InTable i idx t (eventWork order event d) := by
  have hindex : ∀ d', Heard d d' → indexOf d' i = idx := by
    intro d' hd
    rw [indexOf, hd.interfaceIndices]
    exact h
  have htable : ∀ d', Heard d d' → d'.executor.routeManager.tableIdV4 idx = t := by
    intro d' hd
    rw [hd.executor]
    exact ht
  apply eventWork_rec order event d
  · intro d' hd
    exact .nothing (hindex d' hd)
  · intro j d' hj hd
    obtain rfl := happ j hj
    exact defaults_inTable (hindex d' hd) (htable d' hd)
  · intro j ssid d' hj hd
    obtain rfl := happ j hj
    exact rules_inTable ssid (hindex d' hd) (htable d' hd)
  · intro j d' hd
    refine down_inTable order j (hindex d' hd) fun n a ha => hactive n a ?_
    rw [EventDispatcher.activeRoute, hd.executor] at ha
    exact ha

end Tables

/-! ### Runs -/

/- An event comes, or the kernel drops the routes of a link. -/
inductive HostStep where
  | event (order : RouteOrder) (event : NetworkEvent)
  | linkLost (link : ℕ)

def happens (env : Env) (s : System KernelState) : HostStep → System KernelState
  | .event order event => Dispatch.perform env.linux s (.handleEvent order event)
  | .linkLost link => { s with kernel := LiveRemoval.linkDown s.kernel link }

def lostLinks (steps : List HostStep) : List ℕ :=
  steps.filterMap fun
    | .linkLost link => some link
    | .event _ _ => none

/- The event applies rules for no other interface, and the link is one of those that are lost. -/
def Allowed (i : String) (lost : List ℕ) : HostStep → Prop
  | .event _ event => ∀ j, appliesFor event = some j → j = i
  | .linkLost link => link ∈ lost

/- What holds of the system at every point. -/
structure Managed (env : Env) (config : Config) (rm : RouteManager) (i : String) (idx : ℕ)
    (lost : List ℕ) (s : System KernelState) : Prop where
  config_eq : s.dispatcher.config = config
  index : indexOf s.dispatcher i = idx
  inStep : InStep env config rm (rm.tableIdV4 idx) lost s.execState

section Runs

variable {env : Env} {config : Config} {rm : RouteManager} {i : String} {idx : ℕ}
  {lost : List ℕ} {s : System KernelState}

theorem Managed.performed (hq : Quiet env) (hl : Live rm) (ho : Orderly env config)
    (h : Managed env config rm i idx lost s) {w : Work} (hm : w.rule ∈ config.allRules)
    (ht : w.tableId = rm.tableIdV4 idx) :
    Managed env config rm i idx lost (performed env.linux s w) := by
  unfold Tasks.performed
  split_ifs
  · exact h
  · refine ⟨?_, ?_, ?_⟩
    · cases w <;> exact h.config_eq
    · cases w <;> exact h.index
    · cases w with
      | applyDefault rule t =>
        obtain rfl : t = rm.tableIdV4 idx := ht
        exact h.inStep.applied hq hl ho hm
      | applyProfile rule t =>
        obtain rfl : t = rm.tableIdV4 idx := ht
        exact h.inStep.applied hq hl ho hm
      | remove rule t =>
        obtain rfl : t = rm.tableIdV4 idx := ht
        exact h.inStep.removed hq hl ho hm

/- To do what has been asked for in the table keeps all in step. -/
theorem Managed.run_performed (hq : Quiet env) (hl : Live rm) (ho : Orderly env config)
    (h : Managed env config rm i idx lost s) {x : List Work × EventDispatcher}
    (hx : Readied s.dispatcher x) (ht : InTable i idx (rm.tableIdV4 idx) x) :
    Managed env config rm i idx lost (run (Tasks.performed env.linux) (readied s x) x.1) := by
  have hstart : Managed env config rm i idx lost (readied s x) := by
    refine ⟨hx.config.trans h.config_eq, ht.index, ?_⟩
    have hexec : (readied s x).execState = s.execState := by
      unfold readied System.execState
      rw [hx.executor]
    rw [hexec]
    exact h.inStep
  refine run_invariant (Tasks.performed env.linux) (Managed env config rm i idx lost)
    (fun w => w.rule ∈ config.allRules ∧ w.tableId = rm.tableIdV4 idx)
    (fun _ _ hw hs => hs.performed hq hl ho hw.1 hw.2) _ x.1 (fun w hw => ?_) hstart
  exact ⟨h.config_eq ▸ hx.asked.configured w hw, ht.tables w hw⟩

theorem Managed.tableId (h : Managed env config rm i idx lost s) :
    s.dispatcher.executor.routeManager.tableIdV4 idx = rm.tableIdV4 idx :=
  congrArg (fun rm : RouteManager => rm.tableIdV4 idx) h.inStep.manager

theorem Managed.handleEvent (hq : Quiet env) (hl : Live rm) (ho : Orderly env config)
    (h : Managed env config rm i idx lost s) (order : RouteOrder) {event : NetworkEvent}
    (happ : ∀ j, appliesFor event = some j → j = i) :
    Managed env config rm i idx lost (Dispatch.perform env.linux s (.handleEvent order event)) := by
  show Managed env config rm i idx lost (after (Dispatch.handleEvent env.linux order event) s)
  rw [handleEvent_performed]
  exact h.run_performed hq hl ho (event_readied order event s.dispatcher)
    (event_inTable order event happ h.index h.tableId h.inStep.tables)

/- The kernel drops the routes of a link that counts as lost. -/
theorem Managed.linkLost (h : Managed env config rm i idx lost s) {link : ℕ} (hl : link ∈ lost) :
    Managed env config rm i idx lost
      { s with kernel := LiveRemoval.linkDown s.kernel link } := by
  have hmem : ∀ q, q ∈ (LiveRemoval.linkDown s.kernel link).routes ↔
      q ∈ s.kernel.routes ∧ q.oif ≠ link := by
    intro q
    unfold LiveRemoval.linkDown
    rw [List.mem_filter, decide_eq_true_iff]
  refine ⟨h.config_eq, h.index, h.inStep.manager, h.inStep.tables, h.inStep.active, h.inStep.whole,
    h.inStep.policies, fun q hq => h.inStep.routes q ((hmem q).mp hq).1, fun rule hr e he hlost => ?_⟩
  refine (hmem e.2).mpr ⟨h.inStep.standing rule hr e he hlost, ?_⟩
  rintro rfl
  exact hlost hl

theorem Managed.happens (hq : Quiet env) (hl : Live rm) (ho : Orderly env config)
    (h : Managed env config rm i idx lost s) {step : HostStep} (hs : Allowed i lost step) :
    Managed env config rm i idx lost (happens env s step) := by
  cases step with
  | event order event => exact h.handleEvent hq hl ho order hs
  | linkLost link => exact h.linkLost hs

theorem Managed.appliedDefaults (hq : Quiet env) (hl : Live rm) (ho : Orderly env config)
    (h : Managed env config rm i idx lost s) :
    Managed env config rm i idx lost (appliedDefaults env.linux s i) := by
  rw [defaults_performed]
  exact h.run_performed hq hl ho (Tasks.defaults_readied i s.dispatcher)
    (defaults_inTable h.index h.tableId)

/- The cleanup finds nothing. -/
theorem managed_swept (interfaces : List InterfaceInfo) :
    Managed env config rm i (indexOf (EventDispatcher.new config rm) i) lost
      (Engine.swept env.linux interfaces (Dispatch.launch config rm .empty)) := by
  have hswept : (Engine.swept env.linux interfaces
      (Dispatch.launch config rm KernelState.empty)).execState =
        after (Dispatch.sweepStaleTables env.linux)
          (Dispatch.launch config rm KernelState.empty).execState := rfl
  have hempty := (Footprint.callKeeps_cleanup env
    (Dispatch.launch config rm KernelState.empty).execState).kernel
    (fun k => k.rules = [] ∧ k.routes = [])
    ⟨fun _ h => h, fun _ _ hf => hf.elim, fun _ p _ h => ⟨congrArg (List.erase · p) h.1, h.2⟩,
      fun _ _ hf => hf.elim, fun _ q _ h => ⟨h.1, congrArg (List.erase · q) h.2⟩⟩ ⟨rfl, rfl⟩
  obtain ⟨k, hk⟩ := sweep_ok env.linux (Dispatch.launch config rm KernelState.empty).execState
  refine ⟨rfl, rfl, ?_⟩
  rw [hswept]
  rw [after_ok hk] at hempty ⊢
  obtain ⟨hrules, hroutes⟩ := hempty
  have hnone : ∀ n a, (∅ : HashMap String ActiveRoute).lookup n ≠ some a := by
    intro n a h
    rw [AList.lookup_empty] at h
    cases h
  refine ⟨rfl, fun n a ha => absurd ha (hnone n a), fun rule hr => absurd hr.2 Bool.false_ne_true,
    fun rule hr => ?_, fun p => iff_of_false (fun hp => ?_) ?_, fun q hq => ?_,
    fun rule hr => ?_⟩
  · exact absurd hr.2 (AList.notMem_empty _)
  · rw [hrules] at hp
    cases hp
  · rintro ⟨rule, hr, _⟩
    exact Bool.false_ne_true hr.2
  · rw [hroutes] at hq
    cases hq
  · exact absurd hr.2 (AList.notMem_empty _)

/- The startup applies rules for the interface alone. -/
theorem managed_applyInitialState (hq : Quiet env) (hl : Live rm) (ho : Orderly env config)
    {interfaces : List InterfaceInfo} (hup : ∀ info ∈ interfaces, info.isUp = true →
      info.name ∈ config.interfaces → info.name = i) :
    Managed env config rm i (indexOf (EventDispatcher.new config rm) i) lost
      (Dispatch.perform env.linux (Dispatch.launch config rm .empty)
        (.applyInitialState interfaces)) := by
  show Managed env config rm i _ lost (after (Dispatch.applyInitialState env.linux interfaces) _)
  rw [applyInitialState_after]
  refine run_invariant (Engine.appliedDefaults env.linux) (Managed env config rm i _ lost) (· = i)
    (fun s j hj hs => ?_) _ _ (fun j hj => ?_) (managed_swept interfaces)
  · subst hj
    exact hs.appliedDefaults hq hl ho
  · obtain ⟨info, hm, rfl⟩ := List.mem_map.mp hj
    obtain ⟨hinfo, hcond⟩ := List.mem_filter.mp hm
    rw [Bool.and_eq_true, decide_eq_true_iff] at hcond
    exact hup info hinfo hcond.1 hcond.2

end Runs

/-! ### The rules of a dispatcher -/

def activeRules (s : System KernelState) : List RouteRule :=
  s.dispatcher.config.allRules.filter fun rule => s.dispatcher.executor.isRouteActive rule.name

def armedRules (s : System KernelState) : List RouteRule :=
  (activeRules s).filter fun rule => isArmed rule.name s.history

/- The active rules that the kernel has the routes of in the table. -/
def standingRules (env : Env) (t : ℕ) (s : System KernelState) : List RouteRule :=
  (activeRules s).filter fun rule => (kept? env rule t).any fun e => e.2 ∈ s.kernel.routes

/- The kernel has the policy rules of the armed rules, and routes of active rules alone: all of
them but those that go out of a lost link. -/
structure Tended (env : Env) (t : ℕ) (lost : List ℕ) (s : System KernelState) : Prop where
  mirrors : Mirrors env t (armedRules s) (standingRules env t s) s.kernel
  standing : ∀ rule ∈ activeRules s, ∀ e, kept? env rule t = some e → e.2.oif ∉ lost →
    rule ∈ standingRules env t s

section Rules

variable {env : Env} {config : Config} {rm : RouteManager} {i : String} {idx : ℕ}
  {lost : List ℕ} {s : System KernelState} {rule : RouteRule}

theorem Managed.mem_activeRules (h : Managed env config rm i idx lost s) :
    rule ∈ activeRules s ↔ Active config s.execState rule := by
  unfold activeRules RuleExecutor.isRouteActive
  rw [List.mem_filter, decide_eq_true_iff, h.config_eq]
  rfl

theorem Managed.mem_armedRules (h : Managed env config rm i idx lost s) :
    rule ∈ armedRules s ↔ Armed config s.execState rule := by
  unfold armedRules
  rw [List.mem_filter, h.mem_activeRules]
  refine ⟨fun hr => ⟨hr.1.1, hr.2⟩, fun hr => ⟨h.inStep.active rule hr, hr.2⟩⟩

theorem Managed.mem_standingRules (h : Managed env config rm i idx lost s) {t : ℕ} :
    rule ∈ standingRules env t s ↔ Active config s.execState rule ∧
      ∃ e, kept? env rule t = some e ∧ e.2 ∈ s.kernel.routes := by
  unfold standingRules
  rw [List.mem_filter, h.mem_activeRules]
  refine and_congr_right fun _ => ?_
  simp only [Option.any_eq_true, decide_eq_true_eq]

theorem Managed.tended (h : Managed env config rm i idx lost s) :
    Tended env (rm.tableIdV4 idx) lost s := by
  refine ⟨⟨fun p => ?_, fun q => ?_⟩, fun rule hr e he hlost => ?_⟩
  · simp only [h.mem_armedRules]
    exact h.inStep.policies p
  · simp only [h.mem_standingRules]
    apply Iff.intro
    · intro hq
      obtain ⟨rule, hr, e, he, rfl⟩ := h.inStep.routes q hq
      exact ⟨rule, ⟨hr, e, he, hq⟩, e, he, rfl⟩
    · rintro ⟨rule, ⟨_, e, he, hq⟩, e', he', rfl⟩
      rw [he] at he'
      cases he'
      exact hq
  · have ha := h.mem_activeRules.mp hr
    exact h.mem_standingRules.mpr ⟨ha, e, he, h.inStep.standing rule ha e he hlost⟩

theorem Managed.selects_iff (ho : Orderly env config) (h : Managed env config rm i idx lost s)
    (a : IpAddr) (interface : String) : Selects env s.kernel a interface ↔
      Chosen (armedRules s) (standingRules env (rm.tableIdV4 idx) s) a interface := by
  refine h.tended.mirrors.selects_iff (fun r hr r' hr' => ?_) (fun r hr => ?_) (fun r hr => ?_) a
    interface
  · exact ho.networks r (h.mem_standingRules.mp hr).1.1 r' (h.mem_standingRules.mp hr').1.1
  · exact h.inStep.whole r (h.inStep.active r (h.mem_armedRules.mp hr))
  · exact h.inStep.whole r (h.mem_standingRules.mp hr).1

theorem Managed.tableOf (h : Managed env config rm i idx lost s) :
    Engine.tableOf s i = rm.tableIdV4 idx := by
  rw [← h.tableId, ← h.index]
  rfl

/- Whatever happens on the host, the system stays managed. -/
theorem managed_run (hq : Quiet env) (hl : Live rm) (ho : Orderly env config)
    {interfaces : List InterfaceInfo} (hup : ∀ info ∈ interfaces, info.isUp = true →
      info.name ∈ config.interfaces → info.name = i) {steps : List HostStep}
    (hsteps : ∀ order event, .event order event ∈ steps →
      ∀ j, appliesFor event = some j → j = i) :
    Managed env config rm i (indexOf (EventDispatcher.new config rm) i) (lostLinks steps)
      (run (happens env) (Dispatch.perform env.linux (Dispatch.launch config rm .empty)
        (.applyInitialState interfaces)) steps) := by
  refine run_invariant (happens env) (Managed env config rm i _ (lostLinks steps))
    (Allowed i (lostLinks steps)) (fun _ _ hs h => h.happens hq hl ho hs) _ steps
    (fun step hm => ?_) (managed_applyInitialState hq hl ho hup)
  cases step with
  | event order event => exact hsteps order event hm
  | linkLost link => exact List.mem_filterMap.mpr ⟨.linkLost link, hm, rfl⟩

end Rules

theorem overlapping_orderly : Orderly noFault overlapping := by
  have hrules : overlapping.allRules = [lanRule, branchRule] := by decide
  have htargets : ∀ rule ∈ overlapping.allRules,
      RuleOperator.target? rule = some (if rule = lanRule then lan else branch) := by decide
  have hnames : (overlapping.allRules.map RouteRule.name).Nodup := by decide
  have hlengths : ∀ rule ∈ overlapping.allRules,
      (if rule = lanRule then lan else branch).prefixLen ≠ 0 := by decide
  refine ⟨hnames, ?_, ?_, by decide, ?_⟩
  · intro rule hm rule' hm' d d' hd hd' he
    rw [htargets rule hm] at hd
    rw [htargets rule' hm'] at hd'
    cases hd
    cases hd'
    revert he
    rw [hrules] at hm hm'
    revert rule rule'
    decide
  · intro rule hm rule' _ d d' hd _ hz _ _
    rw [htargets rule hm] at hd
    cases hd
    exact absurd hz (hlengths rule hm)
  · intro rule hm d hd
    rw [htargets rule hm] at hd
    cases hd
    rw [hrules] at hm
    revert rule
    decide

/- The link of the narrow network goes down and Linux drops its routes. The Up event of the
other link finds the rule active. -/
def wlanLost : List HostStep :=
  [.event .asListed (.interfaceChanged "wlan0" .down), .linkLost 3,
    .event .asListed (.interfaceChanged "eth0" .up)]

theorem wlanLost_eth0 : ∀ order event, .event order event ∈ wlanLost →
    ∀ j, appliesFor event = some j → j = "eth0" := by
  intro order event hm j hj
  simp only [wlanLost, List.mem_cons, HostStep.event.injEq, reduceCtorEq, List.not_mem_nil,
    or_false, false_or] at hm
  rcases hm with ⟨_, rfl⟩ | ⟨_, rfl⟩
  · cases hj
  · exact (Option.some.inj hj).symm

/- Both rules are installed, and then the link of one of them is lost. -/
def branchUp : System KernelState :=
  Dispatch.perform noFault.linux (Dispatch.launch overlapping connected .empty)
    (.applyInitialState eth0Up)

def branchLost : System KernelState := run (happens noFault) branchUp wlanLost

theorem eth0_alone : ∀ info ∈ eth0Up, info.isUp = true → info.name ∈ overlapping.interfaces →
    info.name = "eth0" := by decide

/- The narrow network has lost its policy rule and its route, and is still active. -/
example : activeRules branchLost = [lanRule, branchRule] ∧ armedRules branchLost = [lanRule] ∧
    standingRules noFault 100 branchLost = [lanRule] := by decide

/- Before the link is lost Linux prefers the narrow network, which the matcher does not find. -/
example : ¬ Chosen (armedRules branchUp) (standingRules noFault 100 branchUp) (.v4 0x0a010203)
      lanRule.routeVia.interface ∧
    Chosen (armedRules branchLost) (standingRules noFault 100 branchLost) (.v4 0x0a010203)
      lanRule.routeVia.interface := by decide

end NicAutoswitch.Kernel.SingleInterface
