import NicAutoswitch.Engine.TaskSteps
import NicAutoswitch.Kernel.Calls

/-!
# The requests of concurrent handlers

What the kernel answers to the requests of a call when no request fails, and what they
do to it.
-/

namespace NicAutoswitch.Kernel.TaskRequests
open HashMaps Schema Monitor Router StateProg Engine Engine.Tasks

variable {env : Env} {rm : RouteManager}

/- The call applies its rule. -/
def Applying : Work → Prop
  | .applyDefault _ _ => True
  | .applyProfile _ _ => True
  | .remove _ _ => False

/- The request that a call begins with. -/
inductive Opened : Work → Stage → Prop
  | addRule {w : Work} {d : IpNetwork} (hw : Applying w)
      (hd : RuleOperator.target? w.rule = some d) : Opened w (.addRule d)
  | delRule {rule : RouteRule} {t : ℕ} {d : IpNetwork} (hd : RuleOperator.target? rule = some d)
      (ht : t ≤ 255) :
      Opened (.remove rule t) (.delRule d (ruleDelMessage d t rule.priority))

/- The stages that a call meets when no request fails. -/
inductive Fits (env : Env) : Work → Stage → Prop
  | opened {w : Work} {stage : Stage} (h : Opened w stage) : Fits env w stage
  | getLink {w : Work} {d : IpNetwork} (hw : Applying w)
      (hd : RuleOperator.target? w.rule = some d) : Fits env w (.getLink d)
  | addRoute {w : Work} {d : IpNetwork} {l : ℕ} (hw : Applying w)
      (hd : RuleOperator.target? w.rule = some d)
      (hl : env.ifindex w.rule.routeVia.interface = some l) : Fits env w (.addRoute d l)
  | delRoute {rule : RouteRule} {t : ℕ} {d : IpNetwork}
      (hd : RuleOperator.target? rule = some d) :
      Fits env (.remove rule t) (.delRoute (routeDelMessage d t))
  | ended {w : Work} {ok : Bool} (h : Applying w → ok = true) : Fits env w (.ended ok)

/-! ### The first request -/

theorem openApply_live (hl : Live rm) {w : Work} (hw : Applying w) :
    Work.openApply rm w.rule = .ended false ∨ Opened w (Work.openApply rm w.rule) := by
  have hopens := applyOpens rm w.rule
  generalize Work.openApply rm w.rule = stage at hopens ⊢
  cases hopens with
  | invalid hv => exact Or.inl rfl
  | aimless hv hd => exact Or.inl rfl
  | dry hv hd hdry => exact absurd hdry hl.not_dry
  | unconnected hv hd hdry hn => exact Or.inl rfl
  | request hv hd hdry hc => exact Or.inr (.addRule hw (RuleOperator.getDestination_ok.mp hd))

theorem openRemove_live (hl : Live rm) (rule : RouteRule) (t : ℕ) :
    Work.openRemove rm rule t = .ended false ∨
      Opened (.remove rule t) (Work.openRemove rm rule t) := by
  have hopens := removeOpens rm rule t
  generalize Work.openRemove rm rule t = stage at hopens ⊢
  cases hopens with
  | aimless hd => exact Or.inl rfl
  | dry hd hdry => exact absurd hdry hl.not_dry
  | unconnected hd hdry hn => exact Or.inl rfl
  | unsendable hd hdry hc hm => exact Or.inl rfl
  | @request d message hd hdry hc hm =>
    by_cases ht : t ≤ 255
    · have hmessage : message = ruleDelMessage d t rule.priority :=
        Except.ok.inj (hm.symm.trans (buildRuleMessage_eq d rule.priority ht))
      subst hmessage
      exact Or.inr (.delRule (RuleOperator.getDestination_ok.mp hd) ht)
    · obtain ⟨e, he⟩ := buildRuleMessage_error (some d) none rule.priority
        (RouteManager.ruleIsIpv4 (some d) none) ht
      rw [he] at hm
      cases hm

/- On a live manager a call fails its checks, or sends a request. -/
theorem opening_live (hl : Live rm) (w : Work) :
    w.opening rm = .ended false ∨ Opened w (w.opening rm) := by
  cases w with
  | applyDefault rule t => exact openApply_live hl (w := .applyDefault rule t) trivial
  | applyProfile rule t => exact openApply_live hl (w := .applyProfile rule t) trivial
  | remove rule t => exact openRemove_live hl rule t

theorem opening_not_done (hl : Live rm) (w : Work) : w.opening rm ≠ .ended true := by
  intro ho
  rcases opening_live hl w with h | h
  · rw [h] at ho
    cases ho
  · rw [ho] at h
    cases h

theorem opening_opened (hl : Live rm) {w : Work} (h : ∀ ok, w.opening rm ≠ .ended ok) :
    Opened w (w.opening rm) := (opening_live hl w).resolve_left (h false)

/- A manager that is not live sends no request. -/
theorem opening_ended (hl : ¬ Live rm) (w : Work) : ∃ ok, w.opening rm = .ended ok := by
  have hsends : ¬ rm.dryRun = true → ¬ rm.handle.isSome := fun hdry hc =>
    hl ⟨Bool.eq_false_iff.mpr hdry, hc⟩
  have happly : ∀ rule, ∃ ok, Work.openApply rm rule = .ended ok := by
    intro rule
    have hopens := applyOpens rm rule
    generalize Work.openApply rm rule = stage at hopens ⊢
    cases hopens with
    | invalid hv => exact ⟨false, rfl⟩
    | aimless hv hd => exact ⟨false, rfl⟩
    | dry hv hd hdry => exact ⟨true, rfl⟩
    | unconnected hv hd hdry hn => exact ⟨false, rfl⟩
    | request hv hd hdry hc => exact absurd hc (hsends hdry)
  cases w with
  | applyDefault rule t => exact happly rule
  | applyProfile rule t => exact happly rule
  | remove rule t =>
    have hopens := removeOpens rm rule t
    show ∃ ok, Work.openRemove rm rule t = .ended ok
    generalize Work.openRemove rm rule t = stage at hopens ⊢
    cases hopens with
    | aimless hd => exact ⟨false, rfl⟩
    | dry hd hdry => exact ⟨true, rfl⟩
    | unconnected hd hdry hn => exact ⟨false, rfl⟩
    | unsendable hd hdry hc hm => exact ⟨false, rfl⟩
    | request hd hdry hc hm => exact absurd hc (hsends hdry)

/-! ### The answers -/

section Answers

variable (hq : Quiet env) (w : Work) (d : IpNetwork) (k : KernelState)
include hq

theorem serve_addRule : serve env.plain w (.addRule d) k =
    (.getLink d, (k.addRule ⟨d, w.tableId, w.rule.priority⟩).tick) := by
  have ha := ruleAdd_own d w.tableId w.rule.priority k
  have hr := request_passes (hq k.clock) (Env.ruleAdd (policyRuleRequest (some d) none w.tableId
    w.rule.priority (RouteManager.ruleIsIpv4 (some d) none)))
  show settled isAlreadyExists (.getLink d) (env.request _ k) = _
  rw [hr, ha]
  by_cases hm : ⟨d, w.tableId, w.rule.priority⟩ ∈ k.rules
  · rw [if_pos hm, addRule_present hm]
    rfl
  · rw [if_neg hm]
    rfl

theorem serve_getLink {l : ℕ} (hl : env.ifindex w.rule.routeVia.interface = some l) :
    serve env.plain w (.getLink d) k = (.addRoute d l, k.tick) := by
  have ha : env.linkGet w.rule.routeVia.interface k = (.ok (some l), k) := by
    simp only [Env.linkGet, hl]
  have hr : env.plain.linkGet w.rule.routeVia.interface k = (.ok (some l), k.tick) := by
    show env.request (env.linkGet w.rule.routeVia.interface) k = _
    rw [request_passes (hq k.clock), ha]
  simp only [serve, hr]

theorem serve_addRoute (l : ℕ) : serve env.plain w (.addRoute d l) k =
    (.ended true, (if Occupied k w.tableId d w.rule.priority then k
      else k.addRoute ⟨w.tableId, d, w.rule.priority, l⟩).tick) := by
  have ha := routeAdd_own d l w.tableId w.rule.priority k
  have hr := request_passes (hq k.clock)
    (Env.routeAdd (routeRequest d none l w.tableId w.rule.priority))
  show settled isAlreadyExists (.ended true) (env.request _ k) = _
  rw [hr, ha]
  by_cases ho : Occupied k w.tableId d w.rule.priority
  · rw [if_pos ho, if_pos ho]
    rfl
  · rw [if_neg ho, if_neg ho]
    rfl

theorem serve_delRule (rule : RouteRule) {t : ℕ} (ht : t ≤ 255) :
    serve env.plain (.remove rule t) (.delRule d (ruleDelMessage d t rule.priority)) k =
      (.delRoute (routeDelMessage d t), (k.dropRule ⟨d, t, rule.priority⟩).tick) := by
  have ha := ruleDel_own d t rule.priority k
  have hr := request_passes (hq k.clock) (Env.ruleDel (ruleDelMessage d t rule.priority))
  have hnext : removeRouteMessage d t = .ok (routeDelMessage d t) := removeRouteMessage_eq d ht
  simp only [serve, Work.tableId, hnext]
  show settled isNoSuchEntry _ (env.request _ k) = _
  rw [hr, ha]
  by_cases hm : ⟨d, t, rule.priority⟩ ∈ k.rules
  · rw [if_pos hm]
    rfl
  · rw [if_neg hm, dropRule_absent hm]
    rfl

theorem serve_delRoute (t : ℕ) : serve env.plain w (.delRoute (routeDelMessage d t)) k =
    match k.pick t d none none with
    | some q => (.ended true, (k.dropRoute q).tick)
    | none => (.ended false, k.tick) := by
  have ha := routeDel_own d t k
  have hr := request_passes (hq k.clock) (Env.routeDel (routeDelMessage d t))
  show settled isNoSuchEntry (.ended true) (env.request _ k) = _
  rw [hr, ha]
  cases k.pick t d none none with
  | some q => rfl
  | none => rfl

end Answers

/- A call whose link is known goes from one of its stages to the next. -/
theorem served_fits (hq : Quiet env) {w : Work} {stage : Stage}
    (hlink : (env.ifindex w.rule.routeVia.interface).isSome) (h : Fits env w stage)
    (k : KernelState) : Fits env w (serve env.plain w stage k).1 := by
  cases h with
  | opened ho =>
    cases ho with
    | addRule hw hd =>
      rw [serve_addRule hq]
      exact .getLink hw hd
    | delRule hd ht =>
      rw [serve_delRule hq _ _ _ ht]
      exact .delRoute hd
  | getLink hw hd =>
    obtain ⟨l, hl⟩ := Option.isSome_iff_exists.mp hlink
    rw [serve_getLink hq _ _ _ hl]
    exact .addRoute hw hd hl
  | addRoute hw hd hl =>
    rw [serve_addRoute hq]
    exact .ended fun _ => rfl
  | delRoute hd =>
    rw [serve_delRoute hq]
    split
    · exact .ended fun _ => rfl
    · exact .ended fun hw => absurd hw id
  | ended hok => exact .ended hok

/- The call installs entries of this destination, table and priority. -/
structure Installs (w : Work) (d : IpNetwork) (t priority : ℕ) : Prop where
  applying : Applying w
  target : RuleOperator.target? w.rule = some d
  tableId : w.tableId = t
  priority : w.rule.priority = priority

/- The entries that the kernel has gained are some that the call installs. -/
structure Gained (w : Work) (k k' : KernelState) : Prop where
  rules : ∀ p ∈ k'.rules, p ∈ k.rules ∨ Installs w p.destination p.table p.priority
  routes : ∀ q ∈ k'.routes, q ∈ k.routes ∨ Installs w q.destination q.table q.metric

theorem Gained.refl (w : Work) (k : KernelState) : Gained w k k :=
  ⟨fun _ => Or.inl, fun _ => Or.inl⟩

theorem Gained.tick {w : Work} {k k' : KernelState} (h : Gained w k k') : Gained w k k'.tick :=
  ⟨h.rules, h.routes⟩

theorem served_gained (hq : Quiet env) {w : Work} {stage : Stage}
    (hlink : (env.ifindex w.rule.routeVia.interface).isSome) (h : Fits env w stage)
    (k : KernelState) : Gained w k (serve env.plain w stage k).2 := by
  cases h with
  | opened ho =>
    cases ho with
    | addRule hw hd =>
      rw [serve_addRule hq]
      refine Gained.tick ⟨fun p hp => ?_, fun q hm => ?_⟩
      · rcases (KernelState.mem_addRule _ _ _).mp hp with hp | hp
        · subst hp
          exact Or.inr ⟨hw, hd, rfl, rfl⟩
        · exact Or.inl hp
      · rw [KernelState.addRule_routes] at hm
        exact Or.inl hm
    | delRule hd ht =>
      rw [serve_delRule hq _ _ _ ht]
      refine Gained.tick ⟨fun p hp => Or.inl ?_, fun q hm => Or.inl hm⟩
      exact ((KernelState.mem_dropRule _ _ _).mp hp).2
  | getLink hw hd =>
    obtain ⟨l, hl⟩ := Option.isSome_iff_exists.mp hlink
    rw [serve_getLink hq _ _ _ hl]
    exact .tick (.refl w k)
  | addRoute hw hd hl =>
    rw [serve_addRoute hq]
    apply Gained.tick
    split_ifs
    · exact .refl w k
    · refine ⟨fun p hp => ?_, fun q hm => ?_⟩
      · rw [KernelState.addRoute_rules] at hp
        exact Or.inl hp
      · rcases (KernelState.mem_addRoute _ _ _).mp hm with hm | hm
        · subst hm
          exact Or.inr ⟨hw, hd, rfl, rfl⟩
        · exact Or.inl hm
  | delRoute hd =>
    rw [serve_delRoute hq]
    split
    · refine Gained.tick ⟨fun p hp => Or.inl hp, fun q hm => Or.inl ?_⟩
      exact ((KernelState.mem_dropRoute _ _ _).mp hm).2
    · exact .tick (.refl _ k)
  | ended hok => exact .refl w k

end NicAutoswitch.Kernel.TaskRequests
