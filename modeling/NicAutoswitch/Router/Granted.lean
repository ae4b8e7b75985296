import NicAutoswitch.Router.Rules

/-!
# The router layer when every request is granted

With a connected manager, an operation of the router layer then depends on its
arguments alone: adding always succeeds, removing succeeds unless the table id
exceeds the `u8` of the netlink header.
-/

namespace NicAutoswitch.Router
open Schema StateProg

/- The manager can work: it only logs, or it has a connection. -/
def RouteManager.Ready (rm : RouteManager) : Prop := rm.dryRun = true ∨ rm.handle.isSome

/- Nothing that the manager asks for is refused: it only logs, or it has a connection to a
kernel that grants every request. -/
def RouteManager.Served {κ : Type} (rm : RouteManager) (rt : Rtnetlink κ) : Prop :=
  rm.dryRun = true ∨ rm.handle.isSome ∧ rt.Grants

theorem RouteManager.Served.ready {κ : Type} {rm : RouteManager} {rt : Rtnetlink κ}
    (h : rm.Served rt) : rm.Ready := h.imp_right And.left

theorem RouteManager.Ready.served {κ : Type} {rm : RouteManager} {rt : Rtnetlink κ}
    (hg : rt.Grants) (h : rm.Ready) : rm.Served rt := h.imp_right fun hc => ⟨hc, hg⟩

/- A removal from the table passes the check of the table id. A dry run makes no check. -/
def RouteManager.Withdrawable (rm : RouteManager) (tableId : ℕ) : Prop :=
  rm.dryRun = true ∨ tableId ≤ 255

instance (rm : RouteManager) (tableId : ℕ) : Decidable (rm.Withdrawable tableId) :=
  inferInstanceAs (Decidable (_ ∨ _))

/- A kernel that grants every request and keeps no state. -/
def grantAll : Rtnetlink Unit where
  routeAdd _ k := (.ok (), k)
  routeDel _ k := (.ok (), k)
  routeGet _ _ k := ([], k)
  ruleAdd _ k := (.ok (), k)
  ruleDel _ k := (.ok (), k)
  ruleGet _ k := ([], k)
  linkGet _ k := (.ok (some 1), k)

theorem grantAll_grants : grantAll.Grants where
  routeAdd _ _ := rfl
  routeDel _ _ := rfl
  ruleAdd _ _ := rfl
  ruleDel _ _ := rfl
  linkGet _ _ := ⟨1, rfl⟩

variable {κ α : Type} {rt : Rtnetlink κ} {rm : RouteManager}

theorem withHandle_some (h : rm.handle.isSome) (message : String) (x : Net κ α) :
    rm.withHandle message x = x := by
  unfold RouteManager.withHandle
  obtain ⟨c, hc⟩ := Option.isSome_iff_exists.mp h
  rw [hc]

theorem withHandle_none (h : rm.handle.isNone) (message : String) (x : Net κ α) :
    rm.withHandle message x = throw (.route message) := by
  unfold RouteManager.withHandle
  rw [Option.isNone_iff_eq_none.mp h]

theorem settle_ok {tolerated : RtError → Bool} {message : RtError → String}
    {req : κ → Except RtError Unit × κ} {k : κ} (h : (req k).1 = .ok ()) :
    settle tolerated message req k = .ok () (req k).2 := by
  have hp : req k = (.ok (), (req k).2) := Prod.ext h rfl
  unfold settle
  rw [hp]

theorem buildRuleMessage_ok (destination source : Option IpNetwork) {t : ℕ} (priority : ℕ)
    (isIpv4 : Bool) (h : t ≤ 255) :
    ∃ msg, buildRuleMessage destination source t priority isIpv4 = .ok msg := by
  unfold buildRuleMessage
  rw [tableIdToU8_ok h]
  exact ⟨_, rfl⟩

theorem buildRuleMessage_error (destination source : Option IpNetwork) {t : ℕ} (priority : ℕ)
    (isIpv4 : Bool) (h : ¬ t ≤ 255) :
    ∃ e, buildRuleMessage destination source t priority isIpv4 = .error e := by
  obtain ⟨e, he⟩ := tableIdToU8_error h
  exact ⟨e, by unfold buildRuleMessage; rw [he]; rfl⟩

theorem removeRouteMessage_ok (destination : IpNetwork) {t : ℕ} (h : t ≤ 255) :
    ∃ msg, removeRouteMessage destination t = .ok msg := by
  unfold removeRouteMessage
  rw [tableIdToU8_ok h]
  exact ⟨_, rfl⟩

/-! ### Each operation settles one request -/

section Settles

variable (rt : Rtnetlink κ) (hd : ¬ rm.dryRun = true) (hc : rm.handle.isSome)
include hd hc

theorem addPolicyRule_settles (destination source : Option IpNetwork) (t priority : ℕ) :
    ∃ message, rm.addPolicyRule rt destination source t priority =
      settle isAlreadyExists message (rt.ruleAdd (policyRuleRequest destination source t priority
        (RouteManager.ruleIsIpv4 destination source))) := by
  unfold RouteManager.addPolicyRule
  rw [if_neg hd, withHandle_some hc]
  exact ⟨_, rfl⟩

theorem removePolicyRule_settles {destination source : Option IpNetwork} {t priority : ℕ}
    {msg : RuleMessage} (hm : buildRuleMessage destination source t priority
      (RouteManager.ruleIsIpv4 destination source) = .ok msg) :
    ∃ message, rm.removePolicyRule rt destination source t priority =
      settle isNoSuchEntry message (rt.ruleDel msg) := by
  unfold RouteManager.removePolicyRule
  rw [if_neg hd, withHandle_some hc]
  simp only [hm]
  exact ⟨_, rfl⟩

theorem removeRoute_settles {destination : IpNetwork} {t : ℕ} {msg : RouteMessage}
    (hm : removeRouteMessage destination t = .ok msg) :
    ∃ message, rm.removeRoute rt destination t =
      settle isNoSuchEntry message (rt.routeDel msg) := by
  unfold RouteManager.removeRoute
  rw [if_neg hd, withHandle_some hc, hm]
  exact ⟨_, rfl⟩

/- A route is asked for when its link has been found. -/
theorem addRoute_settles (destination : IpNetwork) (gateway : Option IpAddr) {interface : String}
    (t metric : ℕ) {k k' : κ} {i : ℕ}
    (hi : rm.resolveInterfaceIndex rt interface k = .ok i k') :
    ∃ message, rm.addRoute rt destination gateway interface t metric k =
      settle isAlreadyExists message
        (rt.routeAdd (routeRequest destination gateway i t metric)) k' := by
  unfold RouteManager.addRoute
  rw [if_neg hd, withHandle_some hc]
  exact ⟨_, bind_ok hi⟩

theorem addRoute_linkless (destination : IpNetwork) (gateway : Option IpAddr)
    {interface : String} (t metric : ℕ) {k k' : κ}
    (hi : ∃ e, rm.resolveInterfaceIndex rt interface k = .error e k') :
    ∃ e, rm.addRoute rt destination gateway interface t metric k = .error e k' := by
  obtain ⟨e, he⟩ := hi
  unfold RouteManager.addRoute
  rw [if_neg hd, withHandle_some hc]
  exact ⟨e, bind_error he⟩

end Settles

theorem resolveInterfaceIndex_found (h : rm.handle.isSome) {name : String} {k k' : κ} {i : ℕ}
    (hl : rt.linkGet name k = (.ok (some i), k')) :
    rm.resolveInterfaceIndex rt name k = .ok i k' := by
  have hs : send (rt.linkGet name) k = .ok (.ok (some i)) k' := by
    unfold send
    rw [hl]
  rw [RouteManager.resolveInterfaceIndex, withHandle_some h, bind_ok hs]
  rfl

theorem resolveInterfaceIndex_lost (h : rm.handle.isSome) {name : String} {k k' : κ}
    {answer : Except RtError (Option ℕ)} (hl : rt.linkGet name k = (answer, k'))
    (hn : ∀ i, answer ≠ .ok (some i)) :
    ∃ e, rm.resolveInterfaceIndex rt name k = .error e k' := by
  have hs : send (rt.linkGet name) k = .ok answer k' := by
    unfold send
    rw [hl]
  rw [RouteManager.resolveInterfaceIndex, withHandle_some h, bind_ok hs]
  rcases answer with e | _ | i
  · exact ⟨_, rfl⟩
  · exact ⟨_, rfl⟩
  · exact absurd rfl (hn i)

/-! ### Granted operations -/

theorem addPolicyRule_granted (hs : rm.Served rt)
    (destination source : Option IpNetwork) (t priority : ℕ) (k : κ) :
    ∃ k', rm.addPolicyRule rt destination source t priority k = .ok () k' := by
  by_cases hd : rm.dryRun = true
  · exact ⟨k, by rw [RouteManager.addPolicyRule, if_pos hd]; rfl⟩
  · obtain ⟨hh, hg⟩ := hs.resolve_left hd
    obtain ⟨message, hsettles⟩ := addPolicyRule_settles rt hd hh destination source t priority
    rw [hsettles]
    exact ⟨_, settle_ok (hg.ruleAdd _ k)⟩

theorem addRoute_granted (hs : rm.Served rt) (destination : IpNetwork)
    (gateway : Option IpAddr) (interface : String) (t metric : ℕ) (k : κ) :
    ∃ k', rm.addRoute rt destination gateway interface t metric k = .ok () k' := by
  by_cases hd : rm.dryRun = true
  · exact ⟨k, by rw [RouteManager.addRoute, if_pos hd]; rfl⟩
  · obtain ⟨hh, hg⟩ := hs.resolve_left hd
    obtain ⟨i, hi⟩ := hg.linkGet interface k
    have hresolve := resolveInterfaceIndex_found hh (Prod.ext hi rfl)
    obtain ⟨message, hsettles⟩ := addRoute_settles rt hd hh destination gateway t metric hresolve
    rw [hsettles]
    exact ⟨_, settle_ok (hg.routeAdd _ _)⟩

theorem removePolicyRule_granted (hs : rm.Served rt)
    (destination source : Option IpNetwork) {t : ℕ} (priority : ℕ) (k : κ)
    (hw : rm.Withdrawable t) :
    ∃ k', rm.removePolicyRule rt destination source t priority k = .ok () k' := by
  by_cases hd : rm.dryRun = true
  · exact ⟨k, by rw [RouteManager.removePolicyRule, if_pos hd]; rfl⟩
  · obtain ⟨hh, hg⟩ := hs.resolve_left hd
    obtain ⟨msg, hm⟩ := buildRuleMessage_ok destination source priority
      (RouteManager.ruleIsIpv4 destination source) (hw.resolve_left hd)
    obtain ⟨message, hsettles⟩ := removePolicyRule_settles rt hd hh hm
    rw [hsettles]
    exact ⟨_, settle_ok (hg.ruleDel msg k)⟩

theorem removeRoute_granted (hs : rm.Served rt) (destination : IpNetwork) {t : ℕ}
    (k : κ) (hw : rm.Withdrawable t) :
    ∃ k', rm.removeRoute rt destination t k = .ok () k' := by
  by_cases hd : rm.dryRun = true
  · exact ⟨k, by rw [RouteManager.removeRoute, if_pos hd]; rfl⟩
  · obtain ⟨hh, hg⟩ := hs.resolve_left hd
    obtain ⟨msg, hm⟩ := removeRouteMessage_ok destination (hw.resolve_left hd)
    obtain ⟨message, hsettles⟩ := removeRoute_settles rt hd hh hm
    rw [hsettles]
    exact ⟨_, settle_ok (hg.routeDel msg k)⟩

/- A table id beyond the header fails before any request is sent. -/
theorem removePolicyRule_rejected (rt : Rtnetlink κ) (hr : rm.Ready) (destination source : Option IpNetwork)
    {t : ℕ} (priority : ℕ) (k : κ) (hw : ¬ rm.Withdrawable t) :
    ∃ e, rm.removePolicyRule rt destination source t priority k = .error e k := by
  have hd : ¬ rm.dryRun = true := fun h => hw (Or.inl h)
  have ht : ¬ t ≤ 255 := fun h => hw (Or.inr h)
  obtain ⟨e, he⟩ := buildRuleMessage_error destination source priority
    (RouteManager.ruleIsIpv4 destination source) ht
  refine ⟨e, ?_⟩
  unfold RouteManager.removePolicyRule
  rw [if_neg hd, withHandle_some (hr.resolve_left hd), he]
  rfl

namespace RuleOperator

theorem applyRule_granted (hs : rm.Served rt) (rule : RouteRule) (index t : ℕ)
    (k : κ) (h : (target? rule).isSome) :
    ∃ k', applyRule rt rm rule index t k = .ok () k' := by
  obtain ⟨d, hd⟩ := Option.isSome_iff_exists.mp h
  rw [applyRule, getDestination_ok.mpr hd, getGateway]
  obtain ⟨k1, h1⟩ := addPolicyRule_granted hs (some d) none t rule.priority k
  obtain ⟨k2, h2⟩ := addRoute_granted hs d none rule.routeVia.interface t rule.priority k1
  exact ⟨k2, by simp only [bind_ok h1, h2]⟩

theorem removeRule_granted (hs : rm.Served rt) (rule : RouteRule) {t : ℕ} (k : κ)
    (h : (target? rule).isSome) (hw : rm.Withdrawable t) :
    ∃ k', removeRule rt rm rule t k = .ok () k' := by
  obtain ⟨d, hd⟩ := Option.isSome_iff_exists.mp h
  rw [removeRule, getDestination_ok.mpr hd]
  obtain ⟨k1, h1⟩ := removePolicyRule_granted hs (some d) none rule.priority k hw
  obtain ⟨k2, h2⟩ := removeRoute_granted hs d k1 hw
  exact ⟨k2, by simp only [bind_ok h1, h2]⟩

/- A rule without a destination is never removed. -/
theorem removeRule_targetless (rt : Rtnetlink κ) (rm : RouteManager) (rule : RouteRule) (t : ℕ)
    (k : κ) (h : target? rule = none) : ∃ e, removeRule rt rm rule t k = .error e k := by
  obtain ⟨e, he⟩ := getDestination_error h
  exact ⟨e, by rw [removeRule, he]; rfl⟩

/- A rule without a destination, or a table beyond the header, is never removed. -/
theorem removeRule_rejected (rt : Rtnetlink κ) (hr : rm.Ready) (rule : RouteRule) {t : ℕ} (k : κ)
    (h : ¬ ((target? rule).isSome ∧ rm.Withdrawable t)) :
    ∃ e, removeRule rt rm rule t k = .error e k := by
  cases hd : target? rule with
  | none => exact removeRule_targetless rt rm rule t k hd
  | some d =>
    have hw : ¬ rm.Withdrawable t := fun hw => h ⟨by rw [hd]; rfl, hw⟩
    obtain ⟨e, he⟩ := removePolicyRule_rejected rt hr (some d) none rule.priority k hw
    exact ⟨e, by rw [removeRule, getDestination_ok.mpr hd]; exact bind_error he⟩

theorem applyRule_rejected (rt : Rtnetlink κ) (rm : RouteManager) (rule : RouteRule)
    (index t : ℕ) (k : κ) (h : target? rule = none) :
    ∃ e, applyRule rt rm rule index t k = .error e k := by
  obtain ⟨e, he⟩ := getDestination_error h
  exact ⟨e, by rw [applyRule, he]; rfl⟩

/-! ### A manager that sends nothing -/

section Silent

variable (rt : Rtnetlink κ) {rule : RouteRule} {d : IpNetwork}
  (h : getDestination rule = .ok d) (t : ℕ) (k : κ)
include h

theorem applyRule_dry (hd : rm.dryRun = true) (index : ℕ) :
    applyRule rt rm rule index t k = .ok () k := by
  unfold applyRule RouteManager.addPolicyRule RouteManager.addRoute
  simp only [h, getGateway, if_pos hd]
  rfl

theorem removeRule_dry (hd : rm.dryRun = true) : removeRule rt rm rule t k = .ok () k := by
  unfold removeRule RouteManager.removePolicyRule RouteManager.removeRoute
  simp only [h, if_pos hd]
  rfl

theorem applyRule_unconnected (hd : ¬ rm.dryRun = true) (hn : rm.handle.isNone) (index : ℕ) :
    ∃ e, applyRule rt rm rule index t k = .error e k := by
  unfold applyRule RouteManager.addPolicyRule
  simp only [h, getGateway, if_neg hd, withHandle_none hn]
  exact ⟨_, rfl⟩

theorem removeRule_unconnected (hd : ¬ rm.dryRun = true) (hn : rm.handle.isNone) :
    ∃ e, removeRule rt rm rule t k = .error e k := by
  unfold removeRule RouteManager.removePolicyRule
  simp only [h, if_neg hd, withHandle_none hn]
  exact ⟨_, rfl⟩

end Silent

end RuleOperator

end NicAutoswitch.Router
