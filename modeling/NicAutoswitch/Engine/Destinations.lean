import NicAutoswitch.Config.Accepted
import NicAutoswitch.Engine.Matcher
import NicAutoswitch.Router.Granted

/-!
# The addresses that a rule is for (engine/matcher.rs, router/rules.rs)

The matcher and the installer read the network of a rule separately. A network keeps the
host bits that it is written with; the matcher ignores them, and a kernel may refuse a
route because of them.
-/

namespace NicAutoswitch.Engine.Destinations
open Schema Router RuleMatcher RuleOperator StateProg

/- The rules without a destination are those for names. -/
theorem getDestination_error_iff (rule : RouteRule) : (∃ e, getDestination rule = .error e) ↔
    ∃ name, rule.matchOn = .domain name ∨ rule.matchOn = .domainPattern name := by
  unfold getDestination
  cases hm : rule.matchOn with
  | cidr cidr =>
    apply iff_of_false
    · rintro ⟨e, he⟩
      cases he
    · rintro ⟨name, h | h⟩ <;> cases h
  | ip addr =>
    apply iff_of_false
    · rintro ⟨e, he⟩
      cases addr <;> cases he
    · rintro ⟨name, h | h⟩ <;> cases h
  | domain name => exact iff_of_true ⟨_, rfl⟩ ⟨name, Or.inl rfl⟩
  | domainPattern pattern => exact iff_of_true ⟨_, rfl⟩ ⟨pattern, Or.inr rfl⟩

/- A rule matches an address exactly if its destination contains the address, and the rules
without a destination are those for names. -/
theorem ruleMatches_iff_destination (rule : RouteRule) :
    (∀ a, ruleMatches rule (.ip a) = true ↔
      ∃ d, getDestination rule = .ok d ∧ d.contains a = true) ∧
    ((∃ e, getDestination rule = .error e) ↔
      ∃ name, rule.matchOn = .domain name ∨ rule.matchOn = .domainPattern name) := by
  constructor
  · intro a
    cases ht : target? rule with
    | some d =>
      rw [ruleMatches_ip a ht]
      have hd := getDestination_ok.mpr ht
      apply Iff.intro
      · intro h
        exact ⟨d, hd, h⟩
      · rintro ⟨d', hd', h⟩
        rw [hd] at hd'
        cases hd'
        exact h
    | none =>
      obtain ⟨e, he⟩ := getDestination_error ht
      apply iff_of_false
      · obtain ⟨name, hm | hm⟩ := (getDestination_error_iff rule).mp ⟨e, he⟩
        · unfold ruleMatches
          rw [hm]
          exact Bool.false_ne_true
        · unfold ruleMatches
          rw [hm]
          exact Bool.false_ne_true
      · rintro ⟨d, hd, _⟩
        rw [he] at hd
        cases hd
  · exact getDestination_error_iff rule

/-! ### Host bits -/

/- Whether a bit is set beyond the first `len`. -/
def hostBits (len : ℕ) : IpAddr → Bool
  | .v4 bits => bits <<< len != 0#32
  | .v6 bits => bits <<< len != 0#128

theorem shiftLeft_ne_zero {w : ℕ} (bits : BitVec w) (len : ℕ) :
    (bits <<< len != 0#w) = true ↔ ∃ i, i + len < w ∧ bits.getLsbD i = true := by
  rw [bne_iff_ne]
  apply Iff.intro
  · intro h
    by_contra hnone
    refine h (BitVec.eq_of_getLsbD_eq fun j hj => ?_)
    rw [BitVec.getLsbD_shiftLeft, BitVec.getLsbD_zero]
    by_cases hlt : j < len
    · simp only [hlt, decide_true, Bool.not_true, Bool.and_false, Bool.false_and]
    · have hbit : bits.getLsbD (j - len) = false :=
        Bool.eq_false_iff.mpr fun hb => hnone ⟨j - len, by omega, hb⟩
      rw [hbit, Bool.and_false]
  · rintro ⟨i, hi, hb⟩ hzero
    have hbit := congrArg (fun v : BitVec w => v.getLsbD (i + len)) hzero
    simp only [BitVec.getLsbD_shiftLeft, BitVec.getLsbD_zero, hi, decide_true, Bool.true_and,
      Nat.add_sub_cancel, hb, Bool.and_true] at hbit
    have hge : ¬ i + len < len := by omega
    rw [decide_eq_false hge] at hbit
    cases hbit

/- The bits are counted from the last. -/
theorem hostBits_v4 (bits : BitVec 32) (len : ℕ) :
    hostBits len (.v4 bits) = true ↔ ∃ i, i + len < 32 ∧ bits.getLsbD i = true :=
  shiftLeft_ne_zero bits len

theorem hostBits_v6 (bits : BitVec 128) (len : ℕ) :
    hostBits len (.v6 bits) = true ↔ ∃ i, i + len < 128 ∧ bits.getLsbD i = true :=
  shiftLeft_ne_zero bits len

/- A kernel that refuses a route whose destination has host bits, and nothing else. -/
structure RefusesHostBits {κ : Type} (rt : Rtnetlink κ) : Prop where
  routeTaken : ∀ q k, hostBits q.prefixLen q.destination = false → (rt.routeAdd q k).1 = .ok ()
  routeRefused : ∀ q k, hostBits q.prefixLen q.destination = true →
    ∃ e, (rt.routeAdd q k).1 = .error e ∧ isAlreadyExists e = false
  ruleTaken : ∀ q k, (rt.ruleAdd q k).1 = .ok ()
  linkFound : ∀ name k, ∃ i, (rt.linkGet name k).1 = .ok (some i)

theorem settle_refused {κ : Type} {tolerated : RtError → Bool} {message : RtError → String}
    {req : κ → Except RtError Unit × κ} {k : κ} {e : RtError} (h : (req k).1 = .error e)
    (ht : tolerated e = false) :
    settle tolerated message req k = .error (.route (message e)) (req k).2 := by
  have hp : req k = (.error e, (req k).2) := Prod.ext h rfl
  unfold settle
  rw [hp]
  simp only [ht, Bool.false_eq_true, if_false]

variable {κ : Type} {rt : Rtnetlink κ} {rm : RouteManager} {rule : RouteRule} {d : IpNetwork}

/- With a connection, a rule is applied exactly if its destination has no host bits. -/
theorem applyRule_iff (hr : RefusesHostBits rt) (hd : ¬ rm.dryRun = true)
    (hc : rm.handle.isSome) (hdst : getDestination rule = .ok d) (index t : ℕ) (k : κ) :
    (∃ k', applyRule rt rm rule index t k = .ok () k') ↔ hostBits d.prefixLen d.ip = false := by
  obtain ⟨message, hpolicy⟩ := addPolicyRule_settles rt hd hc (some d) none t rule.priority
  have hrule : ∃ k1, rm.addPolicyRule rt (some d) none t rule.priority k = .ok () k1 := by
    rw [hpolicy]
    exact ⟨_, settle_ok (hr.ruleTaken _ k)⟩
  obtain ⟨k1, hrule⟩ := hrule
  obtain ⟨i, hi⟩ := hr.linkFound rule.routeVia.interface k1
  obtain ⟨message', hroute⟩ := addRoute_settles rt hd hc d none t rule.priority
    (resolveInterfaceIndex_found hc (Prod.ext hi rfl))
  have happly : applyRule rt rm rule index t k = settle isAlreadyExists message'
      (rt.routeAdd (routeRequest d none i t rule.priority))
        (rt.linkGet rule.routeVia.interface k1).2 := by
    rw [applyRule, hdst, getGateway]
    simp only [bind_ok hrule, hroute]
  rw [happly]
  cases hbits : hostBits d.prefixLen d.ip with
  | false => exact iff_of_true ⟨_, settle_ok (hr.routeTaken _ _ hbits)⟩ rfl
  | true =>
    obtain ⟨e, he, ht⟩ := hr.routeRefused (routeRequest d none i t rule.priority)
      (rt.linkGet rule.routeVia.interface k1).2 hbits
    rw [settle_refused he ht]
    apply iff_of_false
    · rintro ⟨k', hk⟩
      cases hk
    · exact Ne.symm Bool.false_ne_true

/- The destination of every network rule has no host bits, and the rule is applied. -/
def RulesInstall (rt : Rtnetlink κ) (rm : RouteManager) (c : Config) : Prop :=
  ∀ rule ∈ c.allRules, ∀ d, getDestination rule = .ok d →
    hostBits d.prefixLen d.ip = false ∧
      ∀ index t k, ∃ k', applyRule rt rm rule index t k = .ok () k'

theorem hostBits_full (a : IpAddr) : hostBits (if a.isIpv4 then 32 else 128) a = false := by
  cases a with
  | v4 bits =>
    rw [IpAddr.isIpv4, if_pos rfl, Bool.eq_false_iff, ne_eq, hostBits_v4]
    rintro ⟨i, hi, _⟩
    omega
  | v6 bits =>
    rw [IpAddr.isIpv4, if_neg Bool.false_ne_true, Bool.eq_false_iff, ne_eq, hostBits_v6]
    rintro ⟨i, hi, _⟩
    omega

/- A single address is a network of full length. -/
theorem hostBits_getDestination (hdst : getDestination rule = .ok d) :
    (∀ cidr, rule.matchOn = .cidr cidr → hostBits cidr.prefixLen cidr.ip = false) ↔
      hostBits d.prefixLen d.ip = false := by
  unfold getDestination at hdst
  cases hm : rule.matchOn with
  | cidr cidr =>
    rw [hm] at hdst
    cases hdst
    exact ⟨fun h => h d rfl, fun h cidr' he => by cases he; exact h⟩
  | ip addr =>
    rw [hm] at hdst
    have hfull := hostBits_full addr
    refine iff_of_true (fun cidr h => by cases h) ?_
    cases addr <;> cases hdst <;> exact hfull
  | domain name =>
    rw [hm] at hdst
    cases hdst
  | domainPattern pattern =>
    rw [hm] at hdst
    cases hdst

/- Every network rule of a configuration can be installed exactly if no network that it writes
has a bit set beyond its length. Neither the validation nor the installer looks at them. -/
theorem rulesInstall_iff (hr : RefusesHostBits rt) (hm : rm.Ready) (c : Config) :
    RulesInstall rt rm c ↔ ∀ rule ∈ c.allRules, ∀ cidr, rule.matchOn = .cidr cidr →
      hostBits cidr.prefixLen cidr.ip = false := by
  apply Iff.intro
  · intro h rule hrule cidr hc
    have hdst : getDestination rule = .ok cidr := by
      unfold getDestination
      rw [hc]
    exact (h rule hrule cidr hdst).1
  · intro h rule hrule d hdst
    have hbits := (hostBits_getDestination hdst).mp (h rule hrule)
    refine ⟨hbits, fun index t k => ?_⟩
    by_cases hd : rm.dryRun = true
    · exact ⟨k, applyRule_dry rt hdst t k hd index⟩
    · exact (applyRule_iff hr hd (hm.resolve_left hd) hdst index t k).mpr hbits

def invalidArgument : RtError := .netlinkError (some (-22)) "Invalid argument (os error 22)"

/- A kernel that keeps no state. -/
def strict : Rtnetlink Unit :=
  { grantAll with
    routeAdd := fun q k =>
      (if hostBits q.prefixLen q.destination then .error invalidArgument else .ok (), k) }

theorem strict_refuses : RefusesHostBits strict where
  routeTaken q k h := by
    show (if hostBits q.prefixLen q.destination = true then _ else _) = _
    rw [h, if_neg Bool.false_ne_true]
  routeRefused q k h := by
    refine ⟨invalidArgument, ?_, rfl⟩
    show (if hostBits q.prefixLen q.destination = true then _ else _) = _
    rw [h, if_pos rfl]
  ruleTaken _ _ := rfl
  linkFound _ _ := ⟨1, rfl⟩

/- `10.1.2.3/8`, which parses as a network and is accepted. -/
def strayRule : RouteRule :=
  ⟨"corp", .cidr (.v4 ⟨0x0a010203, 8, len8_v4⟩), ⟨"nic0"⟩, 100⟩

def strayConfig : Config where
  interfaces := Accepted.nic0
  routing := ⟨[strayRule]⟩

theorem rulesInstall_iff_stray : RulesInstall strict connected strayConfig ↔
    ∀ rule ∈ strayConfig.allRules, ∀ cidr, rule.matchOn = .cidr cidr →
      hostBits cidr.prefixLen cidr.ip = false :=
  rulesInstall_iff strict_refuses (Or.inr rfl) strayConfig

theorem stray_not_installed :
    strayConfig.validate = .ok () ∧
    applyRule strict connected strayRule 0 100 () = .error (.route
      ("Failed to add route 10.1.2.3/8 dev nic0 table 100: " ++
        "Received a netlink error message Invalid argument (os error 22)")) () ∧
    ¬ RulesInstall strict connected strayConfig := by
  refine ⟨by decide +kernel, by rfl, fun h => ?_⟩
  obtain ⟨hbits, _⟩ := h strayRule (by decide +kernel) _ rfl
  revert hbits
  decide +kernel

end NicAutoswitch.Engine.Destinations
