import Mathlib.Data.List.MinMax
import NicAutoswitch.Router.Rules

/-!
# Route rule matching engine (engine/matcher.rs)

The resolver of a matcher is a parameter: the addresses of a domain, or the error of
the lookup.
-/

namespace NicAutoswitch.Engine
open Schema Router

inductive Destination where
  | ip (addr : IpAddr)
  | domain (name : String)
  deriving Repr, DecidableEq

abbrev DnsResolver := String → Except NicAutoSwitchError (List IpAddr)

structure RuleMatcher where
  dnsResolver : Option DnsResolver := none

/-- `u32::MAX` -/
def u32Max : ℕ := 4294967295

namespace RuleMatcher

def new : RuleMatcher := {}

def withDnsResolver (dnsResolver : DnsResolver) : RuleMatcher := ⟨some dnsResolver⟩

/- `str::strip_prefix` and `str::strip_suffix` of one character. -/
def stripFirst (c : Char) (s : String) : Option String :=
  if s.toList.head? = some c then some (String.ofList s.toList.tail) else none

def stripLast (c : Char) (s : String) : Option String :=
  if s.toList.getLast? = some c then some (String.ofList s.toList.dropLast) else none

def matchesWildcard (pattern domain : String) : Bool :=
  if pattern = "*" then true
  else
    match stripFirst '*' pattern with
    | some suff =>
      if suff.toList.isEmpty then true
      else suff.utf8ByteSize < domain.utf8ByteSize && suff.toList.isSuffixOf domain.toList
    | none =>
      match stripLast '*' pattern with
      | some pre =>
        if pre.toList.isEmpty then true
        else pre.utf8ByteSize < domain.utf8ByteSize && pre.toList.isPrefixOf domain.toList
      | none => false

def ruleMatches (rule : RouteRule) (destination : Destination) : Bool :=
  match rule.matchOn, destination with
  | .cidr cidr, .ip ip => cidr.contains ip
  | .ip ruleIp, .ip destIp => ruleIp == destIp
  | .domain domain, .domain dest => domain == dest
  | .domainPattern pattern, .domain dest => matchesWildcard pattern dest
  | _, _ => false

/- The loop of `find_direct_match`. -/
def directMatchLoop (destination : Destination) :
    List RouteRule → Option RouteRule → ℕ → Option RouteRule
  | [], bestMatch, _ => bestMatch
  | rule :: rest, bestMatch, bestPriority =>
    if ruleMatches rule destination && decide (rule.priority < bestPriority) then
      directMatchLoop destination rest (some rule) rule.priority
    else directMatchLoop destination rest bestMatch bestPriority

def findDirectMatch (destination : Destination) (rules : List RouteRule) : Option RouteRule :=
  directMatchLoop destination rules none u32Max

/- The loop over the resolved addresses. -/
def resolvedMatch (rules : List RouteRule) : List IpAddr → Option RouteRule
  | [] => none
  | addr :: rest =>
    match findDirectMatch (.ip addr) rules with
    | some rule => some rule
    | none => resolvedMatch rules rest

def findMatchingRule (m : RuleMatcher) (destination : Destination) (rules : List RouteRule) :
    Except NicAutoSwitchError (Option RouteRule) :=
  match findDirectMatch destination rules with
  | some rule => .ok (some rule)
  | none =>
    match destination, m.dnsResolver with
    | .domain domain, some resolve =>
      match resolve domain with
      | .ok addresses => .ok (resolvedMatch rules addresses)
      | .error e => .error e
    | _, _ => .ok none

/-! ### What a direct match is -/

/- The rules that can win: a rule of priority `u32::MAX` never does. -/
def eligible (destination : Destination) (rules : List RouteRule) : List RouteRule :=
  rules.filter fun rule => ruleMatches rule destination && decide (rule.priority < u32Max)

theorem directMatchLoop_eq (destination : Destination) (rules : List RouteRule)
    (best : Option RouteRule) (h : ∀ r, best = some r → r.priority < u32Max) :
    directMatchLoop destination rules best (best.elim u32Max RouteRule.priority) =
      (eligible destination rules).foldl
        (List.argAux fun r r' => r.priority < r'.priority) best := by
  induction rules generalizing best with
  | nil => rfl
  | cons rule rest ih =>
    unfold eligible at ih ⊢
    rw [directMatchLoop, List.filter_cons]
    by_cases hm : ruleMatches rule destination = true
    · rw [hm]
      by_cases hmax : rule.priority < u32Max
      · have hrule := ih (some rule) fun r hr => by cases hr; exact hmax
        have hmax' : (true && decide (rule.priority < u32Max)) = true := decide_eq_true hmax
        rw [if_pos hmax', List.foldl_cons]
        cases best with
        | none =>
          rw [Option.elim, if_pos hmax']
          exact hrule
        | some b =>
          have hb := ih (some b) h
          show _ = List.foldl _ (if rule.priority < b.priority then some rule else some b) _
          by_cases hlt : rule.priority < b.priority
          · simp only [Option.elim, hlt, decide_true, Bool.and_self, if_true]
            exact hrule
          · simp only [Option.elim, hlt, decide_false, Bool.and_false, Bool.false_eq_true, if_false]
            exact hb
      · -- no bound of the loop lies above `u32::MAX`
        have hle : best.elim u32Max RouteRule.priority ≤ u32Max := by
          cases best with
          | none => exact le_rfl
          | some b => exact le_of_lt (h b rfl)
        have hlt : ¬ rule.priority < best.elim u32Max RouteRule.priority := by omega
        simp only [hmax, hlt, decide_false, Bool.and_false, Bool.false_eq_true, if_false]
        exact ih best h
    · simp only [hm, Bool.false_and, Bool.false_eq_true, if_false]
      exact ih best h

theorem findDirectMatch_eq (destination : Destination) (rules : List RouteRule) :
    findDirectMatch destination rules =
      (eligible destination rules).argmin RouteRule.priority :=
  directMatchLoop_eq destination rules none fun _ h => by cases h

theorem findMatchingRule_ip (m : RuleMatcher) (a : IpAddr) (rules : List RouteRule) :
    m.findMatchingRule (.ip a) rules = .ok (findDirectMatch (.ip a) rules) := by
  unfold findMatchingRule
  cases findDirectMatch (.ip a) rules <;> rfl

/- The winner is of least priority among the rules that match. -/
theorem findDirectMatch_spec {destination : Destination} {rules : List RouteRule}
    {best : RouteRule} (h : findDirectMatch destination rules = some best) :
    best ∈ rules ∧ ruleMatches best destination = true ∧
      ∀ rule ∈ rules, ruleMatches rule destination = true → best.priority ≤ rule.priority := by
  rw [findDirectMatch_eq] at h
  have hmem := List.argmin_mem h
  unfold eligible at hmem
  rw [List.mem_filter, Bool.and_eq_true, decide_eq_true_iff] at hmem
  refine ⟨hmem.1, hmem.2.1, fun rule hr hm => ?_⟩
  by_cases hmax : rule.priority < u32Max
  · refine List.le_of_mem_argmin (List.mem_filter.mpr ⟨hr, ?_⟩) h
    rw [hm, decide_eq_true hmax]
    rfl
  · have hlt := hmem.2.2
    omega

theorem findDirectMatch_isSome {destination : Destination} {rules : List RouteRule}
    {rule : RouteRule} (hr : rule ∈ rules) (hm : ruleMatches rule destination = true)
    (hmax : rule.priority < u32Max) : ∃ best, findDirectMatch destination rules = some best := by
  rw [findDirectMatch_eq]
  have hmem : rule ∈ eligible destination rules := by
    refine List.mem_filter.mpr ⟨hr, ?_⟩
    rw [hm, decide_eq_true hmax]
    rfl
  refine Option.ne_none_iff_exists'.mp fun hnone => ?_
  rw [List.argmin_eq_none.mp hnone] at hmem
  cases hmem

/-! ### Addresses -/

/- A rule matches the addresses of the network that it is installed for. -/
theorem ruleMatches_ip {rule : RouteRule} {d : IpNetwork} (a : IpAddr)
    (hd : RuleOperator.target? rule = some d) : ruleMatches rule (.ip a) = d.contains a := by
  rw [← RuleOperator.getDestination_ok] at hd
  unfold RuleOperator.getDestination at hd
  unfold ruleMatches
  cases hmo : rule.matchOn with
  | cidr cidr =>
    rw [hmo] at hd
    cases hd
    rfl
  | ip addr =>
    rw [hmo] at hd
    cases addr with
    | v4 bits =>
      cases hd
      cases a with
      | v4 x => simp [IpNetwork.contains, IpNetwork.ip, IpNetwork.prefixLen, IpAddr.agree,
          IpAddr.isIpv4]
      | v6 x => rfl
    | v6 bits =>
      cases hd
      cases a with
      | v4 x => rfl
      | v6 x => simp [IpNetwork.contains, IpNetwork.ip, IpNetwork.prefixLen, IpAddr.agree,
          IpAddr.isIpv4]
  | domain name =>
    rw [hmo] at hd
    cases hd
  | domainPattern pattern =>
    rw [hmo] at hd
    cases hd

end RuleMatcher

end NicAutoswitch.Engine
