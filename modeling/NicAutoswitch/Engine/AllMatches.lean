import NicAutoswitch.Engine.Matcher
import NicAutoswitch.Lib.Gather

/-!
# All the rules that match a destination (engine/matcher.rs)

A rule may match a domain by its name, or one of the addresses that the resolver answers.
-/

namespace NicAutoswitch.Engine.RuleMatcher
open Schema Router Gather

/- `sort_by_key(|r| r.priority)` is a stable sort; `contains` compares the rules. -/
def findAllMatchingRules (m : RuleMatcher) (destination : Destination) (rules : List RouteRule) :
    Except NicAutoSwitchError (List RouteRule) :=
  let direct := rules.filter fun rule => ruleMatches rule destination
  match destination, m.dnsResolver with
  | .domain domain, some resolve =>
    match resolve domain with
    | .ok addresses =>
      .ok (stableSort RouteRule.priority
        (passes (fun addr rule => ruleMatches rule (.ip addr)) addresses rules direct))
    | .error e => .error e
  | _, _ => .ok (stableSort RouteRule.priority direct)

/- The addresses that the queries learn: none for an address, nor without a resolver. -/
def lookup (m : RuleMatcher) (destination : Destination) :
    Except NicAutoSwitchError (List IpAddr) :=
  match destination, m.dnsResolver with
  | .domain domain, some resolve => resolve domain
  | _, _ => .ok []

/- What a rule is matched against: the destination, then its addresses. -/
def targets (destination : Destination) (addresses : List IpAddr) : List Destination :=
  destination :: addresses.map .ip

/- The test of the passes. -/
def hits (target : Destination) (rule : RouteRule) : Bool := ruleMatches rule target

/- Which of the targets the rule matches first. -/
def firstHit (destination : Destination) (addresses : List IpAddr) (rule : RouteRule) : ℕ :=
  stage hits (targets destination addresses) rule

/- The rule matches the destination or one of its addresses. -/
def Covers (destination : Destination) (addresses : List IpAddr) (rule : RouteRule) : Prop :=
  ruleMatches rule destination = true ∨ ∃ addr ∈ addresses, ruleMatches rule (.ip addr) = true

instance (destination : Destination) (addresses : List IpAddr) (rule : RouteRule) :
    Decidable (Covers destination addresses rule) := inferInstanceAs (Decidable (_ ∨ _))

/- The order of rules of equal priority: those that match the destination in the order of the
list, then the others by the first address that they match, then by the list. -/
def FoundBefore (destination : Destination) (addresses : List IpAddr) (rules : List RouteRule)
    (r r' : RouteRule) : Prop :=
  let direct (rule : RouteRule) : Prop := ruleMatches rule destination = true
  let address (rule : RouteRule) : ℕ := addresses.findIdx fun addr => ruleMatches rule (.ip addr)
  let place (rule : RouteRule) : ℕ := rules.idxOf rule
  direct r ∧ ¬ direct r' ∨ direct r ∧ direct r' ∧ place r < place r' ∨
    ¬ direct r ∧ ¬ direct r' ∧
      (address r < address r' ∨ address r = address r' ∧ place r < place r')

variable {m : RuleMatcher} {destination : Destination} {rules : List RouteRule}
  {addresses : List IpAddr}

theorem covers_iff {rule : RouteRule} : Covers destination addresses rule ↔
    ∃ target ∈ targets destination addresses, hits target rule = true := by
  unfold Covers targets hits
  simp only [List.mem_cons, List.mem_map, or_and_right, exists_or, exists_eq_left]
  apply or_congr_right
  apply Iff.intro
  · rintro ⟨addr, hmem, hm⟩
    exact ⟨.ip addr, ⟨addr, hmem, rfl⟩, hm⟩
  · rintro ⟨target, ⟨addr, hmem, rfl⟩, hm⟩
    exact ⟨addr, hmem, hm⟩

theorem firstHit_direct {rule : RouteRule} (h : ruleMatches rule destination = true) :
    firstHit destination addresses rule = 0 := by
  unfold firstHit stage targets hits
  rw [List.findIdx_cons, h, cond_true]

theorem firstHit_resolved {rule : RouteRule} (h : ¬ ruleMatches rule destination = true) :
    firstHit destination addresses rule =
      (addresses.findIdx fun addr => ruleMatches rule (.ip addr)) + 1 := by
  unfold firstHit stage targets hits
  rw [List.findIdx_cons, Bool.eq_false_iff.mpr h, cond_false, List.findIdx_map]
  rfl

theorem foundBefore_of_before {r r' : RouteRule}
    (h : Before hits (targets destination addresses) rules r r') :
    FoundBefore destination addresses rules r r' := by
  change firstHit destination addresses r < firstHit destination addresses r' ∨
    firstHit destination addresses r = firstHit destination addresses r' ∧
      rules.idxOf r < rules.idxOf r' at h
  unfold FoundBefore
  by_cases hd : ruleMatches r destination = true
  · by_cases hd' : ruleMatches r' destination = true
    · rw [firstHit_direct hd, firstHit_direct hd'] at h
      exact Or.inr (Or.inl ⟨hd, hd', (h.resolve_left (lt_irrefl 0)).2⟩)
    · exact Or.inl ⟨hd, hd'⟩
  · rw [firstHit_resolved hd] at h
    by_cases hd' : ruleMatches r' destination = true
    · rw [firstHit_direct hd'] at h
      omega
    · rw [firstHit_resolved hd', Nat.add_lt_add_iff_right, Nat.add_right_cancel_iff] at h
      exact Or.inr (Or.inr ⟨hd, hd', h⟩)

/-! ### The query as passes over the rules -/

/- The resolver is asked about a domain, if there is one. -/
theorem asked_eq {β : Type} (m : RuleMatcher) (destination : Destination)
    (answer : List IpAddr → β) :
    (match destination, m.dnsResolver with
      | .domain domain, some resolve =>
        match resolve domain with
        | .ok addresses => .ok (answer addresses)
        | .error e => .error e
      | _, _ => .ok (answer [])) = (m.lookup destination).map answer := by
  obtain ⟨dnsResolver⟩ := m
  unfold lookup
  cases destination with
  | ip addr => rfl
  | domain domain =>
    cases dnsResolver with
    | none => rfl
    | some resolve =>
      dsimp only
      cases resolve domain with
      | ok addresses => rfl
      | error e => rfl

theorem findAllMatchingRules_eq (m : RuleMatcher) (destination : Destination)
    (rules : List RouteRule) : m.findAllMatchingRules destination rules =
      (m.lookup destination).map fun addresses => stableSort RouteRule.priority
        (passes (fun addr rule => ruleMatches rule (.ip addr)) addresses rules
          (rules.filter fun rule => ruleMatches rule destination)) :=
  asked_eq m destination fun addresses => stableSort RouteRule.priority
    (passes (fun addr rule => ruleMatches rule (.ip addr)) addresses rules
      (rules.filter fun rule => ruleMatches rule destination))

theorem findAllMatchingRules_ok (rules : List RouteRule) (hl : m.lookup destination = .ok addresses) :
    m.findAllMatchingRules destination rules =
      .ok (stableSort RouteRule.priority
        (passes (fun addr rule => ruleMatches rule (.ip addr)) addresses rules
          (rules.filter fun rule => ruleMatches rule destination))) := by
  rw [findAllMatchingRules_eq, hl]
  rfl

theorem findAllMatchingRules_error {e : NicAutoSwitchError}
    (hl : m.lookup destination = .error e) :
    m.findAllMatchingRules destination rules = .error e := by
  rw [findAllMatchingRules_eq, hl]
  rfl

/- Complete and sound, whether or not the list repeats a rule. -/
theorem mem_findAllMatchingRules {found : List RouteRule}
    (h : m.findAllMatchingRules destination rules = .ok found)
    (hl : m.lookup destination = .ok addresses) (rule : RouteRule) :
    rule ∈ found ↔ rule ∈ rules ∧ Covers destination addresses rule := by
  rw [findAllMatchingRules_ok rules hl] at h
  cases h
  rw [mem_stableSort, mem_passes, List.mem_filter, ← and_or_left]
  rfl

/- The first pass takes what matches the destination. -/
theorem passes_targets (hn : rules.Nodup) :
    passes (fun addr rule => ruleMatches rule (.ip addr)) addresses rules
        (rules.filter fun rule => ruleMatches rule destination) =
      passes hits (targets destination addresses) rules [] := by
  have hfirst : pass (hits destination) rules [] =
      rules.filter fun rule => ruleMatches rule destination := by
    rw [pass_eq _ hn, List.nil_append]
    apply List.filter_congr
    intro rule _
    simp only [hits, List.contains_nil, Bool.not_false, Bool.and_true]
  unfold passes targets
  rw [List.foldl_cons, hfirst, List.foldl_map]
  rfl

/- Exactly the rules that match the destination or one of its addresses, each once, by
priority and then in the order in which they are found. -/
theorem findAllMatchingRules_spec (hn : rules.Nodup)
    (hl : m.lookup destination = .ok addresses) :
    ∃ found, m.findAllMatchingRules destination rules = .ok found ∧
      (∀ rule, rule ∈ found ↔ rule ∈ rules ∧ Covers destination addresses rule) ∧
      found.Nodup ∧
      found.Pairwise fun r r' => r.priority < r'.priority ∨
        r.priority = r'.priority ∧ FoundBefore destination addresses rules r r' := by
  have hok := findAllMatchingRules_ok rules hl
  refine ⟨_, hok, fun rule => mem_findAllMatchingRules hok hl rule, ?_, ?_⟩
  · rw [(stableSort_perm _ _).nodup_iff, passes_targets hn]
    exact (gathered_passes hits hn _).nodup
  · rw [passes_targets hn]
    refine (stableSort_pairwise (gathered_passes hits hn _).ordered).imp fun h => ?_
    exact h.imp_right fun ⟨he, hb⟩ => ⟨he, foundBefore_of_before hb⟩

def apiRule : RouteRule := ⟨"api", .domain "api.corp.com", ⟨"eth0"⟩, 100⟩
def lanRule : RouteRule := ⟨"lan", .cidr (.v4 ⟨0x0a000000, 8, len8_v4⟩), ⟨"eth0"⟩, 50⟩
def hostRule : RouteRule := ⟨"host", .ip (.v4 0x0a000002), ⟨"wlan0"⟩, 100⟩

/- Every name has the two addresses, one of which is answered twice. -/
def corpAddresses : List IpAddr := [.v4 0x0a000001, .v4 0x0a000002, .v4 0x0a000001]
def corpMatcher : RuleMatcher := withDnsResolver fun _ => .ok corpAddresses

example : (corpMatcher.findAllMatchingRules (.domain "api.corp.com")
    [hostRule, lanRule, apiRule]).toOption = some [lanRule, apiRule, hostRule] := by
  decide +kernel

theorem findAllMatchingRules_spec_corp :
    ∃ found, corpMatcher.findAllMatchingRules (.domain "api.corp.com")
        [hostRule, lanRule, apiRule] = .ok found ∧
      (∀ rule, rule ∈ found ↔ rule ∈ [hostRule, lanRule, apiRule] ∧
        Covers (.domain "api.corp.com") corpAddresses rule) ∧
      found.Nodup ∧
      found.Pairwise fun r r' => r.priority < r'.priority ∨ r.priority = r'.priority ∧
        FoundBefore (.domain "api.corp.com") corpAddresses [hostRule, lanRule, apiRule] r r' :=
  findAllMatchingRules_spec (by decide +kernel) rfl

end NicAutoswitch.Engine.RuleMatcher
