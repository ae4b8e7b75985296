import NicAutoswitch.Engine.AllMatches
import NicAutoswitch.Lib.Selection

/-!
# The rule that is chosen for a destination (engine/matcher.rs)

The loop over the rules starts from the bound `u32::MAX` and compares strictly, so that a
rule of that priority is never chosen.
-/

namespace NicAutoswitch.Engine.RuleMatcher
open Schema Router Gather Selection

/- `best` is the first in the list of the matching rules of least priority number. -/
structure FirstBest (destination : Destination) (rules : List RouteRule) (best : RouteRule) :
    Prop where
  hit : ruleMatches best destination = true
  least : ∀ rule ∈ rules, ruleMatches rule destination = true → best.priority ≤ rule.priority
  first : ∃ pre post, rules = pre ++ best :: post ∧
    ∀ rule ∈ pre, ruleMatches rule destination = true → best.priority < rule.priority

/- A rule is returned exactly if one matches, and it is the first of the best. -/
def FindsBest (destination : Destination) (rules : List RouteRule) : Prop :=
  ((∃ best, findDirectMatch destination rules = some best) ↔
    ∃ rule ∈ rules, ruleMatches rule destination = true) ∧
  ∀ best, findDirectMatch destination rules = some best → FirstBest destination rules best

variable {destination : Destination} {rules : List RouteRule} {best : RouteRule}

theorem findDirectMatch_bounded (h : findDirectMatch destination rules = some best) :
    best.priority < u32Max := by
  rw [findDirectMatch_eq] at h
  have hmem := (List.mem_filter.mp (List.argmin_mem h)).2
  exact of_decide_eq_true (Bool.and_eq_true_iff.mp hmem).2

theorem findDirectMatch_first (h : findDirectMatch destination rules = some best) :
    FirstBest destination rules best := by
  obtain ⟨_, hhit, hleast⟩ := findDirectMatch_spec h
  refine ⟨hhit, hleast, ?_⟩
  have hmax := findDirectMatch_bounded h
  rw [findDirectMatch_eq] at h
  obtain ⟨pre, post, heq, hpre⟩ := argmin_filter_split h
  refine ⟨pre, post, heq, fun rule hr hm => ?_⟩
  by_cases hlt : rule.priority < u32Max
  · exact hpre rule hr (by rw [hm, decide_eq_true hlt]; rfl)
  · omega

/- Direct matching finds the best rule exactly if the matching rules, where there are any, do
not all have the priority `u32::MAX`. -/
theorem findsBest_iff (destination : Destination) (rules : List RouteRule) :
    FindsBest destination rules ↔
      ((∃ rule ∈ rules, ruleMatches rule destination = true) →
        ∃ rule ∈ rules, ruleMatches rule destination = true ∧ rule.priority < u32Max) := by
  apply Iff.intro
  · intro h hmatch
    obtain ⟨best, hbest⟩ := h.1.mpr hmatch
    obtain ⟨hmem, hhit, _⟩ := findDirectMatch_spec hbest
    exact ⟨best, hmem, hhit, findDirectMatch_bounded hbest⟩
  · intro h
    constructor
    · apply Iff.intro
      · rintro ⟨best, hbest⟩
        obtain ⟨hmem, hhit, _⟩ := findDirectMatch_spec hbest
        exact ⟨best, hmem, hhit⟩
      · intro hmatch
        obtain ⟨rule, hr, hm, hmax⟩ := h hmatch
        exact findDirectMatch_isSome hr hm hmax
    · intro best hbest
      exact findDirectMatch_first hbest

/- A catch-all of the last priority, which the validation accepts. -/
def lastResort : RouteRule := ⟨"any", .cidr (.v4 ⟨0, 0, len0_v4⟩), ⟨"eth0"⟩, 4294967295⟩

theorem lastResort_not_found :
    lastResort.validate = .ok () ∧
    ruleMatches lastResort (.ip (.v4 0x0a010203)) = true ∧
    findDirectMatch (.ip (.v4 0x0a010203)) [lastResort] = none ∧
    ¬ FindsBest (.ip (.v4 0x0a010203)) [lastResort] := by
  have hnone : findDirectMatch (.ip (.v4 0x0a010203)) [lastResort] = none := by decide +kernel
  have hm : ruleMatches lastResort (.ip (.v4 0x0a010203)) = true := by decide +kernel
  refine ⟨rfl, hm, hnone, fun h => ?_⟩
  obtain ⟨best, hbest⟩ := h.1.mpr ⟨lastResort, List.mem_singleton.mpr rfl, hm⟩
  rw [hnone] at hbest
  cases hbest

/-! ### The choice for a name and its addresses -/

variable {m : RuleMatcher} {addresses : List IpAddr}

theorem resolvedMatch_eq (rules : List RouteRule) (addresses : List IpAddr) :
    resolvedMatch rules addresses =
      (addresses.map Destination.ip).findSome? fun target => findDirectMatch target rules := by
  induction addresses with
  | nil => rfl
  | cons addr rest ih =>
    rw [resolvedMatch, List.map_cons, List.findSome?_cons, ih]
    cases findDirectMatch (.ip addr) rules <;> rfl

theorem findMatchingRule_eq (m : RuleMatcher) (destination : Destination)
    (rules : List RouteRule) : m.findMatchingRule destination rules =
      match findDirectMatch destination rules with
      | some best => .ok (some best)
      | none => (m.lookup destination).map (resolvedMatch rules) := by
  unfold findMatchingRule
  cases findDirectMatch destination rules with
  | some best => rfl
  | none => exact asked_eq m destination (resolvedMatch rules)

/- The targets are tried in turn. -/
theorem findMatchingRule_ok (hl : m.lookup destination = .ok addresses) :
    m.findMatchingRule destination rules =
      .ok ((targets destination addresses).findSome? fun target => findDirectMatch target rules) := by
  rw [findMatchingRule_eq, hl, targets, List.findSome?_cons, ← resolvedMatch_eq]
  cases findDirectMatch destination rules <;> rfl

/- A lookup that fails comes too late for a rule that matches the destination itself. -/
theorem findMatchingRule_error {e : NicAutoSwitchError} (hl : m.lookup destination = .error e)
    (hd : findDirectMatch destination rules = none) :
    m.findMatchingRule destination rules = .error e := by
  rw [findMatchingRule_eq, hl, hd]
  rfl

/- An answer comes from a lookup that has not failed, or from a match by name. -/
theorem lookup_of_found {found : List RouteRule}
    (h : m.findAllMatchingRules destination rules = .ok found) :
    ∃ addresses, m.lookup destination = .ok addresses := by
  cases hl : m.lookup destination with
  | ok addresses => exact ⟨addresses, rfl⟩
  | error e =>
    rw [findAllMatchingRules_error hl] at h
    cases h

/- The chosen rule is one of those that match, and any of these with a smaller priority number
is first matched by a later target: by an address if the chosen one matches the name, and else
by a later address. -/
theorem findMatchingRule_chosen {chosen : RouteRule} {found : List RouteRule}
    (h : m.findMatchingRule destination rules = .ok (some chosen))
    (hall : m.findAllMatchingRules destination rules = .ok found) :
    ∃ addresses, m.lookup destination = .ok addresses ∧ chosen ∈ found ∧
      ∀ rule ∈ found, rule.priority < chosen.priority →
        firstHit destination addresses chosen < firstHit destination addresses rule := by
  obtain ⟨addresses, hl⟩ := lookup_of_found hall
  rw [findMatchingRule_ok hl, Except.ok.injEq] at h
  obtain ⟨pre, target, post, htargets, hchosen, hpre⟩ := List.findSome?_eq_some_iff.mp h
  obtain ⟨hmem, hhit, hleast⟩ := findDirectMatch_spec hchosen
  have hmax := findDirectMatch_bounded hchosen
  refine ⟨addresses, hl, ?_, fun rule hrule hlt => ?_⟩
  · refine (mem_findAllMatchingRules hall hl chosen).mpr ⟨hmem, covers_iff.mpr ⟨target, ?_, hhit⟩⟩
    rw [htargets]
    exact List.mem_append_right pre List.mem_cons_self
  · obtain ⟨hr, _⟩ := (mem_findAllMatchingRules hall hl rule).mp hrule
    -- no earlier target is matched by a rule that could have been chosen for it
    have hearlier : ∀ t ∈ pre, ¬ hits t rule = true := by
      intro t ht hm
      obtain ⟨best, hbest⟩ := findDirectMatch_isSome hr hm (hlt.trans hmax)
      rw [hpre t ht] at hbest
      cases hbest
    have hsame : ¬ hits target rule = true := fun hm => absurd (hleast rule hr hm) (not_le.mpr hlt)
    unfold firstHit
    rw [htargets]
    have hchosenHit : hits target chosen = true := hhit
    exact (stage_le hchosenHit).trans_lt (lt_stage hearlier hsame)

/- The rule for the name is chosen, though the rule for its addresses has the smaller number. -/
theorem findMatchingRule_chosen_corp :
    ∃ addresses, corpMatcher.lookup (.domain "api.corp.com") = .ok addresses ∧
      apiRule ∈ [lanRule, apiRule] ∧
      ∀ rule ∈ [lanRule, apiRule], rule.priority < apiRule.priority →
        firstHit (.domain "api.corp.com") addresses apiRule <
          firstHit (.domain "api.corp.com") addresses rule := by
  have hchosen : corpMatcher.findMatchingRule (.domain "api.corp.com") [lanRule, apiRule] =
      .ok (some apiRule) := rfl
  have hall : corpMatcher.findAllMatchingRules (.domain "api.corp.com") [lanRule, apiRule] =
      .ok [lanRule, apiRule] := rfl
  exact findMatchingRule_chosen hchosen hall

theorem name_goes_before_priority :
    ¬ ∀ (m : RuleMatcher) (name : String) (rules : List RouteRule) (chosen : RouteRule)
      (found : List RouteRule), m.findMatchingRule (.domain name) rules = .ok (some chosen) →
      m.findAllMatchingRules (.domain name) rules = .ok found →
      chosen ∈ found ∧ ∀ rule ∈ found, chosen.priority ≤ rule.priority := by
  intro h
  obtain ⟨_, hle⟩ := h corpMatcher "api.corp.com" [lanRule, apiRule] apiRule [lanRule, apiRule]
    rfl rfl
  have hlan : apiRule.priority ≤ lanRule.priority := hle lanRule List.mem_cons_self
  revert hlan
  decide

/-! ### Whether anything matches -/

/- The queries agree on whether a rule matches, and a lookup that fails hides no rule that
matches the destination itself. -/
def QueriesAgree (m : RuleMatcher) (destination : Destination) (rules : List RouteRule) : Prop :=
  ((∃ rule, m.findMatchingRule destination rules = .ok (some rule)) ↔
    ∃ found, m.findAllMatchingRules destination rules = .ok found ∧ found ≠ []) ∧
  ((∃ e, m.lookup destination = .error e) →
    (∃ rule ∈ rules, ruleMatches rule destination = true) →
      ∃ found, m.findAllMatchingRules destination rules = .ok found ∧ found ≠ [])

/- The condition: a lookup that fails finds no rule that matches the destination itself; after
one that does not fail, the rules that match, if any, do not all have the priority `u32::MAX`. -/
def LookupHarmless (m : RuleMatcher) (destination : Destination) (rules : List RouteRule) : Prop :=
  match m.lookup destination with
  | .error _ => ∀ rule ∈ rules, ¬ ruleMatches rule destination = true
  | .ok addresses => (∃ rule ∈ rules, Covers destination addresses rule) →
      ∃ rule ∈ rules, Covers destination addresses rule ∧ rule.priority < u32Max

theorem findMatchingRule_isSome (hl : m.lookup destination = .ok addresses) :
    (∃ rule, m.findMatchingRule destination rules = .ok (some rule)) ↔
      ∃ rule ∈ rules, Covers destination addresses rule ∧ rule.priority < u32Max := by
  rw [findMatchingRule_ok hl]
  simp only [Except.ok.injEq, covers_iff]
  apply Iff.intro
  · rintro ⟨rule, h⟩
    obtain ⟨target, ht, hrule⟩ := List.exists_of_findSome?_eq_some h
    obtain ⟨hr, hhit, _⟩ := findDirectMatch_spec hrule
    exact ⟨rule, hr, ⟨target, ht, hhit⟩, findDirectMatch_bounded hrule⟩
  · rintro ⟨rule, hr, ⟨target, ht, hhit⟩, hmax⟩
    obtain ⟨best, hbest⟩ := findDirectMatch_isSome hr hhit hmax
    refine Option.ne_none_iff_exists'.mp fun hnone => ?_
    have := List.findSome?_eq_none_iff.mp hnone target ht
    rw [hbest] at this
    cases this

theorem findAllMatchingRules_nonempty (hl : m.lookup destination = .ok addresses) :
    (∃ found, m.findAllMatchingRules destination rules = .ok found ∧ found ≠ []) ↔
      ∃ rule ∈ rules, Covers destination addresses rule := by
  apply Iff.intro
  · rintro ⟨found, hok, hne⟩
    obtain ⟨rule, hrule⟩ := List.exists_mem_of_ne_nil found hne
    exact ⟨rule, (mem_findAllMatchingRules hok hl rule).mp hrule⟩
  · rintro ⟨rule, hr⟩
    have hok := findAllMatchingRules_ok rules hl
    exact ⟨_, hok, List.ne_nil_of_mem ((mem_findAllMatchingRules hok hl rule).mpr hr)⟩

theorem queriesAgree_iff (m : RuleMatcher) (destination : Destination) (rules : List RouteRule) :
    QueriesAgree m destination rules ↔ LookupHarmless m destination rules := by
  unfold QueriesAgree LookupHarmless
  cases hl : m.lookup destination with
  | ok addresses =>
    rw [findMatchingRule_isSome hl, findAllMatchingRules_nonempty hl]
    apply Iff.intro
    · intro h
      exact h.1.mpr
    · intro h
      constructor
      · apply Iff.intro
        · rintro ⟨rule, hr, hc, _⟩
          exact ⟨rule, hr, hc⟩
        · exact h
      · rintro ⟨e, he⟩
        cases he
  | error e =>
    have hfail : ¬ ∃ found, m.findAllMatchingRules destination rules = .ok found ∧ found ≠ [] := by
      rintro ⟨found, hok, _⟩
      rw [findAllMatchingRules_error hl] at hok
      cases hok
    apply Iff.intro
    · intro h rule hr hm
      exact hfail (h.2 ⟨e, rfl⟩ ⟨rule, hr, hm⟩)
    · intro h
      have hdirect : findDirectMatch destination rules = none := by
        rw [Option.eq_none_iff_forall_ne_some]
        intro best hbest
        obtain ⟨hr, hm, _⟩ := findDirectMatch_spec hbest
        exact h best hr hm
      constructor
      · apply iff_of_false
        · rintro ⟨rule, hok⟩
          rw [findMatchingRule_error hl hdirect] at hok
          cases hok
        · exact hfail
      · rintro _ ⟨rule, hr, hm⟩
        exact absurd hm (h rule hr)

def unreachable : RuleMatcher := withDnsResolver fun _ => .error (.dns "no answer")

/- A lookup that fails hides a rule for the name, and a catch-all of the last priority is seen
by one query alone. -/
theorem queries_disagree :
    unreachable.findMatchingRule (.domain "api.corp.com") [apiRule] = .ok (some apiRule) ∧
    unreachable.findAllMatchingRules (.domain "api.corp.com") [apiRule] =
      .error (.dns "no answer") ∧
    ¬ QueriesAgree unreachable (.domain "api.corp.com") [apiRule] ∧
    new.findMatchingRule (.ip (.v4 0x0a010203)) [lastResort] = .ok none ∧
    new.findAllMatchingRules (.ip (.v4 0x0a010203)) [lastResort] = .ok [lastResort] ∧
    ¬ QueriesAgree new (.ip (.v4 0x0a010203)) [lastResort] := by
  have hchosen : unreachable.findMatchingRule (.domain "api.corp.com") [apiRule] =
      .ok (some apiRule) := rfl
  have hfailed : unreachable.findAllMatchingRules (.domain "api.corp.com") [apiRule] =
      .error (.dns "no answer") := rfl
  have hnone : new.findMatchingRule (.ip (.v4 0x0a010203)) [lastResort] = .ok none := rfl
  have hall : new.findAllMatchingRules (.ip (.v4 0x0a010203)) [lastResort] = .ok [lastResort] := rfl
  refine ⟨hchosen, hfailed, fun h => ?_, hnone, hall, fun h => ?_⟩
  · obtain ⟨found, hfound, _⟩ := h.1.mp ⟨apiRule, hchosen⟩
    rw [hfailed] at hfound
    cases hfound
  · obtain ⟨rule, hrule⟩ := h.1.mpr ⟨[lastResort], hall, by decide⟩
    rw [hnone] at hrule
    cases hrule

end NicAutoswitch.Engine.RuleMatcher
