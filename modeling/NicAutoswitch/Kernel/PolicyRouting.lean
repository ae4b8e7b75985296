import NicAutoswitch.Engine.Handlers
import NicAutoswitch.Engine.Matcher
import NicAutoswitch.Kernel.Calls
import NicAutoswitch.Lib.Selection

/-!
# Policy routing and the matcher

The matcher lets the rule of least priority win. The kernel, with all rules in one
table, follows the policy rule of least priority into the table, where the longest
prefix wins.
-/

namespace NicAutoswitch.Kernel.PolicyRouting
open HashMaps Schema Monitor Router StateProg Engine Selection Transition

/-! ### The lookup of the kernel -/

/- The routes for the address in a table: the longest prefix, and then the lowest metric. -/
def lookupTable (k : KernelState) (t : ℕ) (a : IpAddr) : List Route :=
  longest (fun r => r.destination.prefixLen) Route.metric
    (k.routes.filter fun r => r.table = t ∧ r.destination.contains a)

/- The policy rules that hold for the address, with the routes found in their tables; a
table without a route for the address is passed over. -/
def answers (k : KernelState) (a : IpAddr) : List (PolicyRule × Route) :=
  (k.rules.filter fun p => p.destination.contains a).flatMap fun p =>
    (lookupTable k p.table a).map fun q => (p, q)

/- The lookup ends at the first policy rule that has an answer. Rules of equal priority
may come in any order. -/
def lookup (k : KernelState) (a : IpAddr) : List Route :=
  (leasts (fun x => x.1.priority) (answers k a)).map Prod.snd

/- The kernel sends the address out of the interface. -/
def Selects (env : Env) (k : KernelState) (a : IpAddr) (interface : String) : Prop :=
  lookup k a ≠ [] ∧ ∀ q ∈ lookup k a, env.ifindex interface = some q.oif

theorem mem_table {k : KernelState} {t : ℕ} {a : IpAddr} {r : Route} :
    r ∈ (k.routes.filter fun r => r.table = t ∧ r.destination.contains a) ↔
      r ∈ k.routes ∧ r.table = t ∧ r.destination.contains a = true := by
  rw [List.mem_filter, decide_eq_true_iff]

theorem mem_answers {k : KernelState} {a : IpAddr} {x : PolicyRule × Route} :
    x ∈ answers k a ↔
      x.1 ∈ k.rules ∧ x.1.destination.contains a = true ∧ x.2 ∈ lookupTable k x.1.table a := by
  obtain ⟨p, q⟩ := x
  simp only [answers, List.mem_flatMap, List.mem_filter, List.mem_map, Prod.mk.injEq]
  apply Iff.intro
  · intro h
    obtain ⟨p', ⟨hp, ha⟩, q', hq, rfl, rfl⟩ := h
    exact ⟨hp, ha, hq⟩
  · intro h
    obtain ⟨hp, ha, hq⟩ := h
    exact ⟨p, ⟨hp, ha⟩, q, hq, rfl, rfl⟩

/- Where some policy rule has an answer, the lookup finds those of least priority. -/
theorem selects_iff {env : Env} {k : KernelState} {a : IpAddr} {interface : String}
    (h : ∃ x, x ∈ answers k a) :
    Selects env k a interface ↔
      ∀ x ∈ answers k a, (∀ y ∈ answers k a, x.1.priority ≤ y.1.priority) →
        env.ifindex interface = some x.2.oif := by
  obtain ⟨x, hx⟩ := h
  obtain ⟨m, hm⟩ := exists_mem_leasts (fun x => x.1.priority) hx
  have hne : lookup k a ≠ [] := List.ne_nil_of_mem (List.mem_map_of_mem hm)
  unfold Selects
  rw [and_iff_right hne]
  refine ⟨?_, ?_⟩
  · intro hs y hy hleast
    exact hs y.2 (List.mem_map_of_mem (mem_leasts.mpr ⟨hy, hleast⟩))
  · intro hs q hq
    obtain ⟨y, hy, rfl⟩ := List.mem_map.mp hq
    obtain ⟨hya, hleast⟩ := mem_leasts.mp hy
    exact hs y hya hleast

/-! ### Installing the default rules -/

/- The rules can all be installed, and no two of them share a name or a priority. -/
structure Deployable (env : Env) (rules : List RouteRule) : Prop where
  installable : ∀ rule ∈ rules, RuleOperator.Installable rule
  linked : ∀ rule ∈ rules, (env.ifindex rule.routeVia.interface).isSome
  names : (rules.map RouteRule.name).Nodup
  priorities : (rules.map RouteRule.priority).Nodup

theorem Deployable.tail {env : Env} {rule : RouteRule} {rest : List RouteRule}
    (h : Deployable env (rule :: rest)) : Deployable env rest where
  installable r hr := h.installable r (List.mem_cons_of_mem rule hr)
  linked r hr := h.linked r (List.mem_cons_of_mem rule hr)
  names := (List.nodup_cons.mp h.names).2
  priorities := (List.nodup_cons.mp h.priorities).2

theorem Deployable.entries {env : Env} {rules : List RouteRule} (h : Deployable env rules)
    {rule : RouteRule} (hr : rule ∈ rules) (t : ℕ) :
    ∃ d l, RuleOperator.target? rule = some d ∧ env.ifindex rule.routeVia.interface = some l ∧
      Kernel.entries env rule t = some (⟨d, t, rule.priority⟩, ⟨t, d, rule.priority, l⟩) := by
  obtain ⟨d, hd⟩ := Option.isSome_iff_exists.mp (h.installable rule hr).2
  obtain ⟨l, hl⟩ := Option.isSome_iff_exists.mp (h.linked rule hr)
  exact ⟨d, l, hd, hl, entries_own t hd hl⟩

/- The kernel holds the entries of the rules, besides what it held before. -/
structure Holds (env : Env) (rules : List RouteRule) (t : ℕ) (k k' : KernelState) : Prop where
  policies : ∀ p, p ∈ k'.rules ↔
    p ∈ k.rules ∨ ∃ rule ∈ rules, ∃ x, entries env rule t = some x ∧ p = x.1
  routes : ∀ q, q ∈ k'.routes ↔
    q ∈ k.routes ∨ ∃ rule ∈ rules, ∃ x, entries env rule t = some x ∧ q = x.2

theorem Holds.nil (env : Env) (t : ℕ) (k : KernelState) : Holds env [] t k k where
  policies p := by simp only [List.not_mem_nil, false_and, exists_false, or_false]
  routes q := by simp only [List.not_mem_nil, false_and, exists_false, or_false]

theorem Holds.cons {env : Env} {rule : RouteRule} {rest : List RouteRule} {t : ℕ}
    {k k1 k2 : KernelState} (h1 : Holds env [rule] t k k1) (h2 : Holds env rest t k1 k2) :
    Holds env (rule :: rest) t k k2 := by
  refine ⟨fun p => ?_, fun q => ?_⟩
  · rw [h2.policies, h1.policies]
    simp only [List.exists_mem_cons_iff, List.not_mem_nil, false_and, exists_false, or_false,
      or_assoc]
  · rw [h2.routes, h1.routes]
    simp only [List.exists_mem_cons_iff, List.not_mem_nil, false_and, exists_false, or_false,
      or_assoc]

/- The rules are still to be installed in the table. -/
structure Awaiting (rules : List RouteRule) (t : ℕ) (s : System KernelState) : Prop where
  live : Live s.dispatcher.executor.routeManager
  fresh : ∀ rule ∈ rules, rule.name ∉ s.dispatcher.executor.activeRoutes
  free : ∀ r ∈ s.kernel.routes, r.table = t → ∀ rule ∈ rules, r.metric ≠ rule.priority

/- A round of the loop for a rule that is not active. -/
theorem applyDefaultLoop_cons (env : Env) (t : ℕ) {rule : RouteRule} (rest : List RouteRule)
    {s : System KernelState} (h : rule.name ∉ s.dispatcher.executor.activeRoutes) :
    after (Dispatch.applyDefaultLoop env.plain t (rule :: rest)) s =
      after (Dispatch.applyDefaultLoop env.plain t rest)
        (System.withExec (after (RuleExecutor.applyRule env.plain rule 0 t) s.execState) s) := by
  have hinactive : ¬ s.dispatcher.executor.isRouteActive rule.name = true := by
    unfold RuleExecutor.isRouteActive
    rw [decide_eq_true_iff]
    exact h
  rw [after_ok (applyDefaultLoop_ok env.plain t (rule :: rest) s),
    after_ok (applyDefaultLoop_ok env.plain t rest _), run_cons, appliedUnlessActive,
    if_neg hinactive]
  rfl

/- It adds the entries of the rule, and the other rules are still to be installed. -/
theorem applyDefaultLoop_first {env : Env} (hq : Quiet env) (t : ℕ) {rule : RouteRule}
    {rest : List RouteRule} {s : System KernelState} (hs : Awaiting (rule :: rest) t s)
    (hd : Deployable env (rule :: rest)) :
    ∃ s', after (Dispatch.applyDefaultLoop env.plain t (rule :: rest)) s =
        after (Dispatch.applyDefaultLoop env.plain t rest) s' ∧
      Holds env [rule] t s.kernel s'.kernel ∧ Awaiting rest t s' := by
  have hmem : rule ∈ rule :: rest := List.mem_cons_self
  obtain ⟨d, l, htarget, hlink, hown⟩ := hd.entries hmem t
  have hcompletes : ApplyCompletes env s.kernel rule :=
    ⟨hd.installable rule hmem, Or.inl (hq _), hq _, hd.linked rule hmem, Or.inl (hq _)⟩
  obtain ⟨k1, he, hrules, hroutes⟩ :=
    apply_done (s := s.execState) hs.live t htarget hlink hcompletes
  have hvacant : ¬ Occupied s.kernel t d rule.priority := by
    intro ho
    obtain ⟨r, hr, ht, _, hm⟩ := ho
    exact hs.free r hr ht rule hmem hm
  have hpolicy : ∀ p, p ∈ k1.rules ↔ p = ⟨d, t, rule.priority⟩ ∨ p ∈ s.kernel.rules :=
    fun p => (hrules p).trans (or_congr_left (and_iff_right (hq _)))
  have hroute : ∀ q, q ∈ k1.routes ↔ q = ⟨t, d, rule.priority, l⟩ ∨ q ∈ s.kernel.routes :=
    fun q => (hroutes q).trans (or_congr_left (and_iff_right ⟨hq _, hvacant⟩))
  obtain ⟨hname, _⟩ := List.nodup_cons.mp hd.names
  obtain ⟨hprio, _⟩ := List.nodup_cons.mp hd.priorities
  refine ⟨_, applyDefaultLoop_cons env t rest (hs.fresh rule hmem), ?_, ?_⟩
  · rw [he]
    refine ⟨fun p => (hpolicy p).trans ?_, fun q => (hroute q).trans ?_⟩
    · simp only [List.mem_singleton, exists_eq_left, hown, Option.some_inj, exists_eq_left']
      exact or_comm
    · simp only [List.mem_singleton, exists_eq_left, hown, Option.some_inj, exists_eq_left']
      exact or_comm
  · rw [he]
    refine ⟨hs.live, fun r hr hx => ?_, fun q hqr hqt r hr hm => ?_⟩
    · rcases (AList.mem_insert _).mp hx with heq | hold
      · exact hname (heq ▸ List.mem_map_of_mem hr)
      · exact hs.fresh r (List.mem_cons_of_mem rule hr) hold
    · rcases (hroute q).mp hqr with rfl | hold
      · have heq : rule.priority = r.priority := hm
        exact hprio (heq ▸ List.mem_map_of_mem hr)
      · exact hs.free q hold hqt r (List.mem_cons_of_mem rule hr) hm

theorem applyDefaultLoop_holds {env : Env} (hq : Quiet env) (t : ℕ) {rules : List RouteRule}
    {s : System KernelState} (hs : Awaiting rules t s) (hd : Deployable env rules) :
    Holds env rules t s.kernel (after (Dispatch.applyDefaultLoop env.plain t rules) s).kernel := by
  induction rules generalizing s with
  | nil => exact Holds.nil env t s.kernel
  | cons rule rest ih =>
    obtain ⟨s', hrun, hfirst, hrest⟩ := applyDefaultLoop_first hq t hs hd
    rw [hrun]
    exact hfirst.cons (ih hrest hd.tail)

theorem applyDefaultRules_holds {env : Env} (hq : Quiet env) (i : String) {s : System KernelState}
    (hl : Live s.dispatcher.executor.routeManager)
    (hd : Deployable env s.dispatcher.config.routing.defaultRules)
    (hfresh : ∀ rule ∈ s.dispatcher.config.routing.defaultRules,
      rule.name ∉ s.dispatcher.executor.activeRoutes)
    (hfree : ∀ r ∈ s.kernel.routes, r.table ≠ tableOf s i) :
    Holds env s.dispatcher.config.routing.defaultRules (tableOf s i) s.kernel
      (after (Dispatch.applyDefaultRules env.plain i) s).kernel := by
  rw [Dispatch.applyDefaultRules, after, bind_ok (readDispatcher_ok s)]
  by_cases he : s.dispatcher.config.routing.defaultRules.isEmpty = true
  · rw [if_pos he, List.isEmpty_iff.mp he]
    exact Holds.nil env (tableOf s i) s.kernel
  · rw [if_neg he, bind_ok (tableIdFor_ok i s)]
    exact applyDefaultLoop_holds hq (tableOf s i)
      (s := { s with dispatcher := (s.dispatcher.getTableIdForInterface i).2 })
      ⟨hl, hfresh, fun r hr ht => absurd ht (hfree r hr)⟩ hd

/-! ### The kernel's choice and the matcher's -/

/- The length of the prefix that a rule is installed with. -/
def ruleLength (rule : RouteRule) : ℕ :=
  (RuleOperator.target? rule).elim 0 IpNetwork.prefixLen

/- Of the rules that match the address, the most specific one, of least priority among
equals. -/
def mostSpecific (rules : List RouteRule) (a : IpAddr) : List RouteRule :=
  longest ruleLength RouteRule.priority
    (rules.filter fun rule => RuleMatcher.ruleMatches rule (.ip a))

/- No entry of the kernel uses the table. -/
structure Vacant (k : KernelState) (t : ℕ) : Prop where
  routes : ∀ r ∈ k.routes, r.table ≠ t
  policies : ∀ p ∈ k.rules, p.table ≠ t

/- The condition, on the rules and what the kernel holds before they are installed: what
answers for the address before the winning rule, or along with it, goes out of the
winner's interface, and so does the most specific rule where nothing answers before. -/
def Agrees (env : Env) (k : KernelState) (rules : List RouteRule) (a : IpAddr)
    (best : RouteRule) : Prop :=
  (∀ x ∈ answers k a, (∀ y ∈ answers k a, x.1.priority ≤ y.1.priority) →
      x.1.priority ≤ best.priority → env.ifindex best.routeVia.interface = some x.2.oif) ∧
    ((∀ x ∈ answers k a, best.priority ≤ x.1.priority) →
      ∀ rule ∈ mostSpecific rules a, rule.routeVia.interface = best.routeVia.interface)

section Choice

variable {env : Env} {rules : List RouteRule} {t : ℕ} {k k' : KernelState} {a : IpAddr}

/- The table holds for the address the routes of the rules that match it. -/
theorem mem_table_own (hk : Holds env rules t k k') (hv : Vacant k t) (q : Route) :
    q ∈ (k'.routes.filter fun r => r.table = t ∧ r.destination.contains a) ↔
      ∃ rule ∈ rules, RuleMatcher.ruleMatches rule (.ip a) = true ∧
        ∃ x, entries env rule t = some x ∧ q = x.2 := by
  rw [mem_table, hk.routes]
  apply Iff.intro
  · intro h
    obtain ⟨hq, ht, ha⟩ := h
    rcases hq with hold | hnew
    · exact absurd ht (hv.routes q hold)
    · obtain ⟨rule, hr, x, hx, rfl⟩ := hnew
      obtain ⟨d, l, hd, _, rfl⟩ := entries_spec hx
      exact ⟨rule, hr, (RuleMatcher.ruleMatches_ip a hd).trans ha, _, hx, rfl⟩
  · intro h
    obtain ⟨rule, hr, hm, x, hx, rfl⟩ := h
    obtain ⟨d, l, hd, _, rfl⟩ := entries_spec hx
    exact ⟨Or.inr ⟨rule, hr, _, hx, rfl⟩, rfl, (RuleMatcher.ruleMatches_ip a hd).symm.trans hm⟩

/- The other tables are as before. -/
theorem mem_lookupTable_other (hk : Holds env rules t k k') {t' : ℕ} (ht : t' ≠ t) (q : Route) :
    q ∈ lookupTable k' t' a ↔ q ∈ lookupTable k t' a := by
  refine mem_longest_congr (fun r => ?_) q
  rw [mem_table, mem_table, hk.routes]
  apply Iff.intro
  · intro h
    obtain ⟨hr, hrt, ha⟩ := h
    rcases hr with hold | hnew
    · exact ⟨hold, hrt, ha⟩
    · obtain ⟨rule, _, x, hx, rfl⟩ := hnew
      obtain ⟨d, l, _, _, rfl⟩ := entries_spec hx
      exact absurd hrt.symm ht
  · intro h
    exact ⟨Or.inl h.1, h.2⟩

theorem entries_length {rule : RouteRule} {x : PolicyRule × Route}
    (hx : entries env rule t = some x) :
    x.2.destination.prefixLen = ruleLength rule ∧ x.2.metric = rule.priority := by
  obtain ⟨d, l, hd, _, rfl⟩ := entries_spec hx
  unfold ruleLength
  rw [hd]
  exact ⟨rfl, rfl⟩

/- The table sends the address where the most specific rule goes. -/
theorem mem_lookupTable_own (hd : Deployable env rules) (hk : Holds env rules t k k')
    (hv : Vacant k t) (q : Route) :
    q ∈ lookupTable k' t a ↔
      ∃ rule ∈ mostSpecific rules a, ∃ x, entries env rule t = some x ∧ q = x.2 := by
  unfold lookupTable mostSpecific
  simp only [mem_longest, mem_table_own hk hv, List.mem_filter]
  apply Iff.intro
  · intro h
    obtain ⟨⟨rule, hr, hm, x, hx, rfl⟩, hlen, hcost⟩ := h
    obtain ⟨hxlen, hxcost⟩ := entries_length hx
    refine ⟨rule, ⟨⟨hr, hm⟩, fun r hr' => ?_, fun r hr' he => ?_⟩, x, hx, rfl⟩
    · obtain ⟨d, l, _, _, hown⟩ := hd.entries hr'.1 t
      have hle := hlen _ ⟨r, hr'.1, hr'.2, _, hown, rfl⟩
      rw [hxlen, (entries_length hown).1] at hle
      exact hle
    · obtain ⟨d, l, _, _, hown⟩ := hd.entries hr'.1 t
      have hle := hcost _ ⟨r, hr'.1, hr'.2, _, hown, rfl⟩
      rw [hxlen, hxcost, (entries_length hown).1, (entries_length hown).2] at hle
      exact hle he
  · intro h
    obtain ⟨rule, ⟨⟨hr, hm⟩, hlen, hcost⟩, x, hx, rfl⟩ := h
    obtain ⟨hxlen, hxcost⟩ := entries_length hx
    refine ⟨⟨rule, hr, hm, x, hx, rfl⟩, fun q hq => ?_, fun q hq he => ?_⟩
    · obtain ⟨r, hr', hm', y, hy, rfl⟩ := hq
      rw [hxlen, (entries_length hy).1]
      exact hlen r ⟨hr', hm'⟩
    · obtain ⟨r, hr', hm', y, hy, rfl⟩ := hq
      rw [hxlen, (entries_length hy).1] at he
      rw [hxcost, (entries_length hy).2]
      exact hcost r ⟨hr', hm'⟩ he

/- After the rules are installed, the policy rules from before answer as they did, and
each matching rule answers with the routes of the most specific ones. -/
theorem mem_answers_after (hd : Deployable env rules) (hk : Holds env rules t k k')
    (hv : Vacant k t) (p : PolicyRule) (q : Route) :
    (p, q) ∈ answers k' a ↔ (p, q) ∈ answers k a ∨
      (∃ rule ∈ rules, RuleMatcher.ruleMatches rule (.ip a) = true ∧
        ∃ x, entries env rule t = some x ∧ p = x.1) ∧
      ∃ rule ∈ mostSpecific rules a, ∃ x, entries env rule t = some x ∧ q = x.2 := by
  rw [mem_answers, mem_answers, ← mem_lookupTable_own hd hk hv]
  apply Iff.intro
  · intro h
    obtain ⟨hp, ha, hq⟩ := h
    rcases (hk.policies p).mp hp with hold | hnew
    · exact Or.inl ⟨hold, ha, (mem_lookupTable_other hk (hv.policies p hold) q).mp hq⟩
    · obtain ⟨rule, hr, x, hx, rfl⟩ := hnew
      obtain ⟨d, l, htarget, _, rfl⟩ := entries_spec hx
      exact Or.inr ⟨⟨rule, hr, (RuleMatcher.ruleMatches_ip a htarget).trans ha, _, hx, rfl⟩, hq⟩
  · intro h
    rcases h with hold | hnew
    · obtain ⟨hp, ha, hq⟩ := hold
      exact ⟨(hk.policies p).mpr (Or.inl hp), ha,
        (mem_lookupTable_other hk (hv.policies p hp) q).mpr hq⟩
    · obtain ⟨⟨rule, hr, hm, x, hx, rfl⟩, hq⟩ := hnew
      have hp := (hk.policies x.1).mpr (Or.inr ⟨rule, hr, x, hx, rfl⟩)
      obtain ⟨d, l, htarget, _, rfl⟩ := entries_spec hx
      exact ⟨hp, (RuleMatcher.ruleMatches_ip a htarget).symm.trans hm, hq⟩

/- An answer that is not from before has at least the winner's priority. -/
theorem answers_late (hd : Deployable env rules) (hk : Holds env rules t k k') (hv : Vacant k t)
    {n : ℕ} (hleast : ∀ rule ∈ rules, RuleMatcher.ruleMatches rule (.ip a) = true →
      n ≤ rule.priority) :
    ∀ x ∈ answers k' a, x ∈ answers k a ∨ n ≤ x.1.priority := by
  intro x hx
  obtain ⟨p, q⟩ := x
  rcases (mem_answers_after hd hk hv p q).mp hx with hold | hnew
  · exact Or.inl hold
  · obtain ⟨⟨rule, hr, hm, y, hy, rfl⟩, _⟩ := hnew
    obtain ⟨dr, lr, _, _, rfl⟩ := entries_spec hy
    exact Or.inr (hleast rule hr hm)

/- The kernel's choice for an address that a rule matches. -/
theorem selects_best_iff (hd : Deployable env rules) (hk : Holds env rules t k k')
    (hv : Vacant k t) {best : RouteRule}
    (hbest : RuleMatcher.findDirectMatch (.ip a) rules = some best) :
    Selects env k' a best.routeVia.interface ↔ Agrees env k rules a best := by
  obtain ⟨hmem, hmatch, hleast⟩ := RuleMatcher.findDirectMatch_spec hbest
  obtain ⟨d, l, _, _, hown⟩ := hd.entries hmem t
  obtain ⟨top, htop⟩ : ∃ rule, rule ∈ mostSpecific rules a :=
    exists_mem_longest ruleLength RouteRule.priority (List.mem_filter.mpr ⟨hmem, hmatch⟩)
  have hrules : ∀ rule ∈ mostSpecific rules a, ∃ d l, env.ifindex rule.routeVia.interface = some l ∧
      entries env rule t = some (⟨d, t, rule.priority⟩, ⟨t, d, rule.priority, l⟩) := by
    intro rule hr
    obtain ⟨d, l, _, hlink, hx⟩ := hd.entries (List.mem_filter.mp (mem_longest.mp hr).1).1 t
    exact ⟨d, l, hlink, hx⟩
  have hmine : ∀ q, (∃ rule ∈ mostSpecific rules a, ∃ x, entries env rule t = some x ∧ q = x.2) →
      ((⟨d, t, best.priority⟩ : PolicyRule), q) ∈ answers k' a := fun q hq =>
    (mem_answers_after hd hk hv _ q).mpr (Or.inr ⟨⟨best, hmem, hmatch, _, hown, rfl⟩, hq⟩)
  obtain ⟨dt, lt, _, htopx⟩ := hrules top htop
  have hsome := hmine _ ⟨top, htop, _, htopx, rfl⟩
  have hlate := answers_late hd hk hv hleast
  rw [selects_iff ⟨_, hsome⟩]
  apply Iff.intro
  · intro h
    refine ⟨fun x hx hx0 hxb => ?_, fun hall rule hr => ?_⟩
    · refine h x ((mem_answers_after hd hk hv x.1 x.2).mpr (Or.inl hx)) fun y hy => ?_
      rcases hlate y hy with hold | hlater
      · exact hx0 y hold
      · exact hxb.trans hlater
    · obtain ⟨dr, lr, hlink, hx⟩ := hrules rule hr
      have hvia := h _ (hmine _ ⟨rule, hr, _, hx, rfl⟩) fun y hy => by
        rcases hlate y hy with hold | hlater
        · exact hall y hold
        · exact hlater
      exact env.ifindex_inj _ _ lr hlink hvia
  · intro h x hx hfirst
    obtain ⟨p, q⟩ := x
    have hpb : p.priority ≤ best.priority := hfirst _ hsome
    rcases (mem_answers_after hd hk hv p q).mp hx with hold | hnew
    · refine h.1 _ hold (fun y hy => ?_) hpb
      exact hfirst y ((mem_answers_after hd hk hv y.1 y.2).mpr (Or.inl hy))
    · obtain ⟨⟨rule, hr, hm, y, hy, rfl⟩, top', htop', z, hz, rfl⟩ := hnew
      obtain ⟨dr, lr, _, _, rfl⟩ := entries_spec hy
      obtain ⟨dz, lz, hlink, hz'⟩ := hrules top' htop'
      rw [hz] at hz'
      cases hz'
      have hvia := h.2 (fun y hy => (hleast rule hr hm).trans
        (hfirst y ((mem_answers_after hd hk hv y.1 y.2).mpr (Or.inl hy)))) top' htop'
      rw [← hvia]
      exact hlink

end Choice

/- The kernel sends an address where the matcher says exactly where the most specific
matching rule goes out of the interface of the one of least priority, as far as the
entries from before leave the choice to them. -/
theorem routing_agrees_iff {env : Env} (hq : Quiet env) (m : RuleMatcher) (i : String)
    {s : System KernelState} (hl : Live s.dispatcher.executor.routeManager)
    (hd : Deployable env s.dispatcher.config.routing.defaultRules)
    (hmax : ∀ rule ∈ s.dispatcher.config.routing.defaultRules, rule.priority < u32Max)
    (hfresh : ∀ rule ∈ s.dispatcher.config.routing.defaultRules,
      rule.name ∉ s.dispatcher.executor.activeRoutes) (hv : Vacant s.kernel (tableOf s i))
    (a : IpAddr) (hm : ∃ rule ∈ s.dispatcher.config.routing.defaultRules,
      RuleMatcher.ruleMatches rule (.ip a) = true) :
    ∃ best, m.findMatchingRule (.ip a) s.dispatcher.config.routing.defaultRules =
        .ok (some best) ∧
      (∀ rule ∈ s.dispatcher.config.routing.defaultRules,
        RuleMatcher.ruleMatches rule (.ip a) = true → best.priority ≤ rule.priority) ∧
      (Selects env (after (Dispatch.applyDefaultRules env.plain i) s).kernel a
          best.routeVia.interface ↔
        Agrees env s.kernel s.dispatcher.config.routing.defaultRules a best) := by
  obtain ⟨matching, hmem, hmatch⟩ := hm
  have hk := applyDefaultRules_holds hq i hl hd hfresh hv.routes
  obtain ⟨best, hbest⟩ := RuleMatcher.findDirectMatch_isSome hmem hmatch (hmax matching hmem)
  obtain ⟨_, _, hleast⟩ := RuleMatcher.findDirectMatch_spec hbest
  refine ⟨best, ?_, hleast, selects_best_iff hd hk hv hbest⟩
  rw [RuleMatcher.findMatchingRule_ip, hbest]

/-! ### Overlapping networks -/

def branch : IpNetwork := .v4 ⟨0x0a010000, 16, len16_v4⟩
def branchRule : RouteRule := ⟨"branch", .cidr branch, ⟨"wlan0"⟩, 200⟩

/- A wide network of high priority, and a narrow one of low priority inside it. -/
def overlapping : Config where
  interfaces := AList.insert "eth0" ⟨.lan, .name "eth0", 100⟩ ∅
  routing := ⟨[lanRule, branchRule]⟩

def freshHost : System KernelState := Dispatch.launch overlapping connected .empty

theorem overlapping_deployable : Deployable noFault overlapping.routing.defaultRules :=
  ⟨by decide, by decide, by decide, by decide⟩

theorem empty_vacant (t : ℕ) : Vacant KernelState.empty t where
  routes _ hr := absurd hr List.not_mem_nil
  policies _ hp := absurd hp List.not_mem_nil

theorem routing_agrees_iff_branch :
    ∃ best, RuleMatcher.new.findMatchingRule (.ip (.v4 0x0a010203))
        overlapping.routing.defaultRules = .ok (some best) ∧
      (∀ rule ∈ overlapping.routing.defaultRules,
        RuleMatcher.ruleMatches rule (.ip (.v4 0x0a010203)) = true →
          best.priority ≤ rule.priority) ∧
      (Selects noFault (after (Dispatch.applyDefaultRules noFault.plain "eth0") freshHost).kernel
          (.v4 0x0a010203) best.routeVia.interface ↔
        Agrees noFault freshHost.kernel overlapping.routing.defaultRules (.v4 0x0a010203) best) :=
  routing_agrees_iff noFault_quiet .new "eth0" (s := freshHost) connected_live
    overlapping_deployable (by decide) (by decide) (empty_vacant _) (.v4 0x0a010203) (by decide)

/- The matcher says eth0, the kernel takes the route of the narrow network. -/
theorem branch_leaves_by_wlan0 :
    RuleMatcher.new.findMatchingRule (.ip (.v4 0x0a010203)) overlapping.routing.defaultRules =
        .ok (some lanRule) ∧
      ¬ Selects noFault (after (Dispatch.applyDefaultRules noFault.plain "eth0") freshHost).kernel
        (.v4 0x0a010203) lanRule.routeVia.interface := by
  refine ⟨rfl, fun h => ?_⟩
  have hroute : (⟨100, branch, 200, 3⟩ : Route) ∈
      lookup (after (Dispatch.applyDefaultRules noFault.plain "eth0") freshHost).kernel
        (.v4 0x0a010203) := by decide
  have hvia := h.2 _ hroute
  cases hvia

end NicAutoswitch.Kernel.PolicyRouting
