import NicAutoswitch.Kernel.LinuxCalls
import NicAutoswitch.Kernel.PolicyRouting

/-!
# Where Linux sends an address

A table is shared by the routes of some rules, and the policy rules of some rules lead into
it. An address is sent out where one of the latter is for it, and then as the most specific
of the former says: the policy rules say whether, the routes say where.
-/

namespace NicAutoswitch.Kernel.Forwarding
open Schema Router Engine Selection Linux PolicyRouting

/- What Linux keeps of what the rule asks for in the table. -/
def kept? (env : Env) (rule : RouteRule) (t : ℕ) : Option (PolicyRule × Route) :=
  (RuleOperator.target? rule).bind fun d =>
    (route? env rule d t).map fun r => (ruleOf d t rule.priority, r)

theorem kept?_eq_some {env : Env} {rule : RouteRule} {t : ℕ} {e : PolicyRule × Route} :
    kept? env rule t = some e ↔ ∃ d, RuleOperator.target? rule = some d ∧
      e.1 = ruleOf d t rule.priority ∧ route? env rule d t = some e.2 := by
  unfold kept?
  simp only [Option.bind_eq_some_iff, Option.map_eq_some_iff]
  refine exists_congr fun d => and_congr_right fun _ => ⟨?_, ?_⟩
  · rintro ⟨r, hr, rfl⟩
    exact ⟨rfl, hr⟩
  · rintro ⟨hp, hr⟩
    exact ⟨e.2, hr, Prod.ext hp.symm rfl⟩

/- The kernel has the policy rules of the first rules and the routes of the second ones. -/
structure Mirrors (env : Env) (t : ℕ) (armed standing : List RouteRule) (k : KernelState) :
    Prop where
  policies : ∀ p, p ∈ k.rules ↔ ∃ rule ∈ armed, ∃ e, kept? env rule t = some e ∧ p = e.1
  routes : ∀ q, q ∈ k.routes ↔ ∃ rule ∈ standing, ∃ e, kept? env rule t = some e ∧ q = e.2

/- One of the first rules is for the address, and the most specific of the second ones for it
lead out of the interface. -/
def Chosen (armed standing : List RouteRule) (a : IpAddr) (interface : String) : Prop :=
  (∃ rule ∈ armed, RuleMatcher.ruleMatches rule (.ip a) = true) ∧
    mostSpecific standing a ≠ [] ∧
      ∀ rule ∈ mostSpecific standing a, rule.routeVia.interface = interface

instance (armed standing : List RouteRule) (a : IpAddr) (interface : String) :
    Decidable (Chosen armed standing a interface) := inferInstanceAs (Decidable (_ ∧ _ ∧ _))

theorem mostSpecific_ne_nil {rules : List RouteRule} {rule : RouteRule} {a : IpAddr}
    (hm : rule ∈ rules) (ha : RuleMatcher.ruleMatches rule (.ip a) = true) :
    mostSpecific rules a ≠ [] := by
  have hmem : rule ∈ rules.filter fun rule => RuleMatcher.ruleMatches rule (.ip a) :=
    List.mem_filter.mpr ⟨hm, ha⟩
  obtain ⟨top, htop⟩ := exists_mem_longest ruleLength RouteRule.priority hmem
  exact List.ne_nil_of_mem htop

/- The routes of no two rules have one network. -/
def Separate (rules : List RouteRule) : Prop :=
  ∀ rule ∈ rules, ∀ rule' ∈ rules, ∀ d d', RuleOperator.target? rule = some d →
    RuleOperator.target? rule' = some d' → routeNetwork? d = routeNetwork? d' → rule = rule'

section Entries

variable {env : Env} {rule : RouteRule} {t : ℕ} {e : PolicyRule × Route} (a : IpAddr)

theorem kept?_table (h : kept? env rule t = some e) : e.1.table = t ∧ e.2.table = t := by
  obtain ⟨d, _, hp, hr⟩ := kept?_eq_some.mp h
  obtain ⟨i, d', _, _, he⟩ := route?_some hr
  rw [hp, he]
  exact ⟨rfl, rfl⟩

/- Both entries are for the addresses of the rule. -/
theorem kept?_contains (h : kept? env rule t = some e) :
    e.1.destination.contains a = RuleMatcher.ruleMatches rule (.ip a) ∧
      e.2.destination.contains a = RuleMatcher.ruleMatches rule (.ip a) := by
  obtain ⟨d, hd, hp, hr⟩ := kept?_eq_some.mp h
  obtain ⟨i, d', _, hn, he⟩ := route?_some hr
  rw [RuleMatcher.ruleMatches_ip a hd, hp, he]
  exact ⟨ruleNetwork_contains d a, routeNetwork?_contains hn a⟩

theorem kept?_length (h : kept? env rule t = some e) :
    e.2.destination.prefixLen = ruleLength rule := by
  obtain ⟨d, hd, _, hr⟩ := kept?_eq_some.mp h
  obtain ⟨i, d', _, hn, he⟩ := route?_some hr
  unfold ruleLength
  rw [hd, he]
  exact (routeNetwork?_version hn).2

theorem kept?_link (h : kept? env rule t = some e) :
    env.ifindex rule.routeVia.interface = some e.2.oif := by
  obtain ⟨d, _, _, hr⟩ := kept?_eq_some.mp h
  obtain ⟨i, d', hi, _, he⟩ := route?_some hr
  rw [hi, he]

/- Rules of one length that are both for an address have one network. -/
theorem Separate.eq_of_length {rules : List RouteRule} (hs : Separate rules) {rule' : RouteRule}
    {e' : PolicyRule × Route} (hm : rule ∈ rules) (hm' : rule' ∈ rules)
    (h : kept? env rule t = some e) (h' : kept? env rule' t = some e')
    (ha : RuleMatcher.ruleMatches rule (.ip a) = true)
    (ha' : RuleMatcher.ruleMatches rule' (.ip a) = true)
    (hl : ruleLength rule = ruleLength rule') : rule = rule' := by
  obtain ⟨d, hd, _, hr⟩ := kept?_eq_some.mp h
  obtain ⟨d', hd', _, hr'⟩ := kept?_eq_some.mp h'
  obtain ⟨_, n, _, hn, _⟩ := route?_some hr
  obtain ⟨_, n', _, hn', _⟩ := route?_some hr'
  rw [RuleMatcher.ruleMatches_ip a hd] at ha
  rw [RuleMatcher.ruleMatches_ip a hd'] at ha'
  unfold ruleLength at hl
  rw [hd, hd'] at hl
  exact hs rule hm rule' hm' d d' hd hd'
    (by rw [hn, hn', routeNetwork?_eq_of_contains hn hn' hl ha ha'])

end Entries

section Lookup

variable {env : Env} {t : ℕ} {armed standing : List RouteRule} {k : KernelState}

theorem Mirrors.mem_table (h : Mirrors env t armed standing k) (a : IpAddr) (q : Route) :
    q ∈ (k.routes.filter fun r => r.table = t ∧ r.destination.contains a) ↔
      ∃ rule ∈ standing, RuleMatcher.ruleMatches rule (.ip a) = true ∧
        ∃ e, kept? env rule t = some e ∧ q = e.2 := by
  rw [PolicyRouting.mem_table, h.routes]
  apply Iff.intro
  · rintro ⟨⟨rule, hm, e, he, rfl⟩, _, ha⟩
    exact ⟨rule, hm, (kept?_contains a he).2.symm.trans ha, e, he, rfl⟩
  · rintro ⟨rule, hm, ha, e, he, rfl⟩
    exact ⟨⟨rule, hm, e, he, rfl⟩, (kept?_table he).2, (kept?_contains a he).2.trans ha⟩

/- The table answers with the routes of the most specific rules. -/
theorem Mirrors.mem_lookupTable (h : Mirrors env t armed standing k) (hs : Separate standing)
    (hkept : ∀ rule ∈ standing, (kept? env rule t).isSome) (a : IpAddr) (q : Route) :
    q ∈ lookupTable k t a ↔
      ∃ rule ∈ mostSpecific standing a, ∃ e, kept? env rule t = some e ∧ q = e.2 := by
  unfold lookupTable mostSpecific
  simp only [mem_longest, h.mem_table, List.mem_filter]
  apply Iff.intro
  · rintro ⟨⟨rule, hm, ha, e, he, rfl⟩, hlen, _⟩
    refine ⟨rule, ⟨⟨hm, ha⟩, fun r hr => ?_, fun r hr hl => ?_⟩, e, he, rfl⟩
    · obtain ⟨e', he'⟩ := Option.isSome_iff_exists.mp (hkept r hr.1)
      have hle := hlen _ ⟨r, hr.1, hr.2, e', he', rfl⟩
      rwa [kept?_length he, kept?_length he'] at hle
    · obtain ⟨e', he'⟩ := Option.isSome_iff_exists.mp (hkept r hr.1)
      rw [hs.eq_of_length a hr.1 hm he' he hr.2 ha hl]
  · rintro ⟨rule, ⟨⟨hm, ha⟩, hlen, _⟩, e, he, rfl⟩
    refine ⟨⟨rule, hm, ha, e, he, rfl⟩, ?_, ?_⟩
    · rintro _ ⟨r, hr, hra, e', he', rfl⟩
      rw [kept?_length he, kept?_length he']
      exact hlen r ⟨hr, hra⟩
    · rintro _ ⟨r, hr, hra, e', he', rfl⟩ hl
      rw [kept?_length he, kept?_length he'] at hl
      cases hs.eq_of_length a hr hm he' he hra ha hl
      rw [he] at he'
      rw [Option.some.inj he']

/- Every policy rule leads into the one table. -/
theorem Mirrors.mem_answers (h : Mirrors env t armed standing k) (a : IpAddr)
    (x : PolicyRule × Route) : x ∈ answers k a ↔
      (∃ rule ∈ armed, RuleMatcher.ruleMatches rule (.ip a) = true ∧
        ∃ e, kept? env rule t = some e ∧ x.1 = e.1) ∧ x.2 ∈ lookupTable k t a := by
  obtain ⟨p, q⟩ := x
  rw [PolicyRouting.mem_answers, h.policies]
  apply Iff.intro
  · rintro ⟨⟨rule, hm, e, he, rfl⟩, ha, hq⟩
    rw [(kept?_table he).1] at hq
    exact ⟨⟨rule, hm, (kept?_contains a he).1.symm.trans ha, e, he, rfl⟩, hq⟩
  · rintro ⟨⟨rule, hm, ha, e, he, rfl⟩, hq⟩
    refine ⟨⟨rule, hm, e, he, rfl⟩, (kept?_contains a he).1.trans ha, ?_⟩
    rw [(kept?_table he).1]
    exact hq

/- Where a policy rule is for the address, the table decides. -/
theorem Mirrors.mem_lookup (h : Mirrors env t armed standing k)
    (hkept : ∀ rule ∈ armed, (kept? env rule t).isSome) (a : IpAddr) (q : Route) :
    q ∈ lookup k a ↔ (∃ rule ∈ armed, RuleMatcher.ruleMatches rule (.ip a) = true) ∧
      q ∈ lookupTable k t a := by
  unfold lookup
  simp only [List.mem_map]
  apply Iff.intro
  · rintro ⟨x, hx, rfl⟩
    obtain ⟨⟨rule, hm, ha, _⟩, hq⟩ := (h.mem_answers a x).mp (mem_leasts.mp hx).1
    exact ⟨⟨rule, hm, ha⟩, hq⟩
  · rintro ⟨⟨rule, hm, ha⟩, hq⟩
    obtain ⟨e, he⟩ := Option.isSome_iff_exists.mp (hkept rule hm)
    have hx : (e.1, q) ∈ answers k a := (h.mem_answers a _).mpr ⟨⟨rule, hm, ha, e, he, rfl⟩, hq⟩
    -- the first policy rule that has an answer has this one too
    obtain ⟨y, hy⟩ := exists_mem_leasts (fun x => x.1.priority) hx
    obtain ⟨hmem, hleast⟩ := mem_leasts.mp hy
    have hyq : (y.1, q) ∈ answers k a :=
      (h.mem_answers a _).mpr ⟨((h.mem_answers a y).mp hmem).1, hq⟩
    exact ⟨(y.1, q), mem_leasts.mpr ⟨hyq, hleast⟩, rfl⟩

/- The kernel's choice is that of the rules. -/
theorem Mirrors.selects_iff (h : Mirrors env t armed standing k) (hs : Separate standing)
    (harmed : ∀ rule ∈ armed, (kept? env rule t).isSome)
    (hstanding : ∀ rule ∈ standing, (kept? env rule t).isSome) (a : IpAddr)
    (interface : String) : Selects env k a interface ↔ Chosen armed standing a interface := by
  have hmem : ∀ q, q ∈ lookup k a ↔
      (∃ rule ∈ armed, RuleMatcher.ruleMatches rule (.ip a) = true) ∧
        ∃ rule ∈ mostSpecific standing a, ∃ e, kept? env rule t = some e ∧ q = e.2 := fun q =>
    (h.mem_lookup harmed a q).trans (and_congr_right fun _ => h.mem_lookupTable hs hstanding a q)
  have hroute : ∀ rule ∈ mostSpecific standing a, ∃ e, kept? env rule t = some e := fun rule hr =>
    Option.isSome_iff_exists.mp
      (hstanding rule (List.mem_filter.mp (mem_longest.mp hr).1).1)
  unfold Selects Chosen
  apply Iff.intro
  · rintro ⟨hne, hall⟩
    obtain ⟨q, hq⟩ := List.exists_mem_of_ne_nil _ hne
    obtain ⟨harm, top, htop, _⟩ := (hmem q).mp hq
    refine ⟨harm, List.ne_nil_of_mem htop, fun rule hr => ?_⟩
    obtain ⟨e, he⟩ := hroute rule hr
    have hvia := hall e.2 ((hmem _).mpr ⟨harm, rule, hr, e, he, rfl⟩)
    exact env.ifindex_inj _ _ _ (kept?_link he) hvia
  · rintro ⟨harm, hne, hall⟩
    refine ⟨?_, fun q hq => ?_⟩
    · obtain ⟨top, htop⟩ := List.exists_mem_of_ne_nil _ hne
      obtain ⟨e, he⟩ := hroute top htop
      exact List.ne_nil_of_mem ((hmem e.2).mpr ⟨harm, top, htop, e, he, rfl⟩)
    · obtain ⟨_, rule, hr, e, he, rfl⟩ := (hmem q).mp hq
      rw [← hall rule hr]
      exact kept?_link he

end Lookup

end NicAutoswitch.Kernel.Forwarding
