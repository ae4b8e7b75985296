import NicAutoswitch.Router.Rules

/-!
# What an accepted configuration promises (config/schema.rs)

The validation walks every list of rules on its own. It checks neither the interface of a
rule nor its name against another name, and its bound of the table ids is wider than that
of the route manager.
-/

namespace NicAutoswitch.Accepted
open HashMaps Schema Router

/-! ### What the validation checks -/

theorem seq_ok {x y : Except NicAutoSwitchError Unit} :
    (x >>= fun _ => y) = .ok () ↔ x = .ok () ∧ y = .ok () := by
  cases x with
  | ok u => exact (and_iff_right rfl).symm
  | error e => exact iff_of_false (fun h => by cases h) fun h => by cases h.1

theorem forAll_ok {α : Type} {check : α → Except NicAutoSwitchError Unit} {xs : List α} :
    forAll check xs = .ok () ↔ ∀ x ∈ xs, check x = .ok () := by
  induction xs with
  | nil => exact iff_of_true rfl fun x hx => by cases hx
  | cons x xs ih =>
    rw [forAll, List.forall_mem_cons, ← ih]
    cases check x with
    | ok u => exact (and_iff_right rfl).symm
    | error e => exact iff_of_false (fun h => by cases h) fun h => by cases h.1

theorem named_ok {kind name : String} {x : Except NicAutoSwitchError Unit} :
    named kind name x = .ok () ↔ x = .ok () := by
  cases x with
  | ok u => exact Iff.rfl
  | error e => exact iff_of_false (fun h => by cases h) fun h => by cases h

theorem WifiProfile.validate_ok {p : WifiProfile} :
    p.validate = .ok () ↔ p.interface ≠ "" ∧ ∀ rule ∈ p.rules, rule.validate = .ok () := by
  unfold WifiProfile.validate
  by_cases h : p.interface = ""
  · rw [if_pos h]
    exact iff_of_false (fun he => by cases he) fun hi => hi.1 h
  · rw [if_neg h, forAll_ok, and_iff_right h]

theorem GlobalConfig.tableIdStart_of_ok {g : GlobalConfig} (h : g.validate = .ok ()) :
    100 ≤ g.tableIdStart ∧ g.tableIdStart ≤ maxTableIdStart := by
  unfold GlobalConfig.validate at h
  split_ifs at h with h1 h2 h3
  omega

/- Apart from the rules, the validation is of the other parts of the configuration. -/
def OthersValid (c : Config) : Prop :=
  c.global.validate = .ok () ∧ c.interfaces.entries.isEmpty = false ∧
    (∀ e ∈ c.interfaces.entries, e.2.validate = .ok ()) ∧
      ∀ p ∈ values c.wifiProfiles, p.interface ≠ ""

theorem validate_ok {c : Config} :
    c.validate = .ok () ↔ OthersValid c ∧ ∀ rule ∈ c.allRules, rule.validate = .ok () := by
  have hprofiles : (∀ e ∈ c.wifiProfiles.entries, e.2.validate = .ok ()) ↔
      (∀ p ∈ values c.wifiProfiles, p.interface ≠ "") ∧
        ∀ p ∈ values c.wifiProfiles, ∀ rule ∈ p.rules, rule.validate = .ok () := by
    simp only [values, List.forall_mem_map, WifiProfile.validate_ok, ← forall_and]
  have hrules : (∀ rule ∈ c.allRules, rule.validate = .ok ()) ↔
      (∀ rule ∈ c.routing.defaultRules, rule.validate = .ok ()) ∧
        ∀ p ∈ values c.wifiProfiles, ∀ rule ∈ p.rules, rule.validate = .ok () := by
    unfold Config.allRules
    rw [List.forall_mem_append, List.forall_mem_flatMap]
  unfold Config.validate OthersValid
  rw [seq_ok, hrules]
  cases hempty : c.interfaces.entries.isEmpty with
  | true =>
    rw [if_pos rfl]
    exact iff_of_false (fun h => by cases h.2) fun h => by cases h.1.2.1
  | false =>
    rw [if_neg Bool.false_ne_true, seq_ok, seq_ok, forAll_ok, forAll_ok, RoutingConfig.validate,
      forAll_ok]
    simp only [named_ok, hprofiles, true_and]
    tauto

/-! ### Whether what is accepted can be used -/

/- The route manager takes the base of the tables, and the rule operator every rule. -/
structure Usable (c : Config) : Prop where
  manager : ∀ connection, ∃ rm,
    RouteManager.withConnection connection c.global.tableIdStart true = .ok rm
  rules : ∀ rule ∈ c.allRules, RuleOperator.validateRule rule = .ok ()

theorem withConnection_dry_ok (connection : Except String Handle) (base : ℕ) :
    (∃ rm, RouteManager.withConnection connection base true = .ok rm) ↔
      100 ≤ base ∧ base ≤ 199 := by
  unfold RouteManager.withConnection
  by_cases h : ipv4TableStart ≤ base ∧ base ≤ ipv4TableEnd
  · rw [dif_pos h, if_pos rfl]
    exact iff_of_true ⟨_, rfl⟩ h
  · rw [dif_neg h]
    apply iff_of_false
    · rintro ⟨rm, hrm⟩
      cases hrm
    · exact h

theorem validateRule_ok {rule : RouteRule} (h : rule.validate = .ok ()) :
    RuleOperator.validateRule rule = .ok () ↔ rule.routeVia.interface ≠ "" := by
  have hname : rule.name ≠ "" := by
    intro hn
    unfold RouteRule.validate at h
    rw [if_pos hn] at h
    cases h
  unfold RuleOperator.validateRule
  rw [seq_ok, and_iff_right h, if_neg hname]
  by_cases hi : rule.routeVia.interface = ""
  · rw [if_pos hi]
    exact iff_of_false (fun he => by cases he) (not_not.mpr hi)
  · rw [if_neg hi]
    exact iff_of_true rfl hi

/- Of the accepted configurations, those can be used whose tables start below 200 and whose
rules all name an interface. -/
theorem usable_iff {c : Config} (h : c.validate = .ok ()) :
    Usable c ↔ c.global.tableIdStart ≤ 199 ∧
      ∀ rule ∈ c.allRules, rule.routeVia.interface ≠ "" := by
  obtain ⟨hothers, hrules⟩ := validate_ok.mp h
  have hstart := (GlobalConfig.tableIdStart_of_ok hothers.1).1
  apply Iff.intro
  · intro hu
    have hbase := (withConnection_dry_ok (.ok {}) _).mp (hu.manager (.ok {}))
    exact ⟨hbase.2, fun rule hr => (validateRule_ok (hrules rule hr)).mp (hu.rules rule hr)⟩
  · rintro ⟨hbase, hvia⟩
    constructor
    · intro connection
      exact (withConnection_dry_ok connection _).mpr ⟨hstart, hbase⟩
    · intro rule hr
      exact (validateRule_ok (hrules rule hr)).mpr (hvia rule hr)

def nic0 : HashMap String InterfaceConfig := AList.insert "nic0" ⟨.lan, .name "nic0", 100⟩ ∅

def corpRule (via : String) : RouteRule :=
  ⟨"corp", .cidr (.v4 ⟨0x0a000000, 8, len8_v4⟩), ⟨via⟩, 100⟩

def corpConfig (start : ℕ) (via : String) : Config where
  global := { tableIdStart := start }
  interfaces := nic0
  routing := ⟨[corpRule via]⟩

theorem usable_iff_corp : Usable (corpConfig 100 "nic0") ↔
    (corpConfig 100 "nic0").global.tableIdStart ≤ 199 ∧
      ∀ rule ∈ (corpConfig 100 "nic0").allRules, rule.routeVia.interface ≠ "" :=
  usable_iff (by decide +kernel)

/- The first configuration makes the initialisation fail, the second has a rule that is
rejected when it is applied. -/
theorem accepted_unusable :
    (corpConfig 200 "nic0").validate = .ok () ∧ ¬ Usable (corpConfig 200 "nic0") ∧
    (corpConfig 100 "").validate = .ok () ∧ ¬ Usable (corpConfig 100 "") := by
  refine ⟨by decide +kernel, fun h => ?_, by decide +kernel, fun h => ?_⟩
  · obtain ⟨rm, hrm⟩ := h.manager (.ok {})
    cases hrm
  · have hr : RuleOperator.validateRule (corpRule "") = .ok () := h.rules _ (by decide +kernel)
    revert hr
    decide +kernel

/-! ### Whether the names of accepted rules are distinct -/

/- No list of rules repeats a name, and no two lists share one. -/
structure ListsDistinct (c : Config) : Prop where
  defaults : (c.routing.defaultRules.map RouteRule.name).Nodup
  profiles : ∀ p ∈ values c.wifiProfiles, (p.rules.map RouteRule.name).Nodup
  apart : ∀ p ∈ values c.wifiProfiles, ∀ rule ∈ c.routing.defaultRules, ∀ rule' ∈ p.rules,
    rule.name ≠ rule'.name
  profilesApart : (values c.wifiProfiles).Pairwise fun p p' =>
    ∀ rule ∈ p.rules, ∀ rule' ∈ p'.rules, rule.name ≠ rule'.name

theorem distinctNames_iff (c : Config) : c.DistinctNames ↔ ListsDistinct c := by
  have hall : c.allRules.map RouteRule.name = c.routing.defaultRules.map RouteRule.name ++
      (values c.wifiProfiles).flatMap fun p => p.rules.map RouteRule.name := by
    rw [Config.allRules, List.map_append, List.map_flatMap]
  have hapart : ∀ p p' : WifiProfile,
      Function.onFun List.Disjoint (fun p => p.rules.map RouteRule.name) p p' ↔
        ∀ rule ∈ p.rules, ∀ rule' ∈ p'.rules, rule.name ≠ rule'.name := by
    intro p p'
    show List.Disjoint _ _ ↔ _
    rw [List.disjoint_iff_ne]
    simp only [List.forall_mem_map]
  unfold Config.DistinctNames
  rw [hall, List.nodup_append, List.nodup_flatMap, List.Pairwise.iff hapart]
  simp only [List.forall_mem_map, List.forall_mem_flatMap]
  apply Iff.intro
  · rintro ⟨hdefaults, ⟨hprofiles, hpairs⟩, hsplit⟩
    exact ⟨hdefaults, hprofiles, fun p hp rule hr => hsplit rule hr p hp, hpairs⟩
  · intro h
    exact ⟨h.defaults, ⟨h.profiles, h.profilesApart⟩, fun rule hr p hp => h.apart p hp rule hr⟩

/- The same configuration with other names for its rules. -/
def renameRule (f : RouteRule → String) (rule : RouteRule) : RouteRule :=
  { rule with name := f rule }

def rename (f : RouteRule → String) (c : Config) : Config :=
  { c with
    wifiProfiles := mapValues (fun p => { p with rules := p.rules.map (renameRule f) })
      c.wifiProfiles
    routing := ⟨c.routing.defaultRules.map (renameRule f)⟩ }

theorem allRules_rename (f : RouteRule → String) (c : Config) :
    (rename f c).allRules = c.allRules.map (renameRule f) := by
  simp only [Config.allRules, rename, values_mapValues, List.map_append, List.map_flatMap,
    List.flatMap_map]

/- The validation never looks at two names: any names that are not empty will do. -/
theorem validate_rename {c : Config} (h : c.validate = .ok ()) {f : RouteRule → String}
    (hf : ∀ rule, f rule ≠ "") : (rename f c).validate = .ok () := by
  obtain ⟨⟨hglobal, hsome, hinterfaces, hprofiles⟩, hrules⟩ := validate_ok.mp h
  refine validate_ok.mpr ⟨⟨hglobal, hsome, hinterfaces, ?_⟩, ?_⟩
  · intro p hp
    unfold rename at hp
    rw [values_mapValues] at hp
    obtain ⟨q, hq, rfl⟩ := List.mem_map.mp hp
    exact hprofiles q hq
  · rw [allRules_rename, List.forall_mem_map]
    intro rule hr
    have hr' := hrules rule hr
    have hname : (renameRule f rule).name ≠ "" := hf rule
    unfold RouteRule.validate at hr' ⊢
    rw [if_neg hname]
    split_ifs at hr'
    exact hr'

/- An accepted configuration has distinct names exactly if no list of rules repeats a name and
no two lists share one. The validation sees to it only where there is at most one rule: it
accepts every other configuration under some names that are not distinct. -/
theorem accepted_names_iff {c : Config} (h : c.validate = .ok ()) :
    (c.DistinctNames ↔ ListsDistinct c) ∧
      ((∀ f, (rename f c).validate = .ok () → (rename f c).DistinctNames) ↔
        c.allRules.length ≤ 1) := by
  refine ⟨distinctNames_iff c, ?_, ?_⟩
  · intro hall
    have hsame := hall (fun _ => "rule") (validate_rename h fun _ => by decide)
    unfold Config.DistinctNames at hsame
    rw [allRules_rename, List.map_map] at hsame
    have hconst : c.allRules.map (RouteRule.name ∘ renameRule fun _ => "rule") =
        List.replicate c.allRules.length "rule" := List.map_const'
    rw [hconst, List.nodup_replicate] at hsame
    exact hsame
  · intro hlen f _
    unfold Config.DistinctNames
    rw [allRules_rename]
    cases hl : c.allRules with
    | nil => exact List.nodup_nil
    | cons rule rest =>
      rw [hl] at hlen
      cases rest with
      | nil => exact List.nodup_singleton _
      | cons rule' rest =>
        simp only [List.length_cons] at hlen
        omega

theorem accepted_names_iff_corp :
    ((corpConfig 100 "nic0").DistinctNames ↔ ListsDistinct (corpConfig 100 "nic0")) ∧
      ((∀ f, (rename f (corpConfig 100 "nic0")).validate = .ok () →
          (rename f (corpConfig 100 "nic0")).DistinctNames) ↔
        (corpConfig 100 "nic0").allRules.length ≤ 1) :=
  accepted_names_iff (by decide +kernel)

/- The file that is to be refused for its names. -/
def duplicateRuleName : Config where
  interfaces := nic0
  routing := ⟨[
    ⟨"duplicate-rule", .cidr (.v4 ⟨0x0a000000, 8, len8_v4⟩), ⟨"nic0"⟩, 100⟩,
    ⟨"duplicate-rule", .cidr (.v4 ⟨0xac100000, 12, len12_v4⟩), ⟨"nic0"⟩, 110⟩]⟩

theorem duplicateRuleName_accepted :
    duplicateRuleName.validate = .ok () ∧ ¬ duplicateRuleName.DistinctNames := by
  refine ⟨by decide +kernel, ?_⟩
  unfold Config.DistinctNames
  decide +kernel

end NicAutoswitch.Accepted
