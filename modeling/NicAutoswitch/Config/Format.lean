import NicAutoswitch.Config.Accepted
import NicAutoswitch.Config.Loader
import NicAutoswitch.Lib.Documents

/-!
# The configuration file (config/schema.rs, as its derives read and write it)

The document is what the TOML parser makes of the text: a table of tables. An integer of TOML
is an `i64`. A struct may be written as a list of its fields, but not a variant of an untagged
enum. How addresses and networks are written as texts is a parameter.
-/

namespace NicAutoswitch.Schema
open Documents

/-- `FromStr` of the two types. -/
structure Texts where
  network : String → Option IpNetwork
  address : String → Option IpAddr

/-- What a text is read as can be written, and is read as the same. -/
structure Texts.Stable (texts : Texts) : Prop where
  network : ∀ s n, texts.network s = some n → texts.network n.display = some n
  address : ∀ s a, texts.address s = some a → texts.address a.display = some a

/-! ### Reading -/

/- `rename_all = "lowercase"` -/
def InterfaceType.tag : InterfaceType → String
  | .lan => "lan"
  | .wlan => "wlan"
  | .vpn => "vpn"

def InterfaceType.ofTag : String → Option InterfaceType
  | "lan" => some .lan
  | "wlan" => some .wlan
  | "vpn" => some .vpn
  | _ => none

def MatchBy.decode : Value → Option MatchBy :=
  untagged [variant "name" string .name, variant "pattern" string .pattern,
    variant "mac" string .mac]

def InterfaceConfig.decode : Value → Option InterfaceConfig :=
  record ["interface_type", "match_by", "priority"] fun members => do
    let interfaceType ← required "interface_type" (unit InterfaceType.ofTag) members
    let matchBy ← required "match_by" MatchBy.decode members
    let priority ← defaulted "priority" (unsigned 32) 100 members
    return { interfaceType, matchBy, priority }

/- Of a `u64`, a document holds what an `i64` can. -/
def GlobalConfig.decode : Value → Option GlobalConfig :=
  record ["monitor_interval", "log_level", "dry_run", "table_id_start"] fun members => do
    let monitorInterval ← defaulted "monitor_interval" (unsigned 63) 5 members
    let logLevel ← defaulted "log_level" string "info" members
    let dryRun ← defaulted "dry_run" boolean false members
    let tableIdStart ← defaulted "table_id_start" (unsigned 32) 100 members
    return { monitorInterval, logLevel, dryRun, tableIdStart }

def RouteVia.decode : Value → Option RouteVia :=
  record ["interface"] fun members => do
    let interface ← required "interface" string members
    return { interface }

section Rules

variable (texts : Texts)

def MatchOn.decode : Value → Option MatchOn :=
  untagged [variant "cidr" (parsed texts.network) .cidr, variant "ip" (parsed texts.address) .ip,
    variant "domain" string .domain, variant "domain_pattern" string .domainPattern]

def RouteRule.decode : Value → Option RouteRule :=
  record ["name", "match_on", "route_via", "priority"] fun members => do
    let name ← required "name" string members
    let matchOn ← required "match_on" (MatchOn.decode texts) members
    let routeVia ← required "route_via" RouteVia.decode members
    let priority ← required "priority" (unsigned 32) members
    return { name, matchOn, routeVia, priority }

def WifiProfile.decode : Value → Option WifiProfile :=
  record ["interface", "rules"] fun members => do
    let interface ← required "interface" string members
    let rules ← defaulted "rules" (list (RouteRule.decode texts)) [] members
    return { interface, rules }

def RoutingConfig.decode : Value → Option RoutingConfig :=
  record ["default_rules"] fun members => do
    let defaultRules ← defaulted "default_rules" (list (RouteRule.decode texts)) [] members
    return { defaultRules }

def Config.decode : Value → Option Config :=
  record ["global", "interfaces", "wifi_profiles", "routing"] fun members => do
    let global ← defaulted "global" GlobalConfig.decode {} members
    let interfaces ← defaulted "interfaces" (map InterfaceConfig.decode) ∅ members
    let wifiProfiles ← defaulted "wifi_profiles" (map (WifiProfile.decode texts)) ∅ members
    let routing ← defaulted "routing" (RoutingConfig.decode texts) {} members
    return { global, interfaces, wifiProfiles, routing }

end Rules

/-! ### Writing -/

def MatchBy.encode : MatchBy → Value
  | .name text => .table [("name", .string text)]
  | .pattern text => .table [("pattern", .string text)]
  | .mac text => .table [("mac", .string text)]

def InterfaceConfig.encode (i : InterfaceConfig) : Value :=
  .table [("interface_type", .string i.interfaceType.tag), ("match_by", i.matchBy.encode),
    ("priority", .integer i.priority)]

/- The interval is refused where it is no `i64`. -/
def GlobalConfig.encode (g : GlobalConfig) : Option Value :=
  if g.monitorInterval < 2 ^ 63 then
    some (.table [("monitor_interval", .integer g.monitorInterval),
      ("log_level", .string g.logLevel), ("dry_run", .boolean g.dryRun),
      ("table_id_start", .integer g.tableIdStart)])
  else none

def MatchOn.encode : MatchOn → Value
  | .cidr net => .table [("cidr", .string net.display)]
  | .ip addr => .table [("ip", .string addr.display)]
  | .domain text => .table [("domain", .string text)]
  | .domainPattern text => .table [("domain_pattern", .string text)]

def RouteVia.encode (v : RouteVia) : Value := .table [("interface", .string v.interface)]

def RouteRule.encode (r : RouteRule) : Value :=
  .table [("name", .string r.name), ("match_on", r.matchOn.encode),
    ("route_via", r.routeVia.encode), ("priority", .integer r.priority)]

def WifiProfile.encode (p : WifiProfile) : Value :=
  .table [("interface", .string p.interface), ("rules", .array (p.rules.map RouteRule.encode))]

def RoutingConfig.encode (r : RoutingConfig) : Value :=
  .table [("default_rules", .array (r.defaultRules.map RouteRule.encode))]

def Config.encode (c : Config) : Option Value := do
  let global ← c.global.encode
  return .table [("global", global),
    ("interfaces", .table (c.interfaces.entries.map fun e => (e.1, e.2.encode))),
    ("wifi_profiles", .table (c.wifiProfiles.entries.map fun e => (e.1, e.2.encode))),
    ("routing", c.routing.encode)]

/-! ### What can be written -/

def MatchOn.Readable (texts : Texts) : MatchOn → Prop
  | .cidr net => texts.network net.display = some net
  | .ip addr => texts.address addr.display = some addr
  | .domain _ | .domainPattern _ => True

structure RouteRule.Fits (texts : Texts) (r : RouteRule) : Prop where
  matchOn : r.matchOn.Readable texts
  priority : r.priority < 2 ^ 32

/-- The numbers are those of their types, and the addresses can be read back. -/
structure Config.Fits (texts : Texts) (c : Config) : Prop where
  tableIdStart : c.global.tableIdStart < 2 ^ 32
  interfaces : ∀ e ∈ c.interfaces.entries, e.2.priority < 2 ^ 32
  wifiProfiles : ∀ e ∈ c.wifiProfiles.entries, ∀ r ∈ e.2.rules, r.Fits texts
  routing : ∀ r ∈ c.routing.defaultRules, r.Fits texts

/-- The same configuration; a map keeps no order of its own. -/
structure Config.Same (c c' : Config) : Prop where
  global : c'.global = c.global
  interfaces : c.interfaces.entries.Perm c'.interfaces.entries
  wifiProfiles : c.wifiProfiles.entries.Perm c'.wifiProfiles.entries
  routing : c'.routing = c.routing

variable {texts : Texts}

/-! ### What has been written is read as it was -/

theorem InterfaceType.decode_tag (t : InterfaceType) :
    unit InterfaceType.ofTag (.string t.tag) = some t := by
  cases t <;> rfl

theorem MatchBy.decode_encode (m : MatchBy) : MatchBy.decode m.encode = some m := by
  cases m <;> rfl

theorem InterfaceConfig.decode_encode {i : InterfaceConfig} (h : i.priority < 2 ^ 32) :
    InterfaceConfig.decode i.encode = some i := by
  have hpriority := unsigned_spec.mpr ⟨rfl, h⟩
  show (unit InterfaceType.ofTag (.string i.interfaceType.tag)).bind _ = _
  rw [InterfaceType.decode_tag]
  show (MatchBy.decode i.matchBy.encode).bind _ = _
  rw [MatchBy.decode_encode]
  show (unsigned 32 (.integer i.priority)).bind _ = _
  rw [hpriority]
  rfl

theorem GlobalConfig.decode_encode {g : GlobalConfig} {v : Value} (h : g.tableIdStart < 2 ^ 32)
    (hv : g.encode = some v) : GlobalConfig.decode v = some g := by
  unfold GlobalConfig.encode at hv
  split_ifs at hv with hinterval
  cases hv
  have hmonitor := unsigned_spec.mpr ⟨rfl, hinterval⟩
  have hstart := unsigned_spec.mpr ⟨rfl, h⟩
  show (unsigned 63 (.integer g.monitorInterval)).bind _ = _
  rw [hmonitor]
  show (unsigned 32 (.integer g.tableIdStart)).bind _ = _
  rw [hstart]
  rfl

theorem MatchOn.decode_encode {m : MatchOn} (h : m.Readable texts) :
    MatchOn.decode texts m.encode = some m := by
  cases m with
  | cidr net =>
    have hread : variant "cidr" (parsed texts.network) MatchOn.cidr (encode (.cidr net)) =
        some (.cidr net) := congrArg (Option.map MatchOn.cidr) h
    unfold MatchOn.decode untagged
    rw [List.findSome?_cons, hread]
  | ip addr =>
    have hother : variant "cidr" (parsed texts.network) MatchOn.cidr (encode (.ip addr)) = none :=
      rfl
    have hread : variant "ip" (parsed texts.address) MatchOn.ip (encode (.ip addr)) =
        some (.ip addr) := congrArg (Option.map MatchOn.ip) h
    unfold MatchOn.decode untagged
    rw [List.findSome?_cons, hother, List.findSome?_cons, hread]
  | domain text => rfl
  | domainPattern text => rfl

theorem RouteRule.decode_encode {r : RouteRule} (h : r.Fits texts) :
    RouteRule.decode texts r.encode = some r := by
  have hpriority := unsigned_spec.mpr ⟨rfl, h.priority⟩
  show (MatchOn.decode texts r.matchOn.encode).bind _ = _
  rw [MatchOn.decode_encode h.matchOn]
  show (unsigned 32 (.integer r.priority)).bind _ = _
  rw [hpriority]
  rfl

theorem WifiProfile.decode_encode {p : WifiProfile} (h : ∀ r ∈ p.rules, r.Fits texts) :
    WifiProfile.decode texts p.encode = some p := by
  have hrules := list_written fun r hr => RouteRule.decode_encode (h r hr)
  show (list (RouteRule.decode texts) (.array (p.rules.map RouteRule.encode))).bind _ = _
  rw [hrules]
  rfl

theorem RoutingConfig.decode_encode {r : RoutingConfig}
    (h : ∀ rule ∈ r.defaultRules, rule.Fits texts) : RoutingConfig.decode texts r.encode = some r := by
  have hrules := list_written fun rule hr => RouteRule.decode_encode (h rule hr)
  show (list (RouteRule.decode texts) (.array (r.defaultRules.map RouteRule.encode))).bind _ = _
  rw [hrules]
  rfl

theorem Config.decode_encode {c : Config} {v : Value} (h : c.Fits texts) (hv : c.encode = some v) :
    Config.decode texts v = some c := by
  obtain ⟨global, hglobal, hrest⟩ := Option.bind_eq_some_iff.mp hv
  cases hrest
  have hinterfaces := map_written fun e he => InterfaceConfig.decode_encode (h.interfaces e he)
  have hprofiles := map_written fun e he => WifiProfile.decode_encode (h.wifiProfiles e he)
  show (GlobalConfig.decode global).bind _ = _
  rw [GlobalConfig.decode_encode h.tableIdStart hglobal]
  show (map InterfaceConfig.decode
    (.table (c.interfaces.entries.map fun e => (e.1, e.2.encode)))).bind _ = _
  rw [hinterfaces]
  show (map (WifiProfile.decode texts)
    (.table (c.wifiProfiles.entries.map fun e => (e.1, e.2.encode)))).bind _ = _
  rw [hprofiles]
  show (RoutingConfig.decode texts c.routing.encode).bind _ = _
  rw [RoutingConfig.decode_encode h.routing]
  rfl

/-! ### What has been read can be written -/

theorem MatchOn.readable_of_decode (hs : texts.Stable) {v : Value} {m : MatchOn}
    (h : MatchOn.decode texts v = some m) : m.Readable texts := by
  obtain ⟨decode, hm, hv⟩ := untagged_spec h
  simp only [List.mem_cons, List.not_mem_nil, or_false] at hm
  rcases hm with rfl | rfl | rfl | rfl <;> obtain ⟨v', b, hb, rfl⟩ := variant_spec hv
  · obtain ⟨s, hread⟩ := parsed_spec hb
    exact hs.network s b hread
  · obtain ⟨s, hread⟩ := parsed_spec hb
    exact hs.address s b hread
  · trivial
  · trivial

/- What is read of a record, member by member. -/
theorem RouteRule.fits_of_decode (hs : texts.Stable) {v : Value} {r : RouteRule}
    (h : RouteRule.decode texts v = some r) : r.Fits texts := by
  obtain ⟨members, hr⟩ := record_spec h
  simp only [Option.bind_eq_bind, Option.bind_eq_some_iff, Option.pure_def, Option.some_inj] at hr
  obtain ⟨name, _, matchOn, hm, via, _, priority, hp, rfl⟩ := hr
  obtain ⟨_, hmatch⟩ := required_spec hm
  obtain ⟨_, hnumber⟩ := required_spec hp
  exact ⟨MatchOn.readable_of_decode hs hmatch, (unsigned_spec.mp hnumber).2⟩

/- A list of rules that may be left out. -/
theorem rules_fit (hs : texts.Stable) {key : String} {members : List (String × Value)}
    {rules : List RouteRule}
    (h : defaulted key (list (RouteRule.decode texts)) [] members = some rules) :
    ∀ r ∈ rules, r.Fits texts := by
  intro r hr
  rcases defaulted_spec h with rfl | ⟨_, hlist⟩
  · exact absurd hr List.not_mem_nil
  · obtain ⟨_, hrule⟩ := list_spec hlist r hr
    exact RouteRule.fits_of_decode hs hrule

/- A number that may be left out. -/
theorem number_lt {key : String} {bits default n : ℕ} {members : List (String × Value)}
    (h : defaulted key (unsigned bits) default members = some n) (h0 : default < 2 ^ bits) :
    n < 2 ^ bits := by
  rcases defaulted_spec h with rfl | ⟨_, hn⟩
  · exact h0
  · exact (unsigned_spec.mp hn).2

theorem InterfaceConfig.priority_of_decode {v : Value} {i : InterfaceConfig}
    (h : InterfaceConfig.decode v = some i) : i.priority < 2 ^ 32 := by
  obtain ⟨members, hi⟩ := record_spec h
  simp only [Option.bind_eq_bind, Option.bind_eq_some_iff, Option.pure_def, Option.some_inj] at hi
  obtain ⟨_, _, _, _, priority, hp, rfl⟩ := hi
  exact number_lt hp (by decide)

theorem WifiProfile.fits_of_decode (hs : texts.Stable) {v : Value} {p : WifiProfile}
    (h : WifiProfile.decode texts v = some p) : ∀ r ∈ p.rules, r.Fits texts := by
  obtain ⟨members, hp⟩ := record_spec h
  simp only [Option.bind_eq_bind, Option.bind_eq_some_iff, Option.pure_def, Option.some_inj] at hp
  obtain ⟨_, _, rules, hr, rfl⟩ := hp
  exact rules_fit hs hr

theorem RoutingConfig.fits_of_decode (hs : texts.Stable) {v : Value} {c : RoutingConfig}
    (h : RoutingConfig.decode texts v = some c) : ∀ r ∈ c.defaultRules, r.Fits texts := by
  obtain ⟨members, hc⟩ := record_spec h
  simp only [Option.bind_eq_bind, Option.bind_eq_some_iff, Option.pure_def, Option.some_inj] at hc
  obtain ⟨rules, hr, rfl⟩ := hc
  exact rules_fit hs hr

theorem GlobalConfig.bounds_of_decode {v : Value} {g : GlobalConfig}
    (h : GlobalConfig.decode v = some g) : g.monitorInterval < 2 ^ 63 ∧ g.tableIdStart < 2 ^ 32 := by
  obtain ⟨members, hg⟩ := record_spec h
  simp only [Option.bind_eq_bind, Option.bind_eq_some_iff, Option.pure_def, Option.some_inj] at hg
  obtain ⟨monitorInterval, hm, _, _, _, _, tableIdStart, ht, rfl⟩ := hg
  exact ⟨number_lt hm (by decide), number_lt ht (by decide)⟩

/- What loads fits, and can be written. -/
theorem Config.fits_of_decode (hs : texts.Stable) {v : Value} {c : Config}
    (h : Config.decode texts v = some c) : c.Fits texts ∧ ∃ w, c.encode = some w := by
  obtain ⟨members, hc⟩ := record_spec h
  simp only [Option.bind_eq_bind, Option.bind_eq_some_iff, Option.pure_def, Option.some_inj] at hc
  obtain ⟨global, hg, interfaces, hi, profiles, hp, routing, hr, rfl⟩ := hc
  have hglobal : global.monitorInterval < 2 ^ 63 ∧ global.tableIdStart < 2 ^ 32 := by
    rcases defaulted_spec hg with rfl | ⟨_, hread⟩
    · decide
    · exact GlobalConfig.bounds_of_decode hread
  refine ⟨⟨hglobal.2, fun e he => ?_, fun e he => ?_, fun r hrule => ?_⟩, ?_⟩
  · rcases defaulted_spec hi with rfl | ⟨_, hread⟩
    · exact absurd he List.not_mem_nil
    · obtain ⟨_, hinterface⟩ := map_spec hread e he
      exact InterfaceConfig.priority_of_decode hinterface
  · rcases defaulted_spec hp with rfl | ⟨_, hread⟩
    · exact absurd he List.not_mem_nil
    · obtain ⟨_, hprofile⟩ := map_spec hread e he
      exact WifiProfile.fits_of_decode hs hprofile
  · rcases defaulted_spec hr with rfl | ⟨_, hread⟩
    · exact absurd hrule List.not_mem_nil
    · exact RoutingConfig.fits_of_decode hs hread r hrule
  · unfold Config.encode GlobalConfig.encode
    rw [if_pos hglobal.1]
    exact ⟨_, rfl⟩

/-! ### The order in the document does not matter -/

theorem steady_matchBy : Steady MatchBy.decode := by
  refine steady_untagged fun decode hm => ?_
  simp only [List.mem_cons, List.not_mem_nil, or_false] at hm
  rcases hm with rfl | rfl | rfl <;> exact steady_variant _ steady_string _

theorem steady_matchOn : Steady (MatchOn.decode texts) := by
  refine steady_untagged fun decode hm => ?_
  simp only [List.mem_cons, List.not_mem_nil, or_false] at hm
  rcases hm with rfl | rfl | rfl | rfl
  · exact steady_variant _ (steady_parsed _) _
  · exact steady_variant _ (steady_parsed _) _
  · exact steady_variant _ steady_string _
  · exact steady_variant _ steady_string _

theorem steady_interfaceConfig : Steady InterfaceConfig.decode :=
  steady_record fun _ _ h => by
    simp only [required, defaulted, member_steady h _ _ (steady_unit _),
      member_steady h _ _ steady_matchBy, member_steady h _ _ (steady_unsigned 32)]

theorem steady_globalConfig : Steady GlobalConfig.decode :=
  steady_record fun _ _ h => by
    simp only [defaulted, member_steady h _ _ (steady_unsigned _),
      member_steady h _ _ steady_string, member_steady h _ _ steady_boolean]

theorem steady_routeVia : Steady RouteVia.decode :=
  steady_record fun _ _ h => by simp only [required, member_steady h _ _ steady_string]

theorem steady_routeRule : Steady (RouteRule.decode texts) :=
  steady_record fun _ _ h => by
    simp only [required, member_steady h _ _ steady_string, member_steady h _ _ steady_matchOn,
      member_steady h _ _ steady_routeVia, member_steady h _ _ (steady_unsigned 32)]

theorem steady_wifiProfile : Steady (WifiProfile.decode texts) :=
  steady_record fun _ _ h => by
    simp only [required, defaulted, member_steady h _ _ steady_string,
      member_steady h _ _ (steady_list steady_routeRule)]

theorem steady_routingConfig : Steady (RoutingConfig.decode texts) :=
  steady_record fun _ _ h => by
    simp only [defaulted, member_steady h _ _ (steady_list steady_routeRule)]

/- The same configuration is read, whatever the order of the members. -/
theorem Config.decode_reordered {v v' : Value} (h : Reordered v v') :
    Option.Rel Config.Same (Config.decode texts v) (Config.decode texts v') := by
  refine record_rel (fun _ => ⟨rfl, .rfl, .rfl, rfl⟩) (fun members members' h => ?_) h
  have hinterfaces := member_rel h "interfaces" (some ∅) (.some .rfl) fun _ _ =>
    map_reordered steady_interfaceConfig
  have hprofiles := member_rel h "wifi_profiles" (some ∅) (.some .rfl) fun _ _ =>
    map_reordered (@steady_wifiProfile texts)
  simp only [defaulted, member_steady h _ _ steady_globalConfig,
    member_steady h _ _ steady_routingConfig]
  cases member "global" (some {}) GlobalConfig.decode members with
  | none => exact .none
  | some global =>
    generalize member "interfaces" _ _ members = x at hinterfaces ⊢
    generalize member "interfaces" _ _ members' = x' at hinterfaces ⊢
    cases hinterfaces with
    | none => exact .none
    | some hi =>
      generalize member "wifi_profiles" _ _ members = y at hprofiles ⊢
      generalize member "wifi_profiles" _ _ members' = y' at hprofiles ⊢
      cases hprofiles with
      | none => exact .none
      | some hp =>
        cases member "routing" (some {}) (RoutingConfig.decode texts) members with
        | none => exact .none
        | some routing => exact .some ⟨rfl, hi, hp, rfl⟩

/-! ### Files -/

theorem Config.Same.mem_values {c c' : Config} (h : c.Same c') (p : WifiProfile) :
    p ∈ HashMaps.values c'.wifiProfiles ↔ p ∈ HashMaps.values c.wifiProfiles :=
  (h.wifiProfiles.map fun e => e.2).mem_iff.symm

theorem Config.Same.validate {c c' : Config} (h : c.Same c') :
    c'.validate = .ok () ↔ c.validate = .ok () := by
  have hrules : ∀ rule, rule ∈ c'.allRules ↔ rule ∈ c.allRules := by
    intro rule
    simp only [Config.allRules, List.mem_append, List.mem_flatMap, h.mem_values, h.routing]
  have hempty : c'.interfaces.entries.isEmpty = c.interfaces.entries.isEmpty := by
    rw [Bool.eq_iff_iff, List.isEmpty_iff_length_eq_zero, List.isEmpty_iff_length_eq_zero,
      h.interfaces.length_eq]
  rw [Accepted.validate_ok, Accepted.validate_ok]
  simp only [Accepted.OthersValid, h.global, hempty, hrules, h.mem_values,
    h.interfaces.mem_iff]

/-- The TOML parser, and what is said of a document that is no configuration. -/
structure TextFormat where
  parse : String → Except String Value
  refusal : Value → String

/- `toml::from_str` -/
def TextFormat.toml (format : TextFormat) (texts : Texts) : Toml := fun text =>
  match format.parse text with
  | .error e => .error e
  | .ok v =>
    match Config.decode texts v with
    | some config => .ok config
    | none => .error (format.refusal v)

theorem TextFormat.toml_ok {format : TextFormat} {text : String} {c : Config} :
    format.toml texts text = .ok c ↔
      ∃ v, format.parse text = .ok v ∧ Config.decode texts v = some c := by
  unfold TextFormat.toml
  cases format.parse text with
  | error e =>
    refine iff_of_false (fun h => by cases h) ?_
    rintro ⟨_, h, _⟩
    cases h
  | ok v =>
    dsimp only
    cases hc : Config.decode texts v with
    | none =>
      refine iff_of_false (fun h => by cases h) ?_
      rintro ⟨_, hv, h⟩
      cases hv
      rw [hc] at h
      cases h
    | some c' =>
      apply Iff.intro
      · intro h
        cases h
        exact ⟨v, rfl, hc⟩
      · rintro ⟨_, hv, h⟩
        cases hv
        rw [hc] at h
        rw [Option.some.inj h]

/- A configuration with one interface and one rule, as it is written. -/
def corpDocument : Value :=
  .table
    [("global", .table [("monitor_interval", .integer 5), ("log_level", .string "info"),
      ("dry_run", .boolean false), ("table_id_start", .integer 100)]),
    ("interfaces", .table [("nic0", .table [("interface_type", .string "lan"),
      ("match_by", .table [("name", .string "nic0")]), ("priority", .integer 100)])]),
    ("wifi_profiles", .table []),
    ("routing", .table [("default_rules", .array [.table [("name", .string "corp"),
      ("match_on", .table [("cidr", .string "10.0.0.0/8")]),
      ("route_via", .table [("interface", .string "nic0")]), ("priority", .integer 100)]])])]

/- The same with the interfaces first, and `dry_run` before the rest of its section. -/
def corpText : String :=
  "[interfaces.nic0]\ninterface_type = \"lan\"\nmatch_by = \x7b name = \"nic0\" \x7d\npriority = 100\n\n" ++
  "[global]\ndry_run = false\nmonitor_interval = 5\nlog_level = \"info\"\ntable_id_start = 100\n\n" ++
  "[wifi_profiles]\n\n[[routing.default_rules]]\nname = \"corp\"\n" ++
  "match_on = \x7b cidr = \"10.0.0.0/8\" \x7d\nroute_via = \x7b interface = \"nic0\" \x7d\npriority = 100\n"

def corpShuffled : Value :=
  .table
    [("interfaces", .table [("nic0", .table [("interface_type", .string "lan"),
      ("match_by", .table [("name", .string "nic0")]), ("priority", .integer 100)])]),
    ("global", .table [("dry_run", .boolean false), ("monitor_interval", .integer 5),
      ("log_level", .string "info"), ("table_id_start", .integer 100)]),
    ("wifi_profiles", .table []),
    ("routing", .table [("default_rules", .array [.table [("name", .string "corp"),
      ("match_on", .table [("cidr", .string "10.0.0.0/8")]),
      ("route_via", .table [("interface", .string "nic0")]), ("priority", .integer 100)]])])]

/- The same, as short as it can be written: defaults left out, structs as lists, and the type of
the interface as a table. -/
def corpShortText : String :=
  "interfaces = \x7b nic0 = [\x7b lan = \x7b\x7d \x7d, \x7b name = \"nic0\" \x7d] \x7d\n" ++
  "routing = [[[\"corp\", \x7b cidr = \"10.0.0.0/8\" \x7d, [\"nic0\"], 100]]]\n"

def corpShort : Value :=
  .table
    [("interfaces", .table [("nic0",
      .array [.table [("lan", .table [])], .table [("name", .string "nic0")]])]),
    ("routing", .array [.array [.array [.string "corp", .table [("cidr", .string "10.0.0.0/8")],
      .array [.string "nic0"], .integer 100]]])]

def corpFormat : TextFormat where
  parse text :=
    if text = corpText then .ok corpShuffled
    else if text = corpShortText then .ok corpShort
    else .error "expected another file"
  refusal _ := "no configuration"

def corpTexts : Texts where
  network s := if s = "10.0.0.0/8" then some (.v4 ⟨0x0a000000, 8, len8_v4⟩) else none
  address _ := none

theorem corpTexts_stable : corpTexts.Stable := by
  refine ⟨fun s n h => ?_, fun s a h => by cases h⟩
  simp only [corpTexts] at h
  split_ifs at h
  cases h
  decide

theorem corp_fits : (Accepted.corpConfig 100 "nic0").Fits corpTexts := by
  refine ⟨by decide, by decide, fun e he => absurd he List.not_mem_nil, fun r hr => ?_⟩
  rw [List.mem_singleton.mp hr]
  have hread : corpTexts.network (IpNetwork.v4 ⟨0x0a000000, 8, len8_v4⟩).display =
      some (.v4 ⟨0x0a000000, 8, len8_v4⟩) := by decide
  exact ⟨hread, by decide⟩

theorem corp_encode : (Accepted.corpConfig 100 "nic0").encode = some corpDocument := rfl

theorem corp_parse : corpFormat.parse corpText = .ok corpShuffled := by
  unfold corpFormat
  dsimp only
  rw [if_pos rfl]

theorem corp_parse_short : corpFormat.parse corpShortText = .ok corpShort := by
  have hother : corpShortText ≠ corpText := by decide
  unfold corpFormat
  dsimp only
  rw [if_neg hother, if_pos rfl]

theorem corp_shuffled : Reordered corpDocument corpShuffled := by
  have hglobal : Reordered
      (.table [("monitor_interval", .integer 5), ("log_level", .string "info"),
        ("dry_run", .boolean false), ("table_id_start", .integer 100)])
      (.table [("dry_run", .boolean false), ("monitor_interval", .integer 5),
        ("log_level", .string "info"), ("table_id_start", .integer 100)]) := by
    refine .table rfl (List.forall₂_same.mpr fun v _ => .same v) ?_
    exact (List.Perm.cons _ (.swap _ _ _)).trans (.swap _ _ _)
  refine .table ?_ ?_ (.swap _ _ _)
  · rfl
  · exact .cons hglobal (.cons (.same _) (.cons (.same _) (.cons (.same _) .nil)))

/- A configuration that has been written to a file, with the members in whatever order, loads as
the same one exactly if it is valid. -/
theorem written_loads_iff (format : TextFormat) {c : Config} (hc : c.Fits texts) {v v' : Value}
    (hv : c.encode = some v) (hr : Reordered v v') {text : String}
    (ht : format.parse text = .ok v') (path : String) :
    (∃ c', ConfigLoader.loadFromPath (format.toml texts) path (.text text) = .ok c' ∧ c.Same c') ↔
      c.validate = .ok () := by
  have hrel := @Config.decode_reordered texts _ _ hr
  rw [Config.decode_encode hc hv] at hrel
  generalize hc' : Config.decode texts v' = x at hrel
  cases hrel with
  | @some _ c' hsame =>
    have htoml : format.toml texts text = .ok c' := TextFormat.toml_ok.mpr ⟨v', ht, hc'⟩
    apply Iff.intro
    · rintro ⟨c'', hload, hsame'⟩
      obtain ⟨_, _, _, hvalid⟩ := ConfigLoader.loadFromPath_ok _ hload
      exact hsame'.validate.mp hvalid
    · intro hvalid
      exact ⟨c', ConfigLoader.loadFromPath_text _ htoml (hsame.validate.mpr hvalid), hsame⟩

theorem written_loads_iff_corp :
    (∃ c', ConfigLoader.loadFromPath (corpFormat.toml corpTexts) "config.toml" (.text corpText) =
      .ok c' ∧ (Accepted.corpConfig 100 "nic0").Same c') ↔
        (Accepted.corpConfig 100 "nic0").validate = .ok () :=
  written_loads_iff corpFormat corp_fits corp_encode corp_shuffled corp_parse "config.toml"

/- Whatever has been loaded can be written, and loads again as the same configuration. -/
theorem loaded_loads_again (format : TextFormat) (hs : texts.Stable) {path text : String}
    {c : Config}
    (h : ConfigLoader.loadFromPath (format.toml texts) path (.text text) = .ok c) :
    ∃ w, c.encode = some w ∧ ∀ w' text', Reordered w w' → format.parse text' = .ok w' →
      ∃ c', ConfigLoader.loadFromPath (format.toml texts) path (.text text') = .ok c' ∧
        c.Same c' := by
  obtain ⟨_, _, htoml, hvalid⟩ := ConfigLoader.loadFromPath_ok _ h
  obtain ⟨v, _, hdecode⟩ := TextFormat.toml_ok.mp htoml
  obtain ⟨hfits, w, hw⟩ := Config.fits_of_decode hs hdecode
  refine ⟨w, hw, fun w' text' hr ht => ?_⟩
  exact (written_loads_iff format hfits hw hr ht path).mpr hvalid

/- The short file is loaded, and what has been read of it is written in an order of its own. -/
theorem loaded_loads_again_corp : ∃ w, (Accepted.corpConfig 100 "nic0").encode = some w ∧
    ∀ w' text', Reordered w w' → corpFormat.parse text' = .ok w' →
      ∃ c', ConfigLoader.loadFromPath (corpFormat.toml corpTexts) "config.toml" (.text text') =
        .ok c' ∧ (Accepted.corpConfig 100 "nic0").Same c' := by
  have hshort : Config.decode corpTexts corpShort = some (Accepted.corpConfig 100 "nic0") := rfl
  have htoml : corpFormat.toml corpTexts corpShortText =
      .ok (Accepted.corpConfig 100 "nic0") :=
    TextFormat.toml_ok.mpr ⟨corpShort, corp_parse_short, hshort⟩
  exact loaded_loads_again corpFormat corpTexts_stable
    (ConfigLoader.loadFromPath_text _ htoml (by decide +kernel))

end NicAutoswitch.Schema
