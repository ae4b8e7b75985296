import NicAutoswitch.Router.Manager

/-!
# Add and delete messages

An entry is added through the crate's builders and deleted through a message
filled in by hand. What the builders make of their calls is taken from the crate,
as a `MessageEncoding`.
-/

namespace NicAutoswitch.Router

/- The messages that the crate builds for the calls recorded in a request. -/
structure MessageEncoding where
  routeMessage : RouteAddRequest → RouteMessage
  ruleMessage : RuleAddRequest → RuleMessage

/- What the crate documents of its builders: v4()/v6() set the family, table_id the
header's table where it fits, destination_prefix the address and its length, and each
other call its own field. -/
structure MessageEncoding.Documented (enc : MessageEncoding) : Prop where
  route_family : ∀ q, (enc.routeMessage q).addressFamily = familyOf q.version
  route_table : ∀ q, q.tableId ≤ 255 → (enc.routeMessage q).table = q.tableId
  route_destination : ∀ q, (enc.routeMessage q).destination? = some q.destination
  route_length : ∀ q, (enc.routeMessage q).destinationPrefixLength = q.prefixLen
  route_protocol : ∀ q, (enc.routeMessage q).protocol = q.protocol
  route_scope : ∀ q, (enc.routeMessage q).scope = q.scope
  route_kind : ∀ q, (enc.routeMessage q).kind = q.kind
  rule_family : ∀ q, (enc.ruleMessage q).family = familyOf q.version
  rule_table : ∀ q, q.tableId ≤ 255 → (enc.ruleMessage q).table = q.tableId
  rule_action : ∀ q, (enc.ruleMessage q).action = q.action
  rule_destination : ∀ q, (enc.ruleMessage q).destination? = q.destination.map (·.1)
  rule_length : ∀ q, (enc.ruleMessage q).dstLen = (q.destination.map (·.2)).getD 0
  rule_priority : ∀ q, (enc.ruleMessage q).priority? = some q.priority

/- The delete message agrees with the message of the route, its family left aside. -/
def RouteMessage.Selects (del add : RouteMessage) : Prop :=
  del.table = add.table ∧ del.destination? = add.destination? ∧
    del.destinationPrefixLength = add.destinationPrefixLength ∧
    del.protocol = add.protocol ∧ del.scope = add.scope ∧ del.kind = add.kind

def RouteMessage.Names (del add : RouteMessage) : Prop :=
  del.addressFamily = add.addressFamily ∧ del.Selects add

def RuleMessage.Names (del add : RuleMessage) : Prop :=
  del.family = add.family ∧ del.action = add.action ∧ del.table = add.table ∧
    del.destination? = add.destination? ∧ del.dstLen = add.dstLen ∧
    del.priority? = add.priority?

/- One route and its policy rule, as the daemon installs them. -/
structure Entry where
  destination : IpNetwork
  gateway : Option IpAddr
  ifIndex : ℕ
  tableId : ℕ
  metric : ℕ
  priority : ℕ

namespace Entry

variable (enc : MessageEncoding) (x : Entry)

def addRouteMessage : RouteMessage :=
  enc.routeMessage (routeRequest x.destination x.gateway x.ifIndex x.tableId x.metric)

def addRuleMessage : RuleMessage :=
  enc.ruleMessage (policyRuleRequest (some x.destination) none x.tableId x.priority
    (RouteManager.ruleIsIpv4 (some x.destination) none))

def removeRuleMessage : Except NicAutoSwitchError RuleMessage :=
  buildRuleMessage (some x.destination) none x.tableId x.priority
    (RouteManager.ruleIsIpv4 (some x.destination) none)

/- Both delete messages name the entries that the add messages created. -/
def DeletesNameAdds : Prop :=
  ∃ delRoute delRule, removeRouteMessage x.destination x.tableId = .ok delRoute ∧
    x.removeRuleMessage = .ok delRule ∧ delRoute.Names (x.addRouteMessage enc) ∧
    delRule.Names (x.addRuleMessage enc)

end Entry

theorem filter_own_family (d : IpNetwork) :
    (some d).filter (fun n => n.isIpv4 == RouteManager.ruleIsIpv4 (some d) none) = some d := by
  simp [RouteManager.ruleIsIpv4]

theorem policyRuleRequest_destination (d : IpNetwork) (t priority : ℕ) :
    (policyRuleRequest (some d) none t priority
      (RouteManager.ruleIsIpv4 (some d) none)).destination = some (d.ip, d.prefixLen) := by
  unfold policyRuleRequest
  simp only [filter_own_family, Option.map_some]

theorem policyRuleRequest_version (d : IpNetwork) (t priority : ℕ) :
    (policyRuleRequest (some d) none t priority
      (RouteManager.ruleIsIpv4 (some d) none)).version = d.version := by
  cases d <;> rfl

theorem removeRouteMessage_eq (d : IpNetwork) {t : ℕ} (ht : t ≤ 255) :
    removeRouteMessage d t = .ok {
      table := t
      protocol := .static
      scope := .universe
      kind := .unicast
      destinationPrefixLength := d.prefixLen
      attributes := [.destination d.ip] } := by
  unfold removeRouteMessage
  rw [tableIdToU8_ok ht]
  rfl

theorem buildRuleMessage_eq (d : IpNetwork) {t : ℕ} (priority : ℕ) (ht : t ≤ 255) :
    buildRuleMessage (some d) none t priority (RouteManager.ruleIsIpv4 (some d) none) = .ok {
      table := t
      action := .toTable
      family := familyOf d.version
      dstLen := d.prefixLen
      srcLen := 0
      attributes := [.destination d.ip, .priority priority] } := by
  unfold buildRuleMessage
  rw [tableIdToU8_ok ht]
  simp only [bind, Except.bind, filter_own_family]
  cases d <;> rfl

theorem removeRoute_selects (enc : MessageEncoding) (henc : enc.Documented) (x : Entry)
    (ht : x.tableId ≤ 255) :
    ∃ del, removeRouteMessage x.destination x.tableId = .ok del ∧
      del.addressFamily = .unspec ∧ del.Selects (x.addRouteMessage enc) := by
  refine ⟨_, removeRouteMessage_eq x.destination ht, rfl, ?_⟩
  unfold RouteMessage.Selects Entry.addRouteMessage
  rw [henc.route_table _ ht, henc.route_destination, henc.route_length, henc.route_protocol,
    henc.route_scope, henc.route_kind]
  exact ⟨rfl, rfl, rfl, rfl, rfl, rfl⟩

theorem removePolicyRule_names (enc : MessageEncoding) (henc : enc.Documented) (x : Entry)
    (ht : x.tableId ≤ 255) :
    ∃ del, x.removeRuleMessage = .ok del ∧ del.Names (x.addRuleMessage enc) := by
  refine ⟨_, buildRuleMessage_eq x.destination x.priority ht, ?_⟩
  unfold RuleMessage.Names Entry.addRuleMessage
  rw [henc.rule_family, henc.rule_action, henc.rule_table _ ht, henc.rule_destination,
    henc.rule_length, henc.rule_priority, policyRuleRequest_destination,
    policyRuleRequest_version]
  exact ⟨rfl, rfl, rfl, rfl, rfl, rfl⟩

theorem addRoute_family (enc : MessageEncoding) (henc : enc.Documented) (x : Entry) :
    (x.addRouteMessage enc).addressFamily ≠ .unspec := by
  unfold Entry.addRouteMessage
  rw [henc.route_family]
  cases x.destination <;> exact fun h => by cases h

/- The delete message of a route never names its family. All its other fields, and
every field of the policy rule's message, are those of the add message. -/
theorem deletes_never_name_adds (enc : MessageEncoding) (henc : enc.Documented) (x : Entry)
    (ht : x.tableId ≤ 255) :
    ¬ x.DeletesNameAdds enc ∧
      (∃ del, removeRouteMessage x.destination x.tableId = .ok del ∧
        del.addressFamily = .unspec ∧ del.Selects (x.addRouteMessage enc)) ∧
      ∃ del, x.removeRuleMessage = .ok del ∧ del.Names (x.addRuleMessage enc) := by
  have hroute := removeRoute_selects enc henc x ht
  refine ⟨?_, hroute, removePolicyRule_names enc henc x ht⟩
  intro h
  obtain ⟨del, _, hdel, _, hnames, _⟩ := h
  obtain ⟨del', hdel', hunspec, _⟩ := hroute
  rw [hdel] at hdel'
  cases hdel'
  have hfamily := hnames.1
  rw [hunspec] at hfamily
  exact addRoute_family enc henc x hfamily.symm

/- The builders of the crate. -/
def fluentBuilders : MessageEncoding where
  routeMessage q := {
    addressFamily := familyOf q.version
    destinationPrefixLength := q.prefixLen
    table := if q.tableId ≤ 255 then q.tableId else 254
    protocol := q.protocol
    scope := q.scope
    kind := q.kind
    attributes := [.destination q.destination, .oif q.outputInterface] ++
      (if q.tableId ≤ 255 then [] else [.table q.tableId]) ++
      (q.gateway.map RouteAttribute.gateway).toList ++ q.pushed }
  ruleMessage q := {
    family := familyOf q.version
    dstLen := (q.destination.map (·.2)).getD 0
    srcLen := (q.source.map (·.2)).getD 0
    table := if q.tableId ≤ 255 then q.tableId else 254
    action := q.action
    attributes := (q.destination.map fun d => RuleAttribute.destination d.1).toList ++
      (q.source.map fun s => RuleAttribute.source s.1).toList ++
      (if q.tableId ≤ 255 then [] else [.table q.tableId]) ++ [.priority q.priority] }

theorem fluentBuilders_documented : fluentBuilders.Documented where
  route_family _ := rfl
  route_table _ h := if_pos h
  route_destination _ := rfl
  route_length _ := rfl
  route_protocol _ := rfl
  route_scope _ := rfl
  route_kind _ := rfl
  rule_family _ := rfl
  rule_table _ h := if_pos h
  rule_action _ := rfl
  rule_destination q := by
    obtain ⟨v, act, d, s, t, p⟩ := q
    cases d <;> cases s <;> simp only [fluentBuilders, RuleMessage.destination?] <;> split <;> rfl
  rule_length _ := rfl
  rule_priority q := by
    obtain ⟨v, act, d, s, t, p⟩ := q
    cases d <;> cases s <;> simp only [fluentBuilders, RuleMessage.priority?] <;> split <;> rfl

/- The network 10.0.0.0/8 by interface 2 in table 100. -/
def tenNetwork : Entry := ⟨.v4 ⟨0x0a000000, 8, len8_v4⟩, none, 2, 100, 50, 50⟩

theorem deletes_never_name_adds_ten :
    fluentBuilders.Documented ∧ tenNetwork.tableId ≤ 255 ∧
      ¬ tenNetwork.DeletesNameAdds fluentBuilders :=
  ⟨fluentBuilders_documented, by decide,
    (deletes_never_name_adds fluentBuilders fluentBuilders_documented tenNetwork (by decide)).1⟩

theorem ten_network_family_differs : ¬ tenNetwork.DeletesNameAdds fluentBuilders := by
  intro h
  obtain ⟨del, _, hdel, _, hnames, _⟩ := h
  cases hdel
  cases hnames.1

end NicAutoswitch.Router
