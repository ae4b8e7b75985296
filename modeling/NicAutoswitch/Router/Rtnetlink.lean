import NicAutoswitch.Ip

/-!
# The netlink messages and the interface of rtnetlink

`RouteMessage` and `RuleMessage` are the message types of netlink-packet-route
with the header fields and attributes the router layer reads or writes. An add
request is the record of the calls made on the crate's fluent builder; a delete
request is a message filled in by hand. `Rtnetlink κ` is what the router layer
takes from the crate: it sends a request to a kernel whose state is a `κ`.
-/

namespace NicAutoswitch.Router

/-- An open netlink connection. -/
structure Handle where
  deriving Repr, DecidableEq

/-- `rtnetlink::Error`: an answer of the kernel, with its error code if it has one and the
operating system's text for it, or a failure of the connection. -/
inductive RtError where
  | netlinkError (code : Option ℤ) (text : String)
  | other (text : String)
  deriving Repr, DecidableEq

def RtError.display : RtError → String
  | .netlinkError _ text => s!"Received a netlink error message {text}"
  | .other text => text

instance : ToString RtError := ⟨RtError.display⟩

inductive AddressFamily where
  | unspec
  | inet
  | inet6
  deriving Repr, DecidableEq

def familyOf : IpVersion → AddressFamily
  | .v4 => .inet
  | .v6 => .inet6

inductive RouteProtocol where
  | unspec
  | static
  | other (code : ℕ)
  deriving Repr, DecidableEq

inductive RouteScope where
  | universe
  | other (code : ℕ)
  deriving Repr, DecidableEq

inductive RouteType where
  | unspec
  | unicast
  | other (code : ℕ)
  deriving Repr, DecidableEq

inductive RouteAttribute where
  | destination (addr : IpAddr)
  | gateway (addr : IpAddr)
  | oif (index : ℕ)
  | priority (metric : ℕ)
  | table (id : ℕ)
  deriving Repr, DecidableEq

/-- The field defaults are those of `RouteMessage::default()`. -/
structure RouteMessage where
  addressFamily : AddressFamily := .unspec
  destinationPrefixLength : ℕ := 0
  table : ℕ := 0
  protocol : RouteProtocol := .unspec
  scope : RouteScope := .universe
  kind : RouteType := .unspec
  attributes : List RouteAttribute := []
  deriving Repr, DecidableEq

inductive RuleAction where
  | unspec
  | toTable
  | other (code : ℕ)
  deriving Repr, DecidableEq

inductive RuleAttribute where
  | destination (addr : IpAddr)
  | source (addr : IpAddr)
  | priority (value : ℕ)
  | table (id : ℕ)
  deriving Repr, DecidableEq

/-- The field defaults are those of `RuleMessage::default()`. -/
structure RuleMessage where
  family : AddressFamily := .unspec
  dstLen : ℕ := 0
  srcLen : ℕ := 0
  table : ℕ := 0
  action : RuleAction := .unspec
  attributes : List RuleAttribute := []
  deriving Repr, DecidableEq

/-- The calls made on `handle.route().add()`. -/
structure RouteAddRequest where
  version : IpVersion
  destination : IpAddr
  prefixLen : ℕ
  outputInterface : ℕ
  tableId : ℕ
  protocol : RouteProtocol
  scope : RouteScope
  kind : RouteType
  gateway : Option IpAddr
  pushed : List RouteAttribute
  deriving Repr, DecidableEq

/-- The calls made on `handle.rule().add()`. -/
structure RuleAddRequest where
  version : IpVersion
  action : RuleAction
  destination : Option (IpAddr × ℕ)
  source : Option (IpAddr × ℕ)
  tableId : ℕ
  priority : ℕ
  deriving Repr, DecidableEq

/-- Sending requests. A dump is the stream of its items; an item may be an error. -/
structure Rtnetlink (κ : Type) where
  routeAdd : RouteAddRequest → κ → Except RtError Unit × κ
  routeDel : RouteMessage → κ → Except RtError Unit × κ
  routeGet : IpVersion → ℕ → κ → List (Except RtError RouteMessage) × κ
  ruleAdd : RuleAddRequest → κ → Except RtError Unit × κ
  ruleDel : RuleMessage → κ → Except RtError Unit × κ
  ruleGet : IpVersion → κ → List (Except RtError RuleMessage) × κ
  linkGet : String → κ → Except RtError (Option ℕ) × κ

/- Every request that may fail is granted: an add or a delete is acknowledged and
a link lookup finds the link. -/
structure Rtnetlink.Grants {κ : Type} (rt : Rtnetlink κ) : Prop where
  routeAdd : ∀ q k, (rt.routeAdd q k).1 = .ok ()
  routeDel : ∀ m k, (rt.routeDel m k).1 = .ok ()
  ruleAdd : ∀ q k, (rt.ruleAdd q k).1 = .ok ()
  ruleDel : ∀ m k, (rt.ruleDel m k).1 = .ok ()
  linkGet : ∀ name k, ∃ i, (rt.linkGet name k).1 = .ok (some i)

/-- The destination address that a route message carries. -/
def RouteMessage.destination? (m : RouteMessage) : Option IpAddr :=
  m.attributes.findSome? fun
    | .destination addr => some addr
    | _ => none

/-- The metric that a route message carries. -/
def RouteMessage.metric? (m : RouteMessage) : Option ℕ :=
  m.attributes.findSome? fun
    | .priority metric => some metric
    | _ => none

/-- The output interface that a route message carries. -/
def RouteMessage.oif? (m : RouteMessage) : Option ℕ :=
  m.attributes.findSome? fun
    | .oif index => some index
    | _ => none

/-- The table of a route message: its attribute counts before the header. -/
def RouteMessage.tableId (m : RouteMessage) : ℕ :=
  (m.attributes.findSome? fun
    | .table id => some id
    | _ => none).getD m.table

/-- The destination address that a rule message carries. -/
def RuleMessage.destination? (m : RuleMessage) : Option IpAddr :=
  m.attributes.findSome? fun
    | .destination addr => some addr
    | _ => none

/-- The priority that a rule message carries. -/
def RuleMessage.priority? (m : RuleMessage) : Option ℕ :=
  m.attributes.findSome? fun
    | .priority value => some value
    | _ => none

/-- The table of a rule message: its attribute counts before the header. -/
def RuleMessage.tableId (m : RuleMessage) : ℕ :=
  (m.attributes.findSome? fun
    | .table id => some id
    | _ => none).getD m.table

end NicAutoswitch.Router
