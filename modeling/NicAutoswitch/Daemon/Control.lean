import NicAutoswitch.Error
import NicAutoswitch.Lib.HashMaps
import NicAutoswitch.Lib.Json

/-!
# Control server (daemon/control.rs)

A request and its response are one line each. The members of an object are in the order
in which they are written.
-/

namespace NicAutoswitch.Daemon
open HashMaps Json

inductive ControlCommand where
  | status
  | listRoutes
  | reload
  | shutdown
  deriving Repr, DecidableEq

namespace ControlCommand

/- `#[serde(tag = "command", rename_all = "snake_case")]` -/
def tag : ControlCommand → String
  | status => "status"
  | listRoutes => "list_routes"
  | reload => "reload"
  | shutdown => "shutdown"

def members (command : ControlCommand) : List (String × Value) :=
  [("command", .string command.tag)]

def ofTag (tag : String) : Except String ControlCommand :=
  if tag = "status" then .ok status
  else if tag = "list_routes" then .ok listRoutes
  else if tag = "reload" then .ok reload
  else if tag = "shutdown" then .ok shutdown
  else
    .error (s!"unknown variant `{tag}`, " ++
      "expected one of `status`, `list_routes`, `reload`, `shutdown`")

def decodeTag : Value → Except String ControlCommand
  | .string tag => ofTag tag
  | v => .error (invalidType v "variant identifier")

/- The tag is a member, or the first element and then the only one. -/
def decode : Value → Except String ControlCommand
  | .object members => required "command" decodeTag members
  | .array [] => .error "missing field `command`"
  | .array (tag :: rest) => do
    let command ← decodeTag tag
    if rest.isEmpty then return command
    else .error s!"invalid length {rest.length}, expected 0 elements in sequence"
  | v => .error (invalidType v "internally tagged enum ControlCommand")

example : decode (.array [.string "status"]) = .ok status := rfl

theorem ofTag_tag (command : ControlCommand) : ofTag command.tag = .ok command := by
  cases command <;> rfl

end ControlCommand

structure ControlResponse where
  success : Bool
  message : Option String
  data : Option Value

namespace ControlResponse

def ofData (data : Option Value) : ControlResponse := ⟨true, none, data⟩

def successWithMessage (message : String) : ControlResponse := ⟨true, some message, none⟩

def error (message : String) : ControlResponse := ⟨false, some message, none⟩

/- `skip_serializing_if = "Option::is_none"` for the message and the data. -/
def members (r : ControlResponse) : List (String × Value) :=
  ("success", .bool r.success) ::
    ((r.message.map fun message => ("message", .string message)).toList ++
      (r.data.map fun data => ("data", data)).toList)

def tooShort (length : ℕ) : String :=
  s!"invalid length {length}, expected struct ControlResponse with 3 elements"

/- The fields as a sequence; none of them may be left out. -/
def decodeItems : List Value → Except String ControlResponse
  | [] => .error (tooShort 0)
  | success :: items => do
    let success ← decodeBool success
    match items with
    | [] => .error (tooShort 1)
    | message :: items =>
      let message ← nullable decodeString message
      match items with
      | [] => .error (tooShort 2)
      | data :: items =>
        let data ← nullable .ok data
        if items.isEmpty then return { success, message, data }
        else .error "trailing characters"

def decode : Value → Except String ControlResponse
  | .object members => do
    let success ← required "success" decodeBool members
    let message ← optional "message" decodeString members
    let data ← optional "data" .ok members
    return { success, message, data }
  | .array items => decodeItems items
  | v => .error (invalidType v "struct ControlResponse")

end ControlResponse

structure DaemonStatus where
  version : String
  state : String
  uptimeSecs : ℕ
  activeRoutes : ℕ
  deriving Repr, DecidableEq

/- `serde_json::to_value` never fails on the status, nor on a map with text keys. -/
def DaemonStatus.toValue (s : DaemonStatus) : Value :=
  .object [("active_routes", .number (toString s.activeRoutes)), ("state", .string s.state),
    ("uptime_secs", .number (toString s.uptimeSecs)), ("version", .string s.version)]

def routesValue (routes : HashMap String Value) : Value :=
  .object (routes.entries.map fun e => (e.1, e.2))

/-- The implementations of the trait; `σ` is what they read and change. -/
structure ControlState (σ : Type) where
  getStatus : σ → DaemonStatus
  getActiveRoutes : σ → HashMap String Value
  reloadConfig : σ → Except NicAutoSwitchError Unit × σ
  isShutdownRequested : σ → Bool
  requestShutdown : σ → σ

namespace ControlServer

variable {σ : Type} (control : ControlState σ)

def handleCommand (command : ControlCommand) (s : σ) : ControlResponse × σ :=
  match command with
  | .status => (.ofData (some (control.getStatus s).toValue), s)
  | .listRoutes => (.ofData (some (routesValue (control.getActiveRoutes s))), s)
  | .reload =>
    match control.reloadConfig s with
    | (.ok (), s') => (.successWithMessage "Configuration reloaded", s')
    | (.error e, s') => (.error s!"Failed to reload: {e}", s')
  | .shutdown => (.successWithMessage "Shutdown requested", control.requestShutdown s)

variable (format : LineFormat)

/- One turn of the loop of `handle_connection`: a line is answered by a line. -/
def handleLine (line : String) (s : σ) : String × σ :=
  let (response, s') :=
    match format.read ControlCommand.decode line with
    | .ok command => handleCommand control command s
    | .error e => (.error s!"Invalid command: {e}", s)
  (format.print (.object response.members), s')

end ControlServer

/-! ### Lines -/

/- A command that the line carries arrives. -/
theorem ControlCommand.decode_carried {format : LineFormat} {command : ControlCommand}
    (h : format.Carries command.members) :
    format.read ControlCommand.decode (format.print (.object command.members)) = .ok command := by
  obtain ⟨members, hparse, hsame⟩ := h
  have htag : required "command" decodeTag members = ofTag command.tag := by
    apply required_carried hsame (v := .string command.tag) rfl
    intro v hv
    rw [show v = .string command.tag from hv]
  exact LineFormat.read_ok hparse (htag.trans (ofTag_tag command))

theorem ControlResponse.field_members (r : ControlResponse) :
    field "success" r.members = .ok (some (.bool r.success)) ∧
      field "message" r.members = .ok (r.message.map .string) ∧
        field "data" r.members = .ok r.data := by
  obtain ⟨success, message, data⟩ := r
  cases message <;> cases data <;> exact ⟨rfl, rfl, rfl⟩

/- So does a response, up to what is inside its data. -/
theorem ControlResponse.decode_carried {format : LineFormat} {r : ControlResponse}
    (h : format.Carries r.members) :
    ∃ data, format.read ControlResponse.decode (format.print (.object r.members)) =
        .ok { r with data := data } ∧ (r.data = none → data = none) := by
  obtain ⟨members, hparse, hsame⟩ := h
  obtain ⟨hs, hm, hd⟩ := r.field_members
  have hsuccess : required "success" decodeBool members = .ok r.success := by
    apply required_carried hsame hs
    intro v hv
    rw [show v = .bool r.success from hv]
  have hmessage : optional "message" decodeString members = .ok r.message := by
    cases h : r.message with
    | none =>
      rw [h] at hm
      exact optional_absent hsame decodeString hm
    | some message =>
      rw [h] at hm
      obtain ⟨v, hv, hopt⟩ := optional_carried hsame decodeString hm
      rw [hopt, show v = .string message from hv]
      rfl
  have hdata : ∃ data, optional "data" .ok members = .ok data ∧ (r.data = none → data = none) := by
    cases h : r.data with
    | none =>
      rw [h] at hd
      exact ⟨none, optional_absent hsame .ok hd, fun _ => rfl⟩
    | some data =>
      rw [h] at hd
      obtain ⟨v, hv, hopt⟩ := optional_carried hsame .ok hd
      cases v with
      | null => exact ⟨none, hopt, fun _ => rfl⟩
      | bool b => exact ⟨some (.bool b), hopt, fun hn => by cases hn⟩
      | number literal => exact ⟨some (.number literal), hopt, fun hn => by cases hn⟩
      | string text => exact ⟨some (.string text), hopt, fun hn => by cases hn⟩
      | array items => exact ⟨some (.array items), hopt, fun hn => by cases hn⟩
      | object fields => exact ⟨some (.object fields), hopt, fun hn => by cases hn⟩
  obtain ⟨data, hdata, hnone⟩ := hdata
  refine ⟨data, LineFormat.read_ok hparse ?_, hnone⟩
  show (required "success" decodeBool members >>= fun success =>
    optional "message" decodeString members >>= fun message =>
      optional "data" .ok members >>= fun data =>
        .ok (ControlResponse.mk success message data)) = _
  rw [hsuccess, hmessage, hdata]
  rfl

end NicAutoswitch.Daemon
