import NicAutoswitch.Daemon.Control

/-!
# Control client (cli/client.rs)

A server answers a line by a line. That the socket can be reached is taken for granted.
-/

namespace NicAutoswitch.Cli
open Daemon Json

variable {σ α : Type}

namespace DaemonClient

variable (format : LineFormat) (serve : String → σ → String × σ)

/- `fromValue` is `serde_json::from_value` at the type that the caller asks for. -/
def sendCommand (fromValue : Value → Except String α) (command : ControlCommand) (s : σ) :
    Except NicAutoSwitchError α × σ :=
  let (line, s') := serve (format.print (.object command.members)) s
  match format.read ControlResponse.decode line with
  | .error e => (.error (.json e), s')
  | .ok response =>
    if response.success then
      match fromValue (response.data.getD .null) with
      | .ok a => (.ok a, s')
      | .error e => (.error (.invalidInput s!"Failed to parse response: {e}"), s')
    else (.error (.invalidInput (response.message.getD "Unknown error")), s')

def getStatus : σ → Except NicAutoSwitchError Value × σ := sendCommand format serve .ok .status

def getRoutes : σ → Except NicAutoSwitchError Value × σ := sendCommand format serve .ok .listRoutes

def reloadConfig : σ → Except NicAutoSwitchError String × σ :=
  sendCommand format serve decodeString .reload

def shutdown : σ → Except NicAutoSwitchError String × σ :=
  sendCommand format serve decodeString .shutdown

end DaemonClient

/- The client succeeds exactly if the response says so, and else fails with its message. -/
def Agrees (response : ControlResponse) (answer : Except NicAutoSwitchError α) : Prop :=
  if response.success then ∃ a, answer = .ok a
  else ∃ message, response.message = some message ∧ answer = .error (.invalidInput message)

/- The client's method for the command, on a server that handles it. -/
def ClientAgrees (format : LineFormat) (control : ControlState σ) (command : ControlCommand)
    (s : σ) : Prop :=
  let response := (ControlServer.handleCommand control command s).1
  let serve := ControlServer.handleLine control format
  match command with
  | .status => Agrees response (DaemonClient.getStatus format serve s).1
  | .listRoutes => Agrees response (DaemonClient.getRoutes format serve s).1
  | .reload => Agrees response (DaemonClient.reloadConfig format serve s).1
  | .shutdown => Agrees response (DaemonClient.shutdown format serve s).1

/- What comes of a command whose request and response the lines carry. -/
theorem sendCommand_carried {format : LineFormat} {control : ControlState σ}
    {command : ControlCommand} {s : σ} (fromValue : Value → Except String α)
    (hrequest : format.Carries command.members)
    (hresponse : format.Carries (ControlServer.handleCommand control command s).1.members) :
    ∃ data, ((ControlServer.handleCommand control command s).1.data = none → data = none) ∧
      (DaemonClient.sendCommand format (ControlServer.handleLine control format) fromValue
        command s).1 =
        if (ControlServer.handleCommand control command s).1.success then
          (fromValue (data.getD .null)).mapError fun e =>
            .invalidInput s!"Failed to parse response: {e}"
        else
          .error (.invalidInput
            ((ControlServer.handleCommand control command s).1.message.getD "Unknown error")) := by
  have hserved : ControlServer.handleLine control format
      (format.print (.object command.members)) s =
        (format.print (.object (ControlServer.handleCommand control command s).1.members),
          (ControlServer.handleCommand control command s).2) := by
    unfold ControlServer.handleLine
    rw [ControlCommand.decode_carried hrequest]
  obtain ⟨data, hdecode, hnone⟩ := ControlResponse.decode_carried hresponse
  refine ⟨data, hnone, ?_⟩
  unfold DaemonClient.sendCommand
  rw [hserved]
  simp only [hdecode]
  split_ifs
  · cases fromValue (data.getD .null) <;> rfl
  · rfl

section Agreement

variable {format : LineFormat} {control : ControlState σ} {command : ControlCommand} {s : σ}
  (hrequest : format.Carries command.members)
  (hresponse : format.Carries (ControlServer.handleCommand control command s).1.members)
include hrequest hresponse

/- Whatever the data is, it is taken. -/
theorem value_agrees (h : (ControlServer.handleCommand control command s).1.success = true) :
    Agrees (ControlServer.handleCommand control command s).1
      (DaemonClient.sendCommand format (ControlServer.handleLine control format) .ok command s).1 := by
  obtain ⟨data, _, hsend⟩ := sendCommand_carried .ok hrequest hresponse
  unfold Agrees
  rw [if_pos h, hsend, if_pos h]
  exact ⟨_, rfl⟩

/- A success without data is an error to a client that asks for a text. -/
theorem text_disagrees (h : (ControlServer.handleCommand control command s).1.success = true)
    (hdata : (ControlServer.handleCommand control command s).1.data = none) :
    ¬ Agrees (ControlServer.handleCommand control command s).1
      (DaemonClient.sendCommand format (ControlServer.handleLine control format) decodeString
        command s).1 := by
  obtain ⟨data, hnone, hsend⟩ := sendCommand_carried decodeString hrequest hresponse
  unfold Agrees
  rw [if_pos h, hsend, if_pos h, hnone hdata]
  rintro ⟨text, ht⟩
  cases ht

theorem failure_agrees (fromValue : Value → Except String α) {message : String}
    (h : (ControlServer.handleCommand control command s).1 = .error message) :
    Agrees (ControlServer.handleCommand control command s).1
      (DaemonClient.sendCommand format (ControlServer.handleLine control format) fromValue
        command s).1 := by
  obtain ⟨data, _, hsend⟩ := sendCommand_carried fromValue hrequest hresponse
  unfold Agrees
  rw [hsend, h]
  exact ⟨message, rfl, rfl⟩

/- The ends agree exactly on the queries, and on reloads that fail: the success of a reload
or of a shutdown has a message and no data. -/
theorem client_agrees_iff : ClientAgrees format control command s ↔
    command = .status ∨ command = .listRoutes ∨
      command = .reload ∧ ∃ e, (control.reloadConfig s).1 = .error e := by
  cases command with
  | status => exact iff_of_true (value_agrees hrequest hresponse rfl) (Or.inl rfl)
  | listRoutes => exact iff_of_true (value_agrees hrequest hresponse rfl) (Or.inr (Or.inl rfl))
  | reload =>
    cases hr : control.reloadConfig s with
    | mk outcome s' =>
      cases outcome with
      | ok u =>
        have hcommand : (ControlServer.handleCommand control .reload s).1 =
            .successWithMessage "Configuration reloaded" := by
          unfold ControlServer.handleCommand
          rw [hr]
        refine iff_of_false ?_ ?_
        · exact text_disagrees hrequest hresponse (by rw [hcommand]; rfl) (by rw [hcommand]; rfl)
        · rintro (h | h | ⟨_, e, he⟩)
          · cases h
          · cases h
          · cases he
      | error e =>
        have hcommand : (ControlServer.handleCommand control .reload s).1 =
            .error s!"Failed to reload: {e}" := by
          unfold ControlServer.handleCommand
          rw [hr]
        exact iff_of_true (failure_agrees hrequest hresponse decodeString hcommand)
          (Or.inr (Or.inr ⟨rfl, e, rfl⟩))
  | shutdown =>
    refine iff_of_false (text_disagrees hrequest hresponse rfl rfl) ?_
    rintro (h | h | ⟨h, _⟩) <;> cases h

end Agreement

/-! ### A reload that succeeds -/

/- The request and the response of a reload, as they are written and read. -/
def reloadLines : LineFormat where
  print
    | .object [("command", .string "reload")] => "\x7b\"command\":\"reload\"\x7d"
    | .object [("success", .bool true), ("message", .string "Configuration reloaded")] =>
      "\x7b\"success\":true,\"message\":\"Configuration reloaded\"\x7d"
    | _ => "null"
  parse line :=
    if line = "\x7b\"command\":\"reload\"\x7d" then .ok (.object [("command", .string "reload")])
    else if line = "\x7b\"success\":true,\"message\":\"Configuration reloaded\"\x7d" then
      .ok (.object [("success", .bool true), ("message", .string "Configuration reloaded")])
    else .ok .null
  locate _ e := e

/- A daemon whose reloads succeed; its state is whether it is to stop. -/
def reloadable : ControlState Bool where
  getStatus _ := ⟨"0.1.0", "Running", 0, 0⟩
  getActiveRoutes _ := ∅
  reloadConfig s := (.ok (), s)
  isShutdownRequested s := s
  requestShutdown _ := true

theorem reloadLines_request : reloadLines.Carries ControlCommand.reload.members :=
  ⟨_, rfl, .cons ⟨rfl, rfl⟩ .nil⟩

theorem reloadLines_response : reloadLines.Carries
    (ControlServer.handleCommand reloadable .reload false).1.members :=
  ⟨_, rfl, .cons ⟨rfl, rfl⟩ (.cons ⟨rfl, rfl⟩ .nil)⟩

theorem client_agrees_iff_reload : ClientAgrees reloadLines reloadable .reload false ↔
    ControlCommand.reload = .status ∨ ControlCommand.reload = .listRoutes ∨
      ControlCommand.reload = .reload ∧ ∃ e, (reloadable.reloadConfig false).1 = .error e :=
  client_agrees_iff reloadLines_request reloadLines_response

theorem reload_success_is_client_error :
    (ControlServer.handleCommand reloadable .reload false).1.success = true ∧
    (DaemonClient.reloadConfig reloadLines (ControlServer.handleLine reloadable reloadLines)
      false).1 = .error (.invalidInput
        "Failed to parse response: invalid type: null, expected a string") ∧
    ¬ ClientAgrees reloadLines reloadable .reload false := by
  refine ⟨rfl, rfl, fun h => ?_⟩
  obtain ⟨text, ht⟩ := h
  cases ht

end NicAutoswitch.Cli
