import NicAutoswitch.Engine.Dispatcher
import NicAutoswitch.Lib.Run

/-!
# Invariants of the executor

A handler reaches the kernel and the active routes through the executor's calls
alone, so that what every call preserves is preserved by every operation of the
dispatcher, whatever requests fail.
-/

namespace NicAutoswitch.Engine
open HashMaps Schema Monitor Router StateProg Transition

variable {κ α : Type} {rt : Rtnetlink κ} {P : ExecutorState κ → Prop}

/- Every call of the executor keeps `P`, also where it fails. -/
structure CallsKeep (rt : Rtnetlink κ) (P : ExecutorState κ → Prop) : Prop where
  apply : ∀ rule t, Preserves P (RuleExecutor.applyRule rt rule 0 t)
  remove : ∀ rule t, Preserves P (RuleExecutor.removeRule rt rule t)
  cleanup : Preserves P (Dispatch.sweepStaleTables rt)

/- What a daemon program keeps of its executor. -/
abbrev KeepsExec (P : ExecutorState κ → Prop) (x : Daemon κ α) : Prop :=
  Preserves (fun s => P s.execState) x

theorem keepsExec_onExecutor {x : Exec κ α} (hx : Preserves P x) : KeepsExec P (onExecutor x) :=
  preserves_zoom (fun _ h => h) (fun _ _ _ h => h) hx

theorem keepsExec_read : KeepsExec P (readDispatcher : Daemon κ EventDispatcher) :=
  fun _ h => h

theorem keepsExec_modify {f : EventDispatcher → EventDispatcher}
    (hf : ∀ d, (f d).executor = d.executor) : KeepsExec P (modifyDispatcher f) := by
  intro s hs
  show P ⟨(f s.dispatcher).executor, s.kernel, s.history⟩
  rw [hf]
  exact hs

theorem keepsExec_tableIdFor (interface : String) : KeepsExec P (tableIdFor (κ := κ) interface) :=
  fun _ h => h

theorem keepsExec_applyDefaultLoop (hc : CallsKeep rt P) (t : ℕ) (rules : List RouteRule) :
    KeepsExec P (Dispatch.applyDefaultLoop rt t rules) := by
  induction rules with
  | nil => exact preserves_pure _ ()
  | cons rule rest ih =>
    refine preserves_bind keepsExec_read fun d => ?_
    refine preserves_ite (fun _ => ih) fun _ => ?_
    have hcall := preserves_attempt (keepsExec_onExecutor (hc.apply rule t))
    exact preserves_bind hcall fun _ => ih

theorem keepsExec_applyDefaultRules (hc : CallsKeep rt P) (interface : String) :
    KeepsExec P (Dispatch.applyDefaultRules rt interface) := by
  refine preserves_bind keepsExec_read fun d => ?_
  refine preserves_ite (fun _ => preserves_pure _ ()) fun _ => ?_
  exact preserves_bind (keepsExec_tableIdFor interface) fun t =>
    keepsExec_applyDefaultLoop hc t _

theorem preserves_applyRules (hc : CallsKeep rt P) (t : ℕ) (rules : List RouteRule) (n : ℕ) :
    Preserves P (RuleExecutor.applyRules rt 0 t rules n) := by
  induction rules generalizing n with
  | nil => exact preserves_pure _ n
  | cons rule rest ih =>
    refine preserves_bind (preserves_attempt (hc.apply rule t)) fun answer => ?_
    cases answer with
    | ok u => exact ih (n + 1)
    | error e => exact ih n

theorem keepsExec_applyRulesForInterface (hc : CallsKeep rt P) (interface : String)
    (ssid : Option String) : KeepsExec P (Dispatch.applyRulesForInterface rt interface ssid) := by
  refine preserves_bind keepsExec_read fun d => ?_
  cases ssid.bind d.config.wifiProfiles.lookup with
  | none => exact keepsExec_applyDefaultRules hc interface
  | some profile =>
    refine preserves_bind (keepsExec_tableIdFor interface) fun t => ?_
    have hrules := keepsExec_onExecutor (preserves_applyRules hc t profile.rules 0)
    exact preserves_bind hrules fun _ => preserves_pure _ ()

/- The loop keeps what each of its calls keeps. -/
theorem preserves_removeLoop {Q : System κ → Prop}
    (hr : ∀ rule t, Preserves Q (onExecutor (RuleExecutor.removeRule rt rule t)))
    (rules : HashMap String RouteRule) (todo : List (String × ℕ)) :
    Preserves Q (Dispatch.removeLoop rt rules todo) := by
  induction todo with
  | nil => exact preserves_pure _ ()
  | cons entry rest ih =>
    unfold Dispatch.removeLoop
    cases rules.lookup entry.1 with
    | none => exact ih
    | some rule =>
      exact preserves_bind (preserves_attempt (hr rule entry.2)) fun _ => ih

theorem keepsExec_handleInterfaceDown
    (hr : ∀ rule t, Preserves P (RuleExecutor.removeRule rt rule t)) (order : RouteOrder)
    (interface : String) : KeepsExec P (Dispatch.handleInterfaceDown rt order interface) := by
  refine preserves_bind keepsExec_read fun d => ?_
  exact preserves_ite (fun _ => preserves_pure _ ()) fun _ =>
    preserves_removeLoop (fun rule t => keepsExec_onExecutor (hr rule t)) _ _

theorem keepsExec_react (hc : CallsKeep rt P) (order : RouteOrder) (event : NetworkEvent) :
    KeepsExec P (Dispatch.react rt order event) := by
  cases event with
  | interfaceChanged interface change =>
    cases change with
    | down => exact keepsExec_handleInterfaceDown hc.remove order interface
    | removed => exact keepsExec_handleInterfaceDown hc.remove order interface
    | up =>
      refine preserves_bind keepsExec_read fun d => ?_
      exact preserves_ite (fun _ => keepsExec_applyDefaultRules hc interface)
        fun _ => preserves_pure _ ()
    | added => exact preserves_pure _ ()
  | wifiConnected interface ssid =>
    exact preserves_bind (keepsExec_modify fun _ => rfl) fun _ =>
      keepsExec_applyRulesForInterface hc interface (some ssid)
  | wifiDisconnected interface lastSsid =>
    exact preserves_bind (keepsExec_modify fun _ => rfl) fun _ =>
      keepsExec_applyDefaultRules hc interface
  | addressChanged interface added removed =>
    exact preserves_bind keepsExec_read fun d =>
      keepsExec_applyRulesForInterface hc interface (d.currentSsid interface)
  | routeChanged interface destination gateway added => exact preserves_pure _ ()

theorem keepsExec_handleEvent (hc : CallsKeep rt P) (order : RouteOrder) (event : NetworkEvent) :
    KeepsExec P (Dispatch.handleEvent rt order event) := by
  refine preserves_bind keepsExec_read fun d => ?_
  refine preserves_ite (fun _ => preserves_pure _ ()) fun _ => ?_
  rw [NetworkState.applyEvent_observe]
  exact preserves_bind (keepsExec_modify fun _ => rfl) fun _ => keepsExec_react hc order event

theorem keepsExec_applyInitialLoop (hc : CallsKeep rt P) (names : List String) :
    KeepsExec P (Dispatch.applyInitialLoop rt names) := by
  induction names with
  | nil => exact preserves_pure _ ()
  | cons name rest ih =>
    exact preserves_bind (preserves_attempt (keepsExec_applyDefaultRules hc name)) fun _ => ih

theorem keepsExec_applyInitialState (hc : CallsKeep rt P) (interfaces : List InterfaceInfo) :
    KeepsExec P (Dispatch.applyInitialState rt interfaces) := by
  refine preserves_bind (keepsExec_modify fun _ => rfl) fun _ => ?_
  refine preserves_bind (keepsExec_onExecutor hc.cleanup) fun _ => ?_
  exact preserves_bind keepsExec_read fun d => keepsExec_applyInitialLoop hc _

/- The operations that leave the executor to its calls; `stop` clears the active routes
by itself. -/
def Dispatch.Op.Continues : Dispatch.Op → Prop
  | .stop => False
  | .start => True
  | .applyInitialState _ => True
  | .handleEvent _ _ => True
  | .updateConfig _ => True

theorem perform_keeps (hc : CallsKeep rt P) {op : Dispatch.Op} (hop : op.Continues)
    {s : System κ} (hs : P s.execState) : P (Dispatch.perform rt s op).execState := by
  cases op with
  | stop => cases hop
  | updateConfig config => exact hs
  | start =>
    have he : s.dispatcher.start.executor = s.dispatcher.executor := by
      unfold EventDispatcher.start
      split_ifs <;> rfl
    show P ⟨s.dispatcher.start.executor, s.kernel, s.history⟩
    rw [he]
    exact hs
  | applyInitialState interfaces => exact keepsExec_applyInitialState hc interfaces s hs
  | handleEvent order event => exact keepsExec_handleEvent hc order event s hs

/- With the clearing of the active routes, every operation is covered. -/
theorem perform_keeps_all (hc : CallsKeep rt P)
    (hclear : ∀ s : ExecutorState κ, P s → P { s with executor := s.executor.clearActiveRoutes })
    (op : Dispatch.Op) {s : System κ} (hs : P s.execState) :
    P (Dispatch.perform rt s op).execState := by
  by_cases hop : op.Continues
  · exact perform_keeps hc hop hs
  · cases op with
    | stop => exact hclear s.execState hs
    | start => exact absurd trivial hop
    | applyInitialState interfaces => exact absurd trivial hop
    | handleEvent order event => exact absurd trivial hop
    | updateConfig config => exact absurd trivial hop

theorem run_keeps_all (hc : CallsKeep rt P)
    (hclear : ∀ s : ExecutorState κ, P s → P { s with executor := s.executor.clearActiveRoutes })
    (ops : List Dispatch.Op) {s : System κ} (hs : P s.execState) :
    P (run (Dispatch.perform rt) s ops).execState :=
  run_preserves (Dispatch.perform rt) (fun s => P s.execState)
    (fun _ op h => perform_keeps_all hc hclear op h) s ops hs

end NicAutoswitch.Engine
