import NicAutoswitch.Lib.HashMaps
import NicAutoswitch.Router.Rules

/-!
# Route rule executor (engine/executor.rs)

The executor runs against a kernel of states `κ`. `history` is an auxiliary
variable: it lists the executor's calls, newest first, each with the state it met
and whether it returned `Ok`. No definition of the executor reads it.
-/

namespace NicAutoswitch.Engine
open HashMaps Schema Router StateProg

structure ActiveRoute where
  ruleName : String
  interface : String
  tableId : ℕ
  deriving Repr, DecidableEq

structure RuleExecutor where
  routeManager : RouteManager
  activeRoutes : HashMap String ActiveRoute := ∅

inductive ExecutorCall where
  | applyRule (rule : RouteRule) (tableId : ℕ)
  | removeRule (rule : RouteRule) (tableId : ℕ)
  | cleanup
  deriving Repr, DecidableEq

structure CallRecord (κ : Type) where
  call : ExecutorCall
  executor : RuleExecutor
  kernel : κ
  returnedOk : Bool

structure ExecutorState (κ : Type) where
  executor : RuleExecutor
  kernel : κ
  history : List (CallRecord κ) := []

abbrev Exec (κ α : Type) := EStateM NicAutoSwitchError (ExecutorState κ) α

variable {κ α : Type}

/- Note a call and its outcome in the history. -/
def recorded (call : ExecutorCall) (x : Exec κ α) : Exec κ α := fun s =>
  let note (returnedOk : Bool) (s' : ExecutorState κ) : ExecutorState κ :=
    { s' with history := ⟨call, s.executor, s.kernel, returnedOk⟩ :: s'.history }
  match x s with
  | .ok a s' => .ok a (note true s')
  | .error e s' => .error e (note false s')

theorem recorded_ok {call : ExecutorCall} {x : Exec κ α} {s s' : ExecutorState κ} {a : α}
    (h : x s = .ok a s') : recorded call x s =
      .ok a { s' with history := ⟨call, s.executor, s.kernel, true⟩ :: s'.history } := by
  simp only [recorded, h]

theorem recorded_error {call : ExecutorCall} {x : Exec κ α} {s s' : ExecutorState κ}
    {e : NicAutoSwitchError} (h : x s = .error e s') : recorded call x s =
      .error e { s' with history := ⟨call, s.executor, s.kernel, false⟩ :: s'.history } := by
  simp only [recorded, h]

/- A call that returns is noted as one that returned. -/
theorem recorded_returned {call : ExecutorCall} {x : Exec κ α} {s s' : ExecutorState κ} {a : α}
    (h : recorded call x s = .ok a s') :
    ∃ older, s'.history = ⟨call, s.executor, s.kernel, true⟩ :: older := by
  unfold recorded at h
  cases hx : x s with
  | ok b s1 =>
    rw [hx] at h
    cases h
    exact ⟨s1.history, rfl⟩
  | error e s1 =>
    rw [hx] at h
    cases h

/- Run a program of the router layer on the kernel. -/
def onKernel (x : Net κ α) : Exec κ α := zoom (·.kernel) (fun k s => { s with kernel := k }) x

theorem onKernel_ok {x : Net κ α} {s : ExecutorState κ} {a : α} {k : κ}
    (h : x s.kernel = .ok a k) : onKernel x s = .ok a { s with kernel := k } := by
  simp only [onKernel, zoom, h]

theorem onKernel_error {x : Net κ α} {s : ExecutorState κ} {e : NicAutoSwitchError} {k : κ}
    (h : x s.kernel = .error e k) : onKernel x s = .error e { s with kernel := k } := by
  simp only [onKernel, zoom, h]

def fromExcept (x : Except NicAutoSwitchError α) : Exec κ α :=
  match x with
  | .ok a => pure a
  | .error e => throw e

namespace RuleExecutor

def new (routeManager : RouteManager) : RuleExecutor := { routeManager }

def setRouteManager (e : RuleExecutor) (rm : RouteManager) : RuleExecutor :=
  { e with routeManager := rm }

def isRouteActive (e : RuleExecutor) (ruleName : String) : Bool :=
  decide (ruleName ∈ e.activeRoutes)

def trackActiveRoute (e : RuleExecutor) (ruleName interface : String) (tableId : ℕ) :
    RuleExecutor :=
  { e with activeRoutes := e.activeRoutes.insert ruleName ⟨ruleName, interface, tableId⟩ }

def untrackActiveRoute (e : RuleExecutor) (ruleName : String) : RuleExecutor :=
  { e with activeRoutes := e.activeRoutes.erase ruleName }

def clearActiveRoutes (e : RuleExecutor) : RuleExecutor := { e with activeRoutes := ∅ }

def readExecutor : Exec κ RuleExecutor := fun s => .ok s.executor s

def modifyExecutor (f : RuleExecutor → RuleExecutor) : Exec κ Unit := fun s =>
  .ok () { s with executor := f s.executor }

variable (rt : Rtnetlink κ)

def applyRule (rule : RouteRule) (interfaceIndex tableId : ℕ) : Exec κ Unit :=
  recorded (.applyRule rule tableId) do
    let e ← readExecutor
    fromExcept (RuleOperator.validateRule rule)
    onKernel (RuleOperator.applyRule rt e.routeManager rule interfaceIndex tableId)
    modifyExecutor (·.trackActiveRoute rule.name rule.routeVia.interface tableId)

def removeRule (rule : RouteRule) (tableId : ℕ) : Exec κ Unit :=
  recorded (.removeRule rule tableId) do
    let e ← readExecutor
    onKernel (RuleOperator.removeRule rt e.routeManager rule tableId)
    modifyExecutor (·.untrackActiveRoute rule.name)

/- The loop of `apply_wifi_profile`. -/
def applyRules (interfaceIndex tableId : ℕ) : List RouteRule → ℕ → Exec κ ℕ
  | [], appliedCount => pure appliedCount
  | rule :: rest, appliedCount => do
    match ← attempt (applyRule rt rule interfaceIndex tableId) with
    | .ok () => applyRules interfaceIndex tableId rest (appliedCount + 1)
    | .error _ => applyRules interfaceIndex tableId rest appliedCount

def applyWifiProfile (profile : WifiProfile) (interfaceIndex tableId : ℕ) : Exec κ ℕ :=
  applyRules rt interfaceIndex tableId profile.rules 0

def flushInterface (interface : String) (tableId : ℕ) : Exec κ ℕ := do
  let e ← readExecutor
  let count ← onKernel (e.routeManager.flushInterfaceRoutes rt interface tableId)
  modifyExecutor fun e =>
    { e with activeRoutes := retain (fun _ route => route.interface != interface) e.activeRoutes }
  return count

/-! The state after a call, by the outcome of its requests. -/

section Outcome

variable {rt} {s : ExecutorState κ} {rule : RouteRule} {t : ℕ} {k : κ} {e : NicAutoSwitchError}

theorem readExecutor_ok (s : ExecutorState κ) :
    (readExecutor : Exec κ RuleExecutor) s = .ok s.executor s := rfl

theorem applyRule_ok {index : ℕ} (hv : RuleOperator.validateRule rule = .ok ())
    (hk : RuleOperator.applyRule rt s.executor.routeManager rule index t s.kernel = .ok () k) :
    applyRule rt rule index t s = .ok ()
      { executor := s.executor.trackActiveRoute rule.name rule.routeVia.interface t
        kernel := k
        history := ⟨.applyRule rule t, s.executor, s.kernel, true⟩ :: s.history } := by
  have hx : (fromExcept (RuleOperator.validateRule rule) : Exec κ Unit) s = .ok () s := by
    rw [hv]
    rfl
  unfold applyRule
  rw [recorded_ok ((bind_ok (readExecutor_ok s)).trans ((bind_ok hx).trans
    ((bind_ok (onKernel_ok hk)).trans rfl)))]

theorem applyRule_invalid (rt : Rtnetlink κ) (index t : ℕ) (s : ExecutorState κ)
    (hv : RuleOperator.validateRule rule = .error e) :
    applyRule rt rule index t s = .error e
      { s with history := ⟨.applyRule rule t, s.executor, s.kernel, false⟩ :: s.history } := by
  have hx : (fromExcept (RuleOperator.validateRule rule) : Exec κ Unit) s = .error e s := by
    rw [hv]
    rfl
  unfold applyRule
  rw [recorded_error ((bind_ok (readExecutor_ok s)).trans (bind_error hx))]

theorem applyRule_error {index : ℕ} (hv : RuleOperator.validateRule rule = .ok ())
    (hk : RuleOperator.applyRule rt s.executor.routeManager rule index t s.kernel = .error e k) :
    applyRule rt rule index t s = .error e
      { executor := s.executor
        kernel := k
        history := ⟨.applyRule rule t, s.executor, s.kernel, false⟩ :: s.history } := by
  have hx : (fromExcept (RuleOperator.validateRule rule) : Exec κ Unit) s = .ok () s := by
    rw [hv]
    rfl
  unfold applyRule
  rw [recorded_error ((bind_ok (readExecutor_ok s)).trans ((bind_ok hx).trans
    (bind_error (onKernel_error hk))))]

theorem removeRule_ok
    (hk : RuleOperator.removeRule rt s.executor.routeManager rule t s.kernel = .ok () k) :
    removeRule rt rule t s = .ok ()
      { executor := s.executor.untrackActiveRoute rule.name
        kernel := k
        history := ⟨.removeRule rule t, s.executor, s.kernel, true⟩ :: s.history } := by
  unfold removeRule
  rw [recorded_ok ((bind_ok (readExecutor_ok s)).trans ((bind_ok (onKernel_ok hk)).trans rfl))]

theorem removeRule_error
    (hk : RuleOperator.removeRule rt s.executor.routeManager rule t s.kernel = .error e k) :
    removeRule rt rule t s = .error e
      { executor := s.executor
        kernel := k
        history := ⟨.removeRule rule t, s.executor, s.kernel, false⟩ :: s.history } := by
  unfold removeRule
  rw [recorded_error ((bind_ok (readExecutor_ok s)).trans (bind_error (onKernel_error hk)))]

theorem flushInterface_ok {interface : String} {count : ℕ}
    (hk : s.executor.routeManager.flushInterfaceRoutes rt interface t s.kernel = .ok count k) :
    flushInterface rt interface t s = .ok count
      { executor :=
          { s.executor with
            activeRoutes :=
              retain (fun _ route => route.interface != interface) s.executor.activeRoutes }
        kernel := k
        history := s.history } :=
  (bind_ok (readExecutor_ok s)).trans ((bind_ok (onKernel_ok hk)).trans rfl)

theorem flushInterface_error {interface : String}
    (hk : s.executor.routeManager.flushInterfaceRoutes rt interface t s.kernel = .error e k) :
    flushInterface rt interface t s = .error e { s with kernel := k } :=
  (bind_ok (readExecutor_ok s)).trans (bind_error (onKernel_error hk))

end Outcome

end RuleExecutor

end NicAutoswitch.Engine
