import NicAutoswitch.Monitor.State
import NicAutoswitch.Router.Rtnetlink

/-!
# Netlink monitoring (monitor/netlink.rs)

A dump of the links is the stream of its items; an item may be an error.
-/

namespace NicAutoswitch.Monitor
open HashMaps Router

inductive LinkFlag where
  | up
  | running
  | other (code : ℕ)
  deriving Repr, DecidableEq

inductive LinkAttribute where
  | ifName (name : String)
  | other (kind : ℕ)
  deriving Repr, DecidableEq

structure LinkMessage where
  index : ℕ
  flags : List LinkFlag := []
  attributes : List LinkAttribute := []
  deriving Repr, DecidableEq

structure LinkSnapshot where
  name : String
  isUp : Bool
  deriving Repr, DecidableEq

structure NetlinkMonitor where
  handle : Option Handle
  prevState : HashMap ℕ LinkSnapshot := ∅
  pending : List NetworkEvent := []

abbrev LinkOrder := IterOrder (Σ _ : ℕ, LinkSnapshot)

/- The first name among the attributes, else "if" and the index. -/
def linkName (link : LinkMessage) : String :=
  (link.attributes.findSome? fun
    | .ifName name => some name
    | _ => none).getD s!"if{link.index}"

namespace NetlinkMonitor

def extractLinkSnapshot (link : LinkMessage) : LinkSnapshot where
  name := linkName link
  isUp := decide (LinkFlag.up ∈ link.flags) && decide (LinkFlag.running ∈ link.flags)

/- A link counts as up here without the Running flag. -/
def linkToInterfaceInfo (link : LinkMessage) : InterfaceInfo where
  name := linkName link
  interfaceType :=
    if "wl".toList <+: (linkName link).toList ∨ "wlan".toList <+: (linkName link).toList then .wlan
    else .lan
  isUp := decide (LinkFlag.up ∈ link.flags)

/- `while let Some(link) = links.try_next().await? { .. }` -/
def collect {α : Type} (visit : α → LinkMessage → α) :
    List (Except RtError LinkMessage) → α → Except NicAutoSwitchError α
  | [], acc => .ok acc
  | .error e :: _, _ => .error (.network s!"Failed to enumerate links: {e}")
  | .ok link :: rest, acc => collect visit rest (visit acc link)

def snapshotInterfaces (m : NetlinkMonitor) (links : List (Except RtError LinkMessage)) :
    Except NicAutoSwitchError (HashMap ℕ LinkSnapshot) :=
  match m.handle with
  | none => .ok ∅
  | some _ => collect (fun acc link => acc.insert link.index (extractLinkSnapshot link)) links ∅

def getInterfaces (m : NetlinkMonitor) (links : List (Except RtError LinkMessage)) :
    Except NicAutoSwitchError (List InterfaceInfo) :=
  match m.handle with
  | none => .ok []
  | some _ => collect (fun acc link => acc ++ [linkToInterfaceInfo link]) links []

/- `new` keeps an empty snapshot where the first dump fails. -/
def new (connection : Except String Handle) (links : List (Except RtError LinkMessage)) :
    NetlinkMonitor :=
  let handle := match connection with
    | .ok handle => some handle
    | .error _ => none
  let monitor : NetlinkMonitor := { handle }
  match monitor.snapshotInterfaces links with
  | .ok interfaces => { monitor with prevState := interfaces }
  | .error _ => monitor

/- The first loop of `poll_changes`, over the current links. -/
def detectChanges (prevState : HashMap ℕ LinkSnapshot) :
    List (Σ _ : ℕ, LinkSnapshot) → List NetworkEvent → List NetworkEvent
  | [], events => events
  | ⟨index, snap⟩ :: rest, events =>
    detectChanges prevState rest <|
      match prevState.lookup index with
      | some prev =>
        if prev.isUp ≠ snap.isUp then
          events ++ [.interfaceChanged snap.name (if snap.isUp then .up else .down)]
        else events
      | none => if snap.isUp then events ++ [.interfaceChanged snap.name .up] else events

/- The second loop of `poll_changes`, over the previous links. -/
def detectRemoved (current : HashMap ℕ LinkSnapshot) :
    List (Σ _ : ℕ, LinkSnapshot) → List NetworkEvent → List NetworkEvent
  | [], events => events
  | ⟨index, snap⟩ :: rest, events =>
    detectRemoved current rest <|
      if index ∈ current then events else events ++ [.interfaceChanged snap.name .removed]

/- The two maps are met in the given orders. -/
def pollChanges (currentOrder previousOrder : LinkOrder) (m : NetlinkMonitor)
    (links : List (Except RtError LinkMessage)) :
    Except NicAutoSwitchError (List NetworkEvent × NetlinkMonitor) := do
  let current ← m.snapshotInterfaces links
  let changes := detectChanges m.prevState (currentOrder.arrange current.entries) []
  let events := detectRemoved current (previousOrder.arrange m.prevState.entries) changes
  return (events, { m with pending := m.pending ++ events, prevState := current })

end NetlinkMonitor

end NicAutoswitch.Monitor
