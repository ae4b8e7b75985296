import NicAutoswitch.Ip

/-! # Network events (monitor/events.rs) -/

namespace NicAutoswitch.Monitor

inductive InterfaceChange where
  | up
  | down
  | added
  | removed
  deriving Repr, DecidableEq

inductive NetworkEvent where
  | interfaceChanged (interface : String) (change : InterfaceChange)
  | wifiConnected (interface ssid : String)
  | wifiDisconnected (interface : String) (lastSsid : Option String)
  | addressChanged (interface : String) (added removed : List IpNetwork)
  | routeChanged (interface : Option String) (destination : IpNetwork)
      (gateway : Option IpAddr) (added : Bool)
  deriving Repr, DecidableEq

/- The interface of the event, if it has one. -/
def NetworkEvent.interface : NetworkEvent → Option String
  | .interfaceChanged interface _ | .wifiConnected interface _ | .wifiDisconnected interface _
  | .addressChanged interface _ _ => some interface
  | .routeChanged interface _ _ _ => interface

end NicAutoswitch.Monitor
