import Mastership.Role

namespace Mastership

inductive DeviceKind where
  | switch
  | router
  | roadm
  | other
deriving DecidableEq, Repr, Inhabited

structure DeviceDescription where
  kind : DeviceKind
  manufacturer : String
  hardware : String
  software : String
  serial : String
  chassis : String
deriving DecidableEq, Repr, Inhabited

/-- A switch of which only the manufacturer and the software version are known. -/
def DeviceDescription.switch (manufacturer software : String) : DeviceDescription :=
  ⟨.switch, manufacturer, "", software, "", ""⟩

structure Device where
  id : DeviceId
  provider : ProviderId
  description : DeviceDescription
  available : Bool
deriving DecidableEq, Repr, Inhabited

inductive PortKind where
  | copper
  | fiber
  | virtual
deriving DecidableEq, Repr, Inhabited

/-- What a provider tells about a port. Speed is in Mbit/s. -/
structure PortDescription where
  number : Nat
  enabled : Bool
  kind : PortKind
  speed : Nat
deriving DecidableEq, Repr, Inhabited

def PortDescription.gigabit (number : Nat) (enabled : Bool) : PortDescription :=
  ⟨number, enabled, .copper, 1000⟩

structure Port where
  device : DeviceId
  number : Nat
  enabled : Bool
  kind : PortKind
  speed : Nat
deriving DecidableEq, Repr, Inhabited

/-- The port of a device that fits a description. -/
def PortDescription.on (p : PortDescription) (d : DeviceId) : Port :=
  ⟨d, p.number, p.enabled, p.kind, p.speed⟩

/-- The same port, taken down. -/
def Port.disabled (p : Port) : PortDescription :=
  ⟨p.number, false, p.kind, p.speed⟩

structure PortStatistics where
  port : Nat
  packetsReceived : Nat
  packetsSent : Nat
  bytesReceived : Nat
  bytesSent : Nat
  seconds : Nat
deriving DecidableEq, Repr, Inhabited

inductive DeviceEvent.Kind where
  | deviceAdded
  | deviceUpdated
  | deviceRemoved
  | availabilityChanged
  | mastershipChanged
  | portAdded
  | portUpdated
  | portRemoved
  | portStatsUpdated
deriving DecidableEq, Repr, Inhabited

def DeviceEvent.Kind.text : DeviceEvent.Kind → String
  | .deviceAdded => "DEVICE_ADDED"
  | .deviceUpdated => "DEVICE_UPDATED"
  | .deviceRemoved => "DEVICE_REMOVED"
  | .availabilityChanged => "DEVICE_AVAILABILITY_CHANGED"
  | .mastershipChanged => "DEVICE_MASTERSHIP_CHANGED"
  | .portAdded => "PORT_ADDED"
  | .portUpdated => "PORT_UPDATED"
  | .portRemoved => "PORT_REMOVED"
  | .portStatsUpdated => "PORT_STATS_UPDATED"

/-- A change of a device, with the device as it is after the change. A port event names its port, a
mastership event the role that was applied. -/
structure DeviceEvent where
  kind : DeviceEvent.Kind
  device : Device
  port : Option Port := none
  role : Option Role := none
deriving DecidableEq, Repr, Inhabited

namespace DeviceEvent

def ofDevice (kind : Kind) (device : Device) : DeviceEvent := { kind, device }

def ofPort (kind : Kind) (device : Device) (port : Port) : DeviceEvent :=
  { kind, device, port := some port }

def ofRole (device : Device) (role : Role) : DeviceEvent :=
  { kind := .mastershipChanged, device, role := some role }

/-- Whether the event says that its device went away. -/
def isOffline (e : DeviceEvent) : Bool :=
  e.kind == .availabilityChanged && !e.device.available

end DeviceEvent
end Mastership
