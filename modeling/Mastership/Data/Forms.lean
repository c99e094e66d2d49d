import Mastership.Data
import Mastership.Device
import Mastership.Clock
import Mastership.Settings
import Mastership.Simulation

namespace Mastership

open Data

namespace Role

def names : List (String × Role) := [("None", .none), ("Master", .master), ("Standby", .standby)]

def ofData? (d : Data) : Option Role := name? names d

def toData : Role → Data
  | .none => .text "None"
  | .master => .text "Master"
  | .standby => .text "Standby"

end Role

namespace NodeId

def ofData? (d : Data) : Option NodeId := d.text?.map NodeId.mk

def toData (n : NodeId) : Data := .text n.name

end NodeId

namespace DeviceId

def ofData? (d : Data) : Option DeviceId := d.text?.map DeviceId.mk

def toData (d : DeviceId) : Data := .text d.uri

end DeviceId

/-- Null, or the form of a value. -/
def Data.ofOption {α : Type} (form : α → Data) : Option α → Data
  | none => .null
  | some a => form a

def Data.ofNat (n : Nat) : Data := .int n

namespace ProviderId

def ofData? (d : Data) : Option ProviderId := do
  let r ← d.record? .refused 2
  return ⟨← r.required 0 "scheme" text?, ← r.required 1 "id" text?⟩

def toData (p : ProviderId) : Data := .map [("scheme", .text p.scheme), ("id", .text p.name)]

end ProviderId

namespace Term

def ofData? (d : Data) : Option Term := do
  let r ← d.record? .refused 2
  return ⟨← r.required 0 "owner" NodeId.ofData?, ← r.required 1 "epoch" nat?⟩

def toData (t : Term) : Data := .map [("owner", t.owner.toData), ("epoch", .ofNat t.epoch)]

end Term

namespace Standing

def ofData? (d : Data) : Option Standing := do
  let r ← d.record? .refused 2
  return ⟨← r.optional 0 "master" NodeId.ofData?, ← r.required 1 "backups" (listOf? NodeId.ofData?)⟩

def toData (s : Standing) : Data :=
  .map [("master", .ofOption NodeId.toData s.master),
    ("backups", .list (s.backups.map NodeId.toData))]

end Standing

namespace Announcement

def Kind.names : List (String × Kind) := [("MasterChanged", .master), ("BackupsChanged", .backups)]

def Kind.toData : Kind → Data
  | .master => .text "MasterChanged"
  | .backups => .text "BackupsChanged"

def ofData? (d : Data) : Option Announcement := do
  let r ← d.record? .refused 3
  return ⟨← r.required 0 "event_type" (name? Kind.names), ← r.required 1 "device" DeviceId.ofData?,
    ← r.required 2 "role_info" Standing.ofData?⟩

def toData (a : Announcement) : Data :=
  .map [("event_type", a.kind.toData), ("device", a.device.toData),
    ("role_info", a.standing.toData)]

end Announcement

namespace Timestamp

def ofData? (d : Data) : Option Timestamp := do
  let r ← d.record? .refused 2
  return ⟨← r.required 0 "epoch" nat?, ← r.required 1 "sequence" nat?⟩

def toData (t : Timestamp) : Data :=
  .map [("epoch", .ofNat t.epoch), ("sequence", .ofNat t.sequence)]

end Timestamp

namespace DeviceKind

def names : List (String × DeviceKind) :=
  [("Switch", .switch), ("Router", .router), ("Roadm", .roadm), ("Other", .other)]

def toData : DeviceKind → Data
  | .switch => .text "Switch"
  | .router => .text "Router"
  | .roadm => .text "Roadm"
  | .other => .text "Other"

end DeviceKind

namespace DeviceDescription

def ofData? (d : Data) : Option DeviceDescription := do
  let r ← d.record? .refused 6
  return {
    kind := ← r.required 0 "device_type" (name? DeviceKind.names)
    manufacturer := ← r.required 1 "manufacturer" text?
    hardware := ← r.required 2 "hw_version" text?
    software := ← r.required 3 "sw_version" text?
    serial := ← r.required 4 "serial_number" text?
    chassis := ← r.required 5 "chassis_id" text? }

def toData (d : DeviceDescription) : Data :=
  .map [("device_type", d.kind.toData), ("manufacturer", .text d.manufacturer),
    ("hw_version", .text d.hardware), ("sw_version", .text d.software),
    ("serial_number", .text d.serial), ("chassis_id", .text d.chassis)]

end DeviceDescription

namespace Device

def ofData? (d : Data) : Option Device := do
  let r ← d.record? .refused 4
  return {
    id := ← r.required 0 "id" DeviceId.ofData?
    provider := ← r.required 1 "provider_id" ProviderId.ofData?
    description := ← r.required 2 "description" DeviceDescription.ofData?
    available := ← r.required 3 "available" bool? }

def toData (d : Device) : Data :=
  .map [("id", d.id.toData), ("provider_id", d.provider.toData),
    ("description", d.description.toData), ("available", .bool d.available)]

end Device

namespace PortKind

def names : List (String × PortKind) :=
  [("Copper", .copper), ("Fiber", .fiber), ("Virtual", .virtual)]

def toData : PortKind → Data
  | .copper => .text "Copper"
  | .fiber => .text "Fiber"
  | .virtual => .text "Virtual"

end PortKind

namespace PortDescription

def ofData? (d : Data) : Option PortDescription := do
  let r ← d.record? .refused 4
  return {
    number := ← r.required 0 "number" nat?
    enabled := ← r.required 1 "enabled" bool?
    kind := ← r.required 2 "port_type" (name? PortKind.names)
    speed := ← r.required 3 "speed_mbps" nat? }

def toData (p : PortDescription) : Data :=
  .map [("number", .ofNat p.number), ("enabled", .bool p.enabled), ("port_type", p.kind.toData),
    ("speed_mbps", .ofNat p.speed)]

end PortDescription

namespace Port

def ofData? (d : Data) : Option Port := do
  let r ← d.record? .refused 5
  return {
    device := ← r.required 0 "device_id" DeviceId.ofData?
    number := ← r.required 1 "number" nat?
    enabled := ← r.required 2 "enabled" bool?
    kind := ← r.required 3 "port_type" (name? PortKind.names)
    speed := ← r.required 4 "speed_mbps" nat? }

def toData (p : Port) : Data :=
  .map [("device_id", p.device.toData), ("number", .ofNat p.number), ("enabled", .bool p.enabled),
    ("port_type", p.kind.toData), ("speed_mbps", .ofNat p.speed)]

end Port

namespace PortStatistics

def ofData? (d : Data) : Option PortStatistics := do
  let r ← d.record? .refused 6
  return {
    port := ← r.required 0 "port" nat?
    packetsReceived := ← r.required 1 "packets_received" nat?
    packetsSent := ← r.required 2 "packets_sent" nat?
    bytesReceived := ← r.required 3 "bytes_received" nat?
    bytesSent := ← r.required 4 "bytes_sent" nat?
    seconds := ← r.required 5 "duration_secs" nat? }

def toData (s : PortStatistics) : Data :=
  .map [("port", .ofNat s.port), ("packets_received", .ofNat s.packetsReceived),
    ("packets_sent", .ofNat s.packetsSent), ("bytes_received", .ofNat s.bytesReceived),
    ("bytes_sent", .ofNat s.bytesSent), ("duration_secs", .ofNat s.seconds)]

end PortStatistics

namespace DeviceEvent.Kind

def names : List (String × DeviceEvent.Kind) :=
  [("DeviceAdded", .deviceAdded), ("DeviceUpdated", .deviceUpdated),
    ("DeviceRemoved", .deviceRemoved), ("DeviceAvailabilityChanged", .availabilityChanged),
    ("DeviceMastershipChanged", .mastershipChanged), ("PortAdded", .portAdded),
    ("PortUpdated", .portUpdated), ("PortRemoved", .portRemoved),
    ("PortStatsUpdated", .portStatsUpdated)]

def toData : DeviceEvent.Kind → Data
  | .deviceAdded => .text "DeviceAdded"
  | .deviceUpdated => .text "DeviceUpdated"
  | .deviceRemoved => .text "DeviceRemoved"
  | .availabilityChanged => .text "DeviceAvailabilityChanged"
  | .mastershipChanged => .text "DeviceMastershipChanged"
  | .portAdded => .text "PortAdded"
  | .portUpdated => .text "PortUpdated"
  | .portRemoved => .text "PortRemoved"
  | .portStatsUpdated => .text "PortStatsUpdated"

end DeviceEvent.Kind

def Call.toData : Call → Data
  | .role d r => .map [("RoleChanged", .list [d.toData, r.toData])]
  | .probe d => .map [("Probe", d.toData)]

namespace AuditSettings

/-- Missing settings have their defaults. -/
def ofData? (surplus : Surplus) (d : Data) : Option AuditSettings := do
  let r ← d.record? surplus 3
  return {
    interval := ← r.withDefault 0 "audit_interval_secs" 60 nat?
    concurrency := ← r.withDefault 1 "audit_concurrency" 16 nat?
    timeout := ← r.withDefault 2 "device_check_timeout_ms" 5000 nat? }

def toData (s : AuditSettings) : Data :=
  .map [("audit_interval_secs", .ofNat s.interval), ("audit_concurrency", .ofNat s.concurrency),
    ("device_check_timeout_ms", .ofNat s.timeout)]

end AuditSettings

namespace LogSettings

def ofData? (surplus : Surplus) (d : Data) : Option LogSettings := do
  let r ← d.record? surplus 2
  return {
    level := ← r.withDefault 0 "level" "info" text?
    format := ← r.withDefault 1 "format" "pretty" text? }

def toData (s : LogSettings) : Data :=
  .map [("level", .text s.level), ("format", .text s.format)]

end LogSettings

namespace Settings

def nodeOf? (surplus : Surplus) (d : Data) : Option String := do
  let r ← d.record? surplus 1
  r.required 0 "id" text?

def bufferOf? (surplus : Surplus) (d : Data) : Option Nat := do
  let r ← d.record? surplus 1
  r.withDefault 0 "buffer_size" 1024 nat?

/-- Only the member's name must be given. -/
def ofData? (surplus : Surplus) (d : Data) : Option Settings := do
  let r ← d.record? surplus 4
  return {
    node := ← r.required 0 "node" (nodeOf? surplus)
    audit := ← r.withDefault 1 "mastership" {} (AuditSettings.ofData? surplus)
    buffer := ← r.withDefault 2 "events" 1024 (bufferOf? surplus)
    log := ← r.withDefault 3 "logging" {} (LogSettings.ofData? surplus) }

def toData (s : Settings) : Data :=
  .map [("node", .map [("id", .text s.node)]), ("mastership", s.audit.toData),
    ("events", .map [("buffer_size", .ofNat s.buffer)]), ("logging", s.log.toData)]

end Settings

namespace Simulation

def DeviceView.toData (v : DeviceView) : Data :=
  .map [("device", v.device.toData), ("applied", v.applied.toData), ("elected", v.elected.toData),
    ("epoch", .ofNat v.epoch), ("available", .bool v.available)]

def NodeView.toData (v : NodeView) : Data :=
  .map [("node", v.node.toData), ("active", .bool v.active),
    ("devices", .list (v.devices.map DeviceView.toData))]

def View.toData (v : View) : Data :=
  .map [("masters", .map (v.masters.map fun (d, m) => (d.uri, .ofOption NodeId.toData m))),
    ("nodes", .list (v.nodes.map NodeView.toData))]

end Simulation
end Mastership
