import Mastership.Clock
import Mastership.Device
import Mastership.Failure

namespace Mastership

/-- A stored device with its ports and counters, both by port number. -/
structure Replica.Record where
  device : Device
  ports : Table Nat Port := ∅
  statistics : Table Nat PortStatistics := ∅
deriving DecidableEq, Repr

namespace Replica.Record

/-- Writes one port. A port that is as described already gives no event. -/
def setPort (r : Record) (p : PortDescription) : Record × Option DeviceEvent :=
  let port := p.on r.device.id
  let written := { r with ports := r.ports.insert p.number port }
  match r.ports.get? p.number with
  | none => (written, some (.ofPort .portAdded r.device port))
  | some old =>
    if old = port then (r, none)
    else (written, some (.ofPort .portUpdated r.device port))

def setEach (r : Record) : List PortDescription → Record × List DeviceEvent
  | [] => (r, [])
  | p :: ps =>
    let (r₁, e) := r.setPort p
    let (r₂, es) := r₁.setEach ps
    (r₂, e.toList ++ es)

def removePort (r : Record) (number : Nat) : Record × Option DeviceEvent :=
  match r.ports.get? number with
  | none => (r, none)
  | some port =>
    ({ r with ports := r.ports.erase number, statistics := r.statistics.erase number },
      some (.ofPort .portRemoved r.device port))

def removeEach (r : Record) : List Nat → Record × List DeviceEvent
  | [] => (r, [])
  | n :: ns =>
    let (r₁, e) := r.removePort n
    let (r₂, es) := r₁.removeEach ns
    (r₂, e.toList ++ es)

/-- Makes the ports exactly those described: writes them in order, then drops the others in
ascending order. -/
def setPorts (r : Record) (ps : List PortDescription) : Record × List DeviceEvent :=
  let (r₁, written) := r.setEach ps
  let (r₂, dropped) := r₁.removeEach (r₁.ports.keys.filter (· ∉ ps.map PortDescription.number))
  (r₂, written ++ dropped)

/-- Takes over counters, port by port; they need no port to be stored. -/
def setStatistics (r : Record) (ss : List PortStatistics) : Record :=
  { r with statistics := ss.foldl (fun t s => t.insert s.port s) r.statistics }

end Replica.Record

/-- A member's own copy of the devices, their ports and their counters. Each write answers with the
events that tell what it changed, and none if it changed nothing. -/
structure Replica where
  records : Table DeviceId Replica.Record := ∅
deriving DecidableEq, Repr

namespace Replica

def device? (r : Replica) (d : DeviceId) : Option Device :=
  (r.records.get? d).map Record.device

def isAvailable (r : Replica) (d : DeviceId) : Bool :=
  (r.device? d).any Device.available

def count (r : Replica) : Nat := r.records.size

def devices (r : Replica) : List Device := r.records.values.map Record.device

def availableDevices (r : Replica) : List Device := r.devices.filter Device.available

def ports (r : Replica) (d : DeviceId) : List Port :=
  match r.records.get? d with
  | none => []
  | some rec => rec.ports.values

def port? (r : Replica) (d : DeviceId) (number : Nat) : Option Port :=
  (r.records.get? d).bind (·.ports.get? number)

/-- Counters of a device in ascending order of ports. -/
def statistics (r : Replica) (d : DeviceId) : List PortStatistics :=
  match r.records.get? d with
  | none => []
  | some rec => rec.statistics.values

/-- Stores a device that a provider told of, as available. A device that is stored already keeps
its ports and counters. -/
def put (r : Replica) (provider : ProviderId) (d : DeviceId) (description : DeviceDescription) :
    Replica × Option DeviceEvent :=
  let device : Device := ⟨d, provider, description, true⟩
  match r.records.get? d with
  | none => (⟨r.records.insert d { device }⟩, some (.ofDevice .deviceAdded device))
  | some rec =>
    let event :=
      if rec.device.description ≠ description ∨ rec.device.provider ≠ provider then
        some (.ofDevice .deviceUpdated device)
      else if rec.device.available then none
      else some (.ofDevice .availabilityChanged device)
    (⟨r.records.insert d { rec with device }⟩, event)

/-- Marks a stored device unavailable, which takes an ownership timestamp even if the device is
unavailable already. Without one the write is refused. -/
def markOffline (r : Replica) (c : Clock) (d : DeviceId) :
    Replica × Clock × Except Failure (Option DeviceEvent) :=
  match r.records.get? d with
  | none => (r, c, .ok none)
  | some rec =>
    match c.next d with
    | (_, none) => (r, c, .error (.staleMastership d))
    | (c', some _) =>
      if rec.device.available then
        let device := { rec.device with available := false }
        (⟨r.records.insert d { rec with device }⟩, c',
          .ok (some (.ofDevice .availabilityChanged device)))
      else (r, c', .ok none)

def setPorts (r : Replica) (d : DeviceId) (ps : List PortDescription) :
    Replica × List DeviceEvent :=
  match r.records.get? d with
  | none => (r, [])
  | some rec =>
    let (rec', events) := rec.setPorts ps
    (⟨r.records.insert d rec'⟩, events)

def setPort (r : Replica) (d : DeviceId) (p : PortDescription) : Replica × Option DeviceEvent :=
  match r.records.get? d with
  | none => (r, none)
  | some rec =>
    let (rec', event) := rec.setPort p
    (⟨r.records.insert d rec'⟩, event)

def setStatistics (r : Replica) (d : DeviceId) (ss : List PortStatistics) :
    Replica × Option DeviceEvent :=
  match r.records.get? d with
  | none => (r, none)
  | some rec =>
    (⟨r.records.insert d (rec.setStatistics ss)⟩, some (.ofDevice .portStatsUpdated rec.device))

def remove (r : Replica) (d : DeviceId) : Replica × Option DeviceEvent :=
  match r.records.get? d with
  | none => (r, none)
  | some rec => (⟨r.records.erase d⟩, some (.ofDevice .deviceRemoved rec.device))

variable (r : Replica) {d d' : DeviceId}

theorem get?_put_of_ne (h : d' ≠ d) (provider : ProviderId) (description : DeviceDescription) :
    (r.put provider d description).1.records.get? d' = r.records.get? d' := by
  simp only [put]
  split <;> exact Table.get?_insert_of_ne _ _ h.symm

theorem get?_markOffline_of_ne (h : d' ≠ d) (c : Clock) :
    (r.markOffline c d).1.records.get? d' = r.records.get? d' := by
  simp only [markOffline]
  split
  · rfl
  · split
    · rfl
    · split
      · exact Table.get?_insert_of_ne _ _ h.symm
      · rfl

theorem clock_markOffline_of_ne (h : d' ≠ d) (c : Clock) :
    (r.markOffline c d).2.1.entries.get? d' = c.entries.get? d' := by
  simp only [markOffline]
  split
  · rfl
  · split
    · rfl
    · next c' _ hn =>
      rw [← Clock.get?_next_of_ne c h, hn]
      split <;> rfl

theorem get?_setPorts_of_ne (h : d' ≠ d) (ps : List PortDescription) :
    (r.setPorts d ps).1.records.get? d' = r.records.get? d' := by
  simp only [setPorts]
  split
  · rfl
  · exact Table.get?_insert_of_ne _ _ h.symm

theorem get?_setPort_of_ne (h : d' ≠ d) (p : PortDescription) :
    (r.setPort d p).1.records.get? d' = r.records.get? d' := by
  simp only [setPort]
  split
  · rfl
  · exact Table.get?_insert_of_ne _ _ h.symm

theorem get?_setStatistics_of_ne (h : d' ≠ d) (ss : List PortStatistics) :
    (r.setStatistics d ss).1.records.get? d' = r.records.get? d' := by
  simp only [setStatistics]
  split
  · rfl
  · exact Table.get?_insert_of_ne _ _ h.symm

theorem get?_remove_of_ne (h : d' ≠ d) :
    (r.remove d).1.records.get? d' = r.records.get? d' := by
  simp only [remove]
  split
  · rfl
  · exact Table.get?_erase_of_ne _ h.symm

theorem device?_put (d : DeviceId) (provider : ProviderId) (description : DeviceDescription) :
    (r.put provider d description).1.device? d = some ⟨d, provider, description, true⟩ := by
  simp only [put, device?]
  split <;> simp

end Replica
end Mastership
