import Mastership.Controller.Reconcile

namespace Mastership.Site

def providerId (s : Site) (slot : Nat) : ProviderId :=
  ((s.node.south.providers.get? slot).map Provider.id).getD default

/-- Why a callback through a slot is refused: the controller is not active, or no provider with the id
of the slot is registered. -/
def refusal? (s : Site) (slot : Nat) : Option Failure :=
  if !s.node.active then some .shuttingDown
  else if s.node.south.registry.isRegistered (s.providerId slot) then none
  else some (.providerInvalid (s.providerId slot).text)

def guarded (s : Site) (slot : Nat) (f : Site → Site) : Site × Outcome :=
  match s.refusal? slot with
  | some e => (s, .failed e)
  | none => (f s, .done)

/-- A device connected. This controller becomes a candidate and pushes the role that the term gives
it; the device is stored once the push is answered, or at once if the decision is stale. -/
def connected (s : Site) (slot : Nat) (d : DeviceId) (description : DeviceDescription) :
    Site × Option Push :=
  let provider := s.providerId slot
  let s := s.request d
  let (s, term) := s.observeTerm d
  let role := targetRole .none (s.owns term)
  let (s, current) := s.observeEpoch d term
  if current then s.startPush d role (term.map Term.epoch) (.store provider description)
  else (s.store provider d description, none)

def connect (s : Site) (slot : Nat) (d : DeviceId) (description : DeviceDescription) :
    (Site × Option Push) × Outcome :=
  match s.refusal? slot with
  | some e => ((s, none), .failed e)
  | none => (s.connected slot d description, .done)

inductive Marking where
  | marked (event : Option DeviceEvent)
  | refused (failure : Failure)
  | crashed
deriving DecidableEq, Repr, Inhabited

/-- Attempts to mark a device offline; the next fault in line strikes first. -/
def markOffline (s : Site) (d : DeviceId) : Site × Marking :=
  let fault := s.node.faults.offline.head?.join
  let faults := { s.node.faults with offline := s.node.faults.offline.tail }
  let s := { s with node := { s.node with faults } }
  match fault with
  | some .stale => (s, .refused (.staleMastership d))
  | some .internal => (s, .refused (.internal "store failed"))
  | some .crash => (s, .crashed)
  | none =>
    let (replica, clock, result) := s.node.replica.markOffline s.node.clock d
    let s := { s with node := { s.node with replica, clock } }
    match result with
    | .ok event => (s, .marked event)
    | .error e => (s, .refused e)

/-- Takes down all ports of a device. Nobody is told of it. -/
def disablePorts (s : Site) (d : DeviceId) : Site :=
  let down := (s.node.replica.ports d).map Port.disabled
  s.setReplica (s.node.replica.setPorts d down).1

/-- Marks a device offline that this controller no longer reaches. If it may not, because its view
of mastership is stale, it asks for the device and tries once more should it be the owner. -/
def markDisconnected (s : Site) (d : DeviceId) : Site × Marking :=
  let s := s.disablePorts d
  match s.markOffline d with
  | (s, .refused e) =>
    if e.isStale then
      let s := s.request d
      let (s, term) := s.observeTerm d
      if s.owns term then s.markOffline d else (s, .marked none)
    else (s, .refused e)
  | (s, m) => (s, m)

/-- Gives up a device and forgets the role applied to it. -/
def release (s : Site) (d : DeviceId) : Site :=
  let s := s.relinquish d
  s.setRoles (s.node.roles.forget d)

/-- A device disconnected. It is marked offline and given up, however the marking ends. -/
def disconnected (s : Site) (d : DeviceId) : Site × Outcome :=
  let (s, m) := s.markDisconnected d
  let s := s.release d
  match m with
  | .marked event => (s.postAll event.toList, .done)
  | .refused e => (s, .failed e)
  | .crashed => (s, .crashed)

def disconnect (s : Site) (slot : Nat) (d : DeviceId) : Site × Outcome :=
  match s.refusal? slot with
  | some e => (s, .failed e)
  | none => s.disconnected d

/-- The full list of a device's ports, which only counts if this controller may stamp the device. -/
def portsReported (s : Site) (d : DeviceId) (ps : List PortDescription) : Site :=
  if s.node.clock.available d then
    let (replica, events) := s.node.replica.setPorts d ps
    (s.setReplica replica).postAll events
  else s

/-- A change of one port, which only counts if this controller may stamp the device. -/
def portReported (s : Site) (d : DeviceId) (p : PortDescription) : Site :=
  if s.node.clock.available d then
    let (replica, event) := s.node.replica.setPort d p
    (s.setReplica replica).postAll event.toList
  else s

def statisticsReported (s : Site) (d : DeviceId) (ss : List PortStatistics) : Site :=
  let (replica, event) := s.node.replica.setStatistics d ss
  (s.setReplica replica).postAll event.toList

/-- A device replied to a role request. No reply to no request tells of a sick channel, and a device
that answers MASTER when asked for something else may obey us alone; either way it is given up. -/
def roleReplied (s : Site) (d : DeviceId) (requested response : Option Role) : Site :=
  match requested, response with
  | none, none => s.relinquish d
  | _, _ => if requested ≠ response ∧ response = some .master then s.relinquish d else s

def setPorts (s : Site) (slot : Nat) (d : DeviceId) (ps : List PortDescription) : Site × Outcome :=
  s.guarded slot (·.portsReported d ps)

def setPort (s : Site) (slot : Nat) (d : DeviceId) (p : PortDescription) : Site × Outcome :=
  s.guarded slot (·.portReported d p)

def setStatistics (s : Site) (slot : Nat) (d : DeviceId) (ss : List PortStatistics) :
    Site × Outcome :=
  s.guarded slot (·.statisticsReported d ss)

def roleReply (s : Site) (slot : Nat) (d : DeviceId) (requested response : Option Role) :
    Site × Outcome :=
  s.guarded slot (·.roleReplied d requested response)

def remove (s : Site) (d : DeviceId) : Site :=
  match s.node.replica.remove d with
  | (_, none) => s
  | (replica, some event) =>
    ({ s with node := { s.node with replica, roles := s.node.roles.forget d } }).post event

def setSouth (s : Site) (south : Southbound) : Site := { s with node := { s.node with south } }

/-- Registers a new provider, in the next slot; answers with the slot. -/
def register (s : Site) (id : ProviderId) : Site × Except Failure Nat :=
  let slot := s.node.south.providers.size
  match (s.node.south.add id).register id slot with
  | .error e => (s, .error e)
  | .ok south => (s.setSouth south, .ok slot)

/-- Unregisters the provider with exactly this id; answers whether there was one. -/
def unregister (s : Site) (id : ProviderId) : Site × Bool :=
  let (south, found) := s.node.south.unregister id
  (s.setSouth south, found)

/-- Changes the line to a device, as the provider in a slot finds it. -/
def setLine (s : Site) (slot : Nat) (d : DeviceId) (f : Line → Line) : Site :=
  s.setSouth (s.node.south.setLine slot d f)

def setFaults (s : Site) (f : Faults → Faults) : Site :=
  { s with node := { s.node with faults := f s.node.faults } }

end Mastership.Site
