import Mastership.Registry

namespace Mastership

/-- The control channel to one device, as its provider finds it. -/
structure Line where
  reachable : Bool := false
  /-- The device refuses roles. -/
  rejecting : Bool := false
  /-- The provider fails whenever a role is pushed. -/
  broken : Bool := false
  /-- The provider crashes whenever it is asked whether the device can be reached. -/
  crashing : Bool := false
  /-- Milliseconds until a push is answered. -/
  delay : Nat := 0
deriving DecidableEq, Repr, Inhabited

inductive Call where
  | role (device : DeviceId) (role : Role)
  | probe (device : DeviceId)
deriving DecidableEq, Repr, Inhabited

def Call.device : Call → DeviceId
  | .role d _ => d
  | .probe d => d

/-- A provider, with all it did so far. -/
structure Provider where
  id : ProviderId
  lines : Table DeviceId Line := ∅
  calls : List Call := []
deriving DecidableEq, Repr

namespace Provider

def line (p : Provider) (d : DeviceId) : Line := (p.lines.get? d).getD {}

def setLine (p : Provider) (d : DeviceId) (f : Line → Line) : Provider :=
  { p with lines := p.lines.insert d (f (p.line d)) }

def answer (p : Provider) (d : DeviceId) (role : Role) : Except Failure Unit :=
  let line := p.line d
  if line.broken then .error (.internal "provider failed")
  else if line.rejecting then .error (.roleRejected d role "device refused role request")
  else .ok ()

/-- What is done towards a device that accepts a role. -/
def callsFor (d : DeviceId) (role : Role) : List Call :=
  if role = .master then [.role d role, .probe d] else [.role d role]

/-- Roles that a device accepted, oldest first. -/
def rolesApplied (p : Provider) (d : DeviceId) : List Role :=
  p.calls.filterMap fun
    | .role d' role => if d' = d then some role else none
    | .probe _ => none

def lastRole (p : Provider) (d : DeviceId) : Option Role := (p.rolesApplied d).getLast?

def probeCount (p : Provider) (d : DeviceId) : Nat := p.calls.count (.probe d)

end Provider

/-- All providers of one member by slot, and which of them are registered. -/
structure Southbound where
  providers : Table Nat Provider := ∅
  registry : Registry := {}
deriving DecidableEq, Repr

namespace Southbound

/-- Adds a provider that is not registered yet, in the next slot. -/
def add (s : Southbound) (id : ProviderId) : Southbound :=
  { s with providers := s.providers.insert s.providers.size { id } }

/-- Registers the provider in a slot, which has the id given. -/
def register (s : Southbound) (id : ProviderId) (slot : Nat) : Except Failure Southbound :=
  (s.registry.register id slot).map fun registry => { s with registry }

/-- Unregisters the provider with exactly this id; answers whether there was one. -/
def unregister (s : Southbound) (id : ProviderId) : Southbound × Bool :=
  let (registry, found) := s.registry.unregister id
  ({ s with registry }, found)

def clearCalls (s : Southbound) (slot : Nat) : Southbound :=
  match s.providers.get? slot with
  | none => s
  | some p => { s with providers := s.providers.insert slot { p with calls := [] } }

def setLine (s : Southbound) (slot : Nat) (d : DeviceId) (f : Line → Line) : Southbound :=
  match s.providers.get? slot with
  | none => s
  | some p => { s with providers := s.providers.insert slot (p.setLine d f) }

def slotFor (s : Southbound) (d : DeviceId) : Option Nat :=
  (s.registry.providerFor d).map Registry.Entry.slot

def lineFor (s : Southbound) (d : DeviceId) : Option Line :=
  (s.slotFor d).bind s.providers.get? |>.map (·.line d)

/-- Starts to push a role. The role NONE is never pushed; any other goes to the slot answered. -/
def start (s : Southbound) (d : DeviceId) (role : Role) : Except Failure (Option Nat) :=
  if role = .none then .ok none
  else
    match s.slotFor d with
    | none => .error (.noProvider d)
    | some slot => .ok (some slot)

/-- Answers a push: the device accepts the role or refuses it. A device that accepts MASTER is probed
right away. -/
def finish (s : Southbound) (slot : Nat) (d : DeviceId) (role : Role) :
    Southbound × Except Failure (List Call) :=
  match s.providers.get? slot with
  | none => (s, .error (.noProvider d))
  | some p =>
    match p.answer d role with
    | .error e => (s, .error e)
    | .ok () =>
      let calls := Provider.callsFor d role
      ({ s with providers := s.providers.insert slot { p with calls := p.calls ++ calls } },
        .ok calls)

def apply (s : Southbound) (d : DeviceId) (role : Role) : Southbound × Except Failure Unit :=
  match s.start d role with
  | .error e => (s, .error e)
  | .ok none => (s, .ok ())
  | .ok (some slot) => ((s.finish slot d role).1, (s.finish slot d role).2.map fun _ => ())

end Southbound
end Mastership
