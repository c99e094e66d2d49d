import Mastership.Election
import Mastership.Replica
import Mastership.RoleTable
import Mastership.Settings
import Mastership.Southbound

namespace Mastership

/-- How marking a device offline fails before it touches anything. -/
inductive OfflineFault where
  | stale
  | internal
  | crash
deriving DecidableEq, Repr, Inhabited

/-- Faults of the services around a controller. -/
structure Faults where
  /-- Asking the election for a device fails. -/
  request : Bool := false
  /-- Giving a device up to the election fails. -/
  relinquish : Bool := false
  /-- Answers to be given instead of the election's term. -/
  terms : Table DeviceId (Option Term) := ∅
  /-- What happens to the next attempts to mark a device offline; nothing goes wrong with those
  that find `none`, or no entry. -/
  offline : List (Option OfflineFault) := []
deriving DecidableEq, Repr

/-- The member's side of mastership: its replica of the devices, its clock, the roles it applied and
its providers. -/
structure Controller where
  id : NodeId
  audit : AuditSettings := {}
  active : Bool := false
  clock : Clock := { node := id }
  replica : Replica := {}
  roles : RoleTable := {}
  south : Southbound := {}
  faults : Faults := {}
deriving DecidableEq, Repr

/-- What is left to do once a push is answered. -/
inductive Push.Sequel where
  /-- Record the role, or give up the device. -/
  | settle
  /-- Store the device that has just connected, then as for `settle`. -/
  | store (provider : ProviderId) (description : DeviceDescription)
deriving DecidableEq, Repr, Inhabited

/-- A role on its way to a device: the slot it was given to, and the epoch of the term on which it
was decided. -/
structure Push where
  slot : Nat
  device : DeviceId
  role : Role
  epoch : Option Nat
  sequel : Push.Sequel := .settle
deriving DecidableEq, Repr, Inhabited

inductive Plea where
  | request
  | relinquish
deriving DecidableEq, Repr, Inhabited

/-- Everything that leaves a controller or the election. -/
inductive Notice where
  | announced (announcement : Announcement)
  /-- A controller asked something of the election, granted or not. -/
  | asked (node : NodeId) (device : DeviceId) (plea : Plea)
  | started (node : NodeId) (push : Push)
  /-- A provider did something towards a device. -/
  | called (node : NodeId) (slot : Nat) (call : Call)
  | posted (node : NodeId) (event : DeviceEvent)
deriving DecidableEq, Repr, Inhabited

/-- One controller in front of the shared election. The journal holds what has left either, oldest
first. Every operation of a controller is a function on a site. -/
structure Site where
  election : Election
  node : Controller
  journal : List Notice := []
deriving DecidableEq, Repr

inductive Outcome where
  | done
  | failed (failure : Failure)
  | crashed
deriving DecidableEq, Repr, Inhabited

namespace Site

def note (s : Site) (ns : List Notice) : Site := { s with journal := s.journal ++ ns }

def post (s : Site) (e : DeviceEvent) : Site := s.note [.posted s.node.id e]

def postAll (s : Site) (es : List DeviceEvent) : Site := s.note (es.map (.posted s.node.id))

/-- Takes over an election that has moved, with its announcements. -/
def moveElection (s : Site) (moved : Election × List Announcement) : Site :=
  { s with election := moved.1 }.note (moved.2.map .announced)

def setRoles (s : Site) (roles : RoleTable) : Site := { s with node := { s.node with roles } }

def setReplica (s : Site) (replica : Replica) : Site :=
  { s with node := { s.node with replica } }

def request (s : Site) (d : DeviceId) : Site :=
  let s := s.note [.asked s.node.id d .request]
  if s.node.faults.request then s else s.moveElection (s.election.request s.node.id d)

def withdraw (s : Site) (d : DeviceId) : Site :=
  let s := s.note [.asked s.node.id d .relinquish]
  if s.node.faults.relinquish then s else s.moveElection (s.election.relinquish s.node.id d)

def electedRole (s : Site) (d : DeviceId) : Role := s.election.role s.node.id d

/-- The current term of a device, as this controller is told. -/
def term? (s : Site) (d : DeviceId) : Option Term :=
  match s.node.faults.terms.get? d with
  | some answer => answer
  | none => s.election.term? d

def observeTerm (s : Site) (d : DeviceId) : Site × Option Term :=
  match s.term? d with
  | none => (s, none)
  | some t => ({ s with node := { s.node with clock := (s.node.clock.setTerm d t).1 } }, some t)

def owns (s : Site) (t : Option Term) : Bool := t.any (·.owner == s.node.id)

/-- Whether the control channel to a device can be used; no answer means that the provider
crashed. -/
def reachable? (s : Site) (d : DeviceId) : Option Bool :=
  match s.node.south.lineFor d with
  | none => some false
  | some line => if line.crashing then none else some line.reachable

end Site
end Mastership
