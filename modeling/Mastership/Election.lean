import Mastership.Role

namespace Mastership

/-- Election of one device: its master, the members that wait in the order in which they would
follow, and the epoch of the latest assignment. -/
structure Seat where
  master : Option NodeId := none
  backups : List NodeId := []
  epoch : Nat := 0
deriving DecidableEq, Repr, Inhabited

namespace Seat

def standing (s : Seat) : Standing := ⟨s.master, s.backups⟩

def roleOf (s : Seat) (n : NodeId) : Role := s.standing.roleOf n

def term? (s : Seat) : Option Term := s.master.map (⟨·, s.epoch⟩)

/-- Master first, then the waiting members. -/
def queue (s : Seat) : List NodeId := s.master.toList ++ s.backups

/-- Each assignment of a master opens a new epoch, so an epoch names its owner. -/
def assign (s : Seat) (n : NodeId) : Seat :=
  ⟨some n, s.backups.filter (· ≠ n), s.epoch + 1⟩

/-- A member asks for the device: it becomes master of an unowned device and waits for an owned
one, if it does neither already. -/
def request (s : Seat) (n : NodeId) : Seat × Option Announcement.Kind :=
  match s.master with
  | none => (s.assign n, some .master)
  | some _ =>
    match s.roleOf n with
    | .none => ({ s with backups := s.backups ++ [n] }, some .backups)
    | _ => (s, none)

/-- What a member that asks for the device is told: the role that it has from then on. -/
def granted (s : Seat) (n : NodeId) : Role :=
  match s.master with
  | none => .master
  | some _ =>
    match s.roleOf n with
    | .none => .standby
    | role => role

/-- A member gives up the device. The first waiting member follows a master. -/
def relinquish (s : Seat) (n : NodeId) : Seat × Option Announcement.Kind :=
  if s.master = some n then
    match s.backups with
    | [] => ({ s with master := none }, some .master)
    | b :: bs => ({ s with backups := bs }.assign b, some .master)
  else if n ∈ s.backups then
    ({ s with backups := s.backups.filter (· ≠ n) }, some .backups)
  else (s, none)

/-- Makes a member the master; the previous one waits in front of all others. -/
def promote (s : Seat) (n : NodeId) : Seat × Option Announcement.Kind :=
  if s.master = some n then (s, none)
  else ({ s with backups := s.master.toList ++ s.backups }.assign n, some .master)

end Seat

structure Election where
  seats : Table DeviceId Seat := ∅
deriving DecidableEq, Repr

namespace Election

/-- Election of a device; one that was never asked for has no master and nobody waiting. -/
def seat (e : Election) (d : DeviceId) : Seat := (e.seats.get? d).getD {}

def standing (e : Election) (d : DeviceId) : Standing := (e.seat d).standing

def role (e : Election) (n : NodeId) (d : DeviceId) : Role := (e.seat d).roleOf n

def master? (e : Election) (d : DeviceId) : Option NodeId := (e.seat d).master

def term? (e : Election) (d : DeviceId) : Option Term := (e.seat d).term?

/-- Stores and announces the outcome of a move about a device. A move that changed nothing is
neither stored nor announced. -/
def settle (e : Election) (d : DeviceId) :
    Seat × Option Announcement.Kind → Election × List Announcement
  | (_, none) => (e, [])
  | (s, some kind) => (⟨e.seats.insert d s⟩, [⟨kind, d, s.standing⟩])

def request (e : Election) (n : NodeId) (d : DeviceId) : Election × List Announcement :=
  e.settle d ((e.seat d).request n)

/-- The answer to a request, as the election stands before it. -/
def granted (e : Election) (n : NodeId) (d : DeviceId) : Role := (e.seat d).granted n

def relinquish (e : Election) (n : NodeId) (d : DeviceId) : Election × List Announcement :=
  e.settle d ((e.seat d).relinquish n)

def promote (e : Election) (n : NodeId) (d : DeviceId) : Election × List Announcement :=
  e.settle d ((e.seat d).promote n)

/-- A member steps down if it is master, then asks again. -/
def stepDown (e : Election) (n : NodeId) (d : DeviceId) : Election × List Announcement :=
  if e.master? d = some n then
    let (e₁, as₁) := e.relinquish n d
    let (e₂, as₂) := e₁.request n d
    (e₂, as₁ ++ as₂)
  else e.request n d

def setRole (e : Election) (n : NodeId) (d : DeviceId) : Role → Election × List Announcement
  | .none => e.relinquish n d
  | .master => e.promote n d
  | .standby => e.stepDown n d

end Election
end Mastership
