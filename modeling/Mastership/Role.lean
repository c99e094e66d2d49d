import Mastership.Identity

namespace Mastership

/-- What a member may be towards a device. -/
inductive Role where
  /-- No role was given or asked for. -/
  | none
  /-- In control of the device. -/
  | master
  /-- Connected, ready to take over. -/
  | standby
deriving DecidableEq, Repr, Inhabited

def Role.text : Role → String
  | .none => "NONE"
  | .master => "MASTER"
  | .standby => "STANDBY"

structure Term where
  owner : NodeId
  epoch : Nat
deriving DecidableEq, Repr, Inhabited

/-- Master and waiting members of one device at one moment. -/
structure Standing where
  master : Option NodeId := none
  backups : List NodeId := []
deriving DecidableEq, Repr, Inhabited

def Standing.roleOf (s : Standing) (n : NodeId) : Role :=
  if s.master = some n then .master
  else if n ∈ s.backups then .standby
  else .none

/-- What an announcement says has changed. -/
inductive Announcement.Kind where
  /-- The device has another master, or none any more. -/
  | master
  /-- The master stayed and the waiting members changed. -/
  | backups
deriving DecidableEq, Repr, Inhabited

/-- News of an election change. It is advice: by the time it is read, the election may have moved
on. -/
structure Announcement where
  kind : Announcement.Kind
  device : DeviceId
  standing : Standing
deriving DecidableEq, Repr, Inhabited

end Mastership
