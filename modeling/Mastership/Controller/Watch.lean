import Mastership.Controller.Reconcile

namespace Mastership.Site

/-- The role that an announcement suggests. MASTER is believed only if the current term says so. -/
def suggestedRole (s : Site) (a : Announcement) : Site × Role :=
  match a.standing.roleOf s.node.id with
  | .master =>
    let (s, term) := s.observeTerm a.device
    (s, if s.owns term then .master else .standby)
  | role => (s, role)

/-- Follows an announced change of master. A device that cannot be reached is given up, and one that
is not stored is left alone. -/
def followMaster (s : Site) (a : Announcement) : Site × Option Push :=
  let (s, suggested) := s.suggestedRole a
  match s.reachable? a.device with
  | none => (s, none)
  | some false => (if suggested = .none then s else s.relinquish a.device, none)
  | some true =>
    if (s.node.replica.device? a.device).isSome then s.reassert a.device suggested
    else (s, none)

/-- Handles an announcement. Changes of the waiting members alone are nobody's business. -/
def handle (s : Site) (a : Announcement) : Site × Option Push :=
  match a.kind with
  | .backups => (s, none)
  | .master => s.followMaster a

/-- Audits one device: asks for a role for it if it can be reached and the election gives this
controller none. -/
def check (s : Site) (d : DeviceId) : Site × Option Push :=
  match s.reachable? d with
  | some true => if s.electedRole d = .none then s.reassert d .none else (s, none)
  | _ => (s, none)

end Mastership.Site
