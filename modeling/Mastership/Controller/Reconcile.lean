import Mastership.Controller

namespace Mastership.Site

/-- Tells the listeners about an applied role, if the device is stored. -/
def postRole (s : Site) (d : DeviceId) (role : Role) : Site :=
  match s.node.replica.device? d with
  | none => s
  | some device => s.post (.ofRole device role)

/-- Gives up a device: withdraws from its election and takes back its applied role. -/
def relinquish (s : Site) (d : DeviceId) : Site :=
  let s := s.withdraw d
  let (roles, cleared) := s.node.roles.clear d
  let s := s.setRoles roles
  if cleared then s.postRole d .none else s

/-- Records a role that a device accepted, or gives up the device that did not. -/
def settle (s : Site) (d : DeviceId) (role : Role) (epoch : Option Nat)
    (result : Except Failure Unit) : Site :=
  match result with
  | .error _ => s.relinquish d
  | .ok () =>
    let (roles, changed) := s.node.roles.record d role epoch
    let s := s.setRoles roles
    if changed then s.postRole d role else s

def store (s : Site) (provider : ProviderId) (d : DeviceId) (description : DeviceDescription) :
    Site :=
  let (replica, event) := s.node.replica.put provider d description
  (s.setReplica replica).postAll event.toList

/-- Marks a stored device available again before this controller takes charge of it. -/
def markOnline (s : Site) (d : DeviceId) : Site :=
  match s.node.replica.device? d with
  | none => s
  | some device =>
    if device.available then s else s.store device.provider d device.description

def conclude (s : Site) (p : Push) (result : Except Failure Unit) : Site :=
  match p.sequel with
  | .settle => s.settle p.device p.role p.epoch result
  | .store provider description =>
    (s.store provider p.device description).settle p.device p.role p.epoch result

/-- Starts to push a role. If nobody can take it, that is settled at once and no push is left to be
answered. Else the decision ends here, and other operations may run before the device's answer. -/
def startPush (s : Site) (d : DeviceId) (role : Role) (epoch : Option Nat)
    (sequel : Push.Sequel) : Site × Option Push :=
  match s.node.south.start d role with
  | .error e => (s.conclude ⟨0, d, role, epoch, sequel⟩ (.error e), none)
  | .ok none => (s.conclude ⟨0, d, role, epoch, sequel⟩ (.ok ()), none)
  | .ok (some slot) =>
    let p : Push := ⟨slot, d, role, epoch, sequel⟩
    (s.note [.started s.node.id p], some p)

/-- Gets the device's answer to a push, and does what follows it. -/
def answer (s : Site) (p : Push) : Site :=
  let (south, result) := s.node.south.finish p.slot p.device p.role
  let s := { s with node := { s.node with south } }
  match result with
  | .error e => s.conclude p (.error e)
  | .ok calls => (s.note (calls.map (.called s.node.id p.slot))).conclude p (.ok ())

/-- Runs a decision to its end, for a device that answers at once. -/
def answerNow : Site × Option Push → Site
  | (s, none) => s
  | (s, some p) => s.answer p

/-- Notes the epoch on which a decision is about to be based; answers whether it may be. Without a
term there is no epoch that could be stale. -/
def observeEpoch (s : Site) (d : DeviceId) : Option Term → Site × Bool
  | none => (s, true)
  | some t =>
    let (roles, current) := s.node.roles.observe d t.epoch
    (s.setRoles roles, current)

/-- The role to be pushed when one is asked for: MASTER only for the owner, and only unless STANDBY
is asked for. -/
def targetRole (requested : Role) (owned : Bool) : Role :=
  if requested ≠ .standby ∧ owned then .master else .standby

/-- Decides and pushes this controller's role for a device. Being asked for NONE means to become a
candidate first. A decision based on an older epoch than one already seen is dropped. -/
def reassert (s : Site) (d : DeviceId) (requested : Role) : Site × Option Push :=
  let s := if requested = .none then s.request d else s
  let (s, term) := s.observeTerm d
  let target := targetRole requested (s.owns term)
  let (s, current) := s.observeEpoch d term
  if current then
    let s := if target = .master then s.markOnline d else s
    s.startPush d target (term.map Term.epoch) .settle
  else (s, none)

end Mastership.Site
