import Mastership.Channel
import Mastership.Timeline

namespace Mastership

/-- An event as one member posted it. -/
structure Simulation.Recorded where
  node : NodeId
  event : DeviceEvent
  /-- Milliseconds since the start. -/
  time : Nat
deriving DecidableEq, Repr

structure Simulation.DeviceView where
  device : DeviceId
  applied : Role
  elected : Role
  /-- The highest epoch that a decision was based on. -/
  epoch : Nat
  available : Bool
deriving DecidableEq, Repr

structure Simulation.NodeView where
  node : NodeId
  active : Bool
  devices : List Simulation.DeviceView
deriving DecidableEq, Repr

structure Simulation.View where
  /-- The elected master of each device. -/
  masters : List (DeviceId × Option NodeId)
  nodes : List Simulation.NodeView
deriving DecidableEq, Repr

/-- A cluster whose members follow the election by themselves. Each active member has an inbox for what
the election announces; after every operation, and whenever time has moved, the members read until all
inboxes are empty. -/
structure Simulation where
  timeline : Timeline := {}
  /-- The members in order of their numbers. -/
  order : List NodeId := []
  /-- Capacity of each inbox, and of each member's buffer of posted events. -/
  capacity : Nat
  /-- What each active member has not read yet. -/
  inboxes : Table NodeId (List Announcement) := ∅
  /-- Posted, but not recorded yet. -/
  posted : List Simulation.Recorded := []
  /-- Every device ever connected. -/
  devices : Table DeviceId Unit := ∅
  recording : Bool := true
  events : List Simulation.Recorded := []
deriving Repr

inductive Simulation.Launch where
  | running (simulation : Simulation)
  | failed (failure : Failure)
  | crashed

namespace Simulation

def scheme : String := "sim"

/-- How many announcements the members may read before they are stopped, should each one they handle
cause another. -/
def patience : Nat := 100000

/-- Converged clusters are looked for this often, in milliseconds. -/
def pollInterval : Nat := 20

def description : DeviceDescription := .switch "wolfmaster" "0.3.2"

/-- Puts what was announced meanwhile into the inboxes, and what was posted with the events to be
recorded. -/
def collect (s : Simulation) : Simulation :=
  let (cluster, journal) := s.timeline.cluster.takeJournal
  let announced := journal.filterMap fun
    | .announced a => some a
    | _ => none
  let posted := journal.filterMap fun
    | .posted node event => some (⟨node, event, s.timeline.now⟩ : Recorded)
    | _ => none
  let inboxes := s.inboxes.keys.foldl (fun boxes n =>
    boxes.insert n ((boxes.get? n).getD [] ++ announced)) s.inboxes
  { s with
    timeline := { s.timeline with cluster }
    inboxes
    posted := s.posted ++ posted }

/-- The newest events of each member, as many as its buffer holds. -/
def newest (capacity : Nat) : List Recorded → List Recorded
  | [] => []
  | e :: es =>
    if es.countP (·.node = e.node) < capacity then e :: newest capacity es
    else newest capacity es

/-- Records what was posted. If a member has posted more than its buffer holds, its oldest events are
lost. -/
def record (s : Simulation) : Simulation :=
  { s with
    posted := []
    events := if s.recording then s.events ++ newest s.capacity s.posted else s.events }

/-- What a member reads next. If more is unread than its inbox holds, the oldest is lost. -/
def unread (s : Simulation) (n : NodeId) : List Announcement :=
  let inbox := (s.inboxes.get? n).getD []
  inbox.drop (inbox.length - s.capacity)

/-- Lets a member read until it has nothing left to read, or has read a number of announcements;
answers with how many more may be read. -/
def readInbox (n : NodeId) : Nat → Simulation → Simulation × Nat
  | 0, s => (s, 0)
  | allowed + 1, s =>
    match s.unread n with
    | [] => (s, allowed + 1)
    | a :: rest =>
      let s := { s with inboxes := s.inboxes.insert n rest }
      readInbox n allowed { s with timeline := s.timeline.decide n (·.handle a) }.collect

def hasMail (s : Simulation) : Bool := s.order.any fun n => !(s.unread n).isEmpty

/-- Lets the members read one after the other, then records what they posted, and so on until nothing
is left to read; but no more than some rounds, and no more than some announcements. -/
def read : Nat → Nat → Simulation → Simulation
  | 0, _, s => s.record
  | rounds + 1, allowed, s =>
    if s.hasMail ∧ 0 < allowed then
      let (s, allowed) :=
        s.order.foldl (fun (s, allowed) n => s.readInbox n allowed) (s, allowed)
      read rounds allowed s.record
    else s.record

/-- Lets the members read until nothing is left to read. -/
def followUp (s : Simulation) : Simulation := s.collect.read patience patience

/-- Adds a member with its provider, and starts it. -/
def addMember (s : Simulation) (settings : Settings) : Simulation :=
  let n : NodeId := ⟨settings.node⟩
  let node : Controller := { id := n, audit := settings.audit }
  let timeline := { s.timeline with
    cluster := { s.timeline.cluster with nodes := s.timeline.cluster.nodes.insert n node } }
  let timeline := timeline.modify n fun site =>
    (site.register ⟨scheme, "simulated@" ++ settings.node⟩).1
  { s with
    timeline := timeline.activate n
    order := s.order ++ [n]
    inboxes := s.inboxes.insert n [] }

/-- Adds as many members as are asked for, numbered on from those there are. -/
def addMembers (template : Settings) : Nat → Simulation → Except Failure Simulation
  | 0, s => .ok s
  | size + 1, s =>
    let settings :=
      { template with node := template.node ++ "-" ++ toString (s.order.length + 1) }
    match settings.validate with
    | .error e => .error e
    | .ok () => addMembers template size (s.addMember settings)

/-- Starts a cluster of a size, with the settings of a template. -/
def start (template : Settings) (size : Nat) : Launch :=
  if size = 0 then .failed (.config "cluster needs at least one node")
  else
    match Channel.capacityFor template.buffer with
    | none => .crashed
    | some capacity =>
      match addMembers template size { capacity } with
      | .error e => .failed e
      | .ok s => .running s

def setLine (s : Simulation) (n : NodeId) (d : DeviceId) (f : Line → Line) : Simulation :=
  { s with timeline := s.timeline.modify n (·.setLine 0 d f) }

def moveElection (s : Simulation) (move : Election → Election × List Announcement) : Simulation :=
  { s with timeline := { s.timeline with cluster := s.timeline.cluster.moveElection move } }

def connectTo (s : Simulation) (n : NodeId) (d : DeviceId) (description : DeviceDescription) :
    Simulation × Outcome :=
  let s := s.setLine n d ({ · with reachable := true })
  match s.timeline.run n fun site =>
      let ((site, push), outcome) := site.connect 0 d description
      (site, push, outcome) with
  | (t, some (push, outcome)) => ({ s with timeline := t.complete n push }, outcome)
  | (t, none) => ({ s with timeline := t }, .done)

/-- Connects a device to all members; answers with the first failure. -/
def connect (s : Simulation) (d : DeviceId) : Simulation × Outcome :=
  let s := { s with devices := s.devices.insert d () }
  s.order.foldl (fun (s, outcome) n =>
    let (s, o) := s.connectTo n d description
    (s, if outcome = .done then o else outcome)) (s, .done)

def disconnect (s : Simulation) (n : NodeId) (d : DeviceId) : Simulation × Outcome :=
  if n ∈ s.order then
    let s := s.setLine n d ({ · with reachable := false })
    let (timeline, outcome) := s.timeline.run n (·.disconnect 0 d)
    ({ s with timeline }, outcome.getD .done)
  else (s, .failed (.internal ("unknown node " ++ n.name)))

def activate (s : Simulation) (n : NodeId) : Simulation :=
  let inboxes := if s.inboxes.contains n then s.inboxes else s.inboxes.insert n []
  { s with timeline := s.timeline.activate n, inboxes }

def deactivate (s : Simulation) (n : NodeId) : Simulation :=
  { s with timeline := s.timeline.deactivate n, inboxes := s.inboxes.erase n }

def remove (s : Simulation) (n : NodeId) (d : DeviceId) : Simulation :=
  { s with timeline := s.timeline.modify n (·.remove d) }

def master? (s : Simulation) (d : DeviceId) : Option NodeId :=
  s.timeline.cluster.election.master? d

def appliedRole (s : Simulation) (n : NodeId) (d : DeviceId) : Role :=
  ((s.timeline.cluster.nodes.get? n).map (·.roles.role d)).getD .none

/-- Whether the elected master of every device has applied MASTER, and no other member has. -/
def isConverged (s : Simulation) : Bool :=
  s.devices.keys.all fun d =>
    match s.master? d with
    | none => false
    | some master => s.order.all fun n => (s.appliedRole n d == .master) == (n == master)

/-- Lets time pass, in which the members go on following the election. -/
def elapse (s : Simulation) (ms : Nat) : Simulation :=
  match s.timeline.gap with
  | none => { s with timeline := { s.timeline with now := s.timeline.now + ms } }
  | some g =>
    if g ≤ ms ∧ 0 < g then
      let t := { s.timeline with now := s.timeline.now + g }
      elapse { s with timeline := t.settleNow }.followUp (ms - g)
    else { s with timeline := { s.timeline with now := s.timeline.now + ms } }
termination_by ms

/-- Waits until the cluster has converged, or gives up when a time has passed; answers whether it
has. -/
def awaitConvergence (s : Simulation) (ms : Nat) : Simulation × Bool :=
  if s.isConverged then (s, true)
  else if ms = 0 then (s, false)
  else awaitConvergence (s.elapse pollInterval) (ms - pollInterval)
termination_by ms
decreasing_by simp only [pollInterval]; omega

def view (s : Simulation) : View where
  masters := s.devices.keys.map fun d => (d, s.master? d)
  nodes := s.order.filterMap fun n => (s.timeline.cluster.nodes.get? n).map fun node =>
    { node := n
      active := node.active
      devices := s.devices.keys.map fun d =>
        { device := d
          applied := (node.roles.entry d).role
          elected := s.timeline.cluster.election.role n d
          epoch := (node.roles.entry d).epoch
          available := node.replica.isAvailable d } }

/-- Stops all members and the recording of events. -/
def shutdown (s : Simulation) : Simulation :=
  { (s.order.foldl deactivate s).collect.record with recording := false }

def takeEvents (s : Simulation) : Simulation × List Recorded :=
  ({ s with events := [] }, s.events)

end Simulation
end Mastership
