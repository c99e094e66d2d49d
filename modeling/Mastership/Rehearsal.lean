import Mastership.Channel
import Mastership.Timeline

namespace Mastership

/-- A member to be set up, with the providers that it registers. -/
structure Rehearsal.Member where
  id : NodeId
  active : Bool := true
  audit : AuditSettings := {}
  providers : List ProviderId := [⟨"of", "sim"⟩]
  /-- Buffer of the member's event listeners. -/
  eventBuffer : Nat := 1024
  /-- Buffer of the member's own listener to the election. -/
  announcementBuffer : Nat := 1024
deriving Repr

/-- What became visible since the last report. -/
structure Rehearsal.Report where
  announced : List Announcement := []
  /-- What each member's event listener gets, lost events first. -/
  posted : List (NodeId × List (Delivery DeviceEvent)) := []
  called : List (NodeId × Nat × Call) := []
deriving Repr

/-- A cluster whose announcements are delivered by hand. What the election announces waits in a mailbox
per active member, so that each order of deliveries can be tried. -/
structure Rehearsal where
  timeline : Timeline := {}
  /-- The members in the order in which they take turns. -/
  order : List NodeId := []
  mailboxes : Table NodeId (List Announcement) := ∅
  eventCapacity : Table NodeId Nat := ∅
  announcementCapacity : Table NodeId Nat := ∅
  announced : List Announcement := []
  /-- All else that happened since the last report. -/
  notices : List Notice := []
deriving Repr

namespace Rehearsal

/-- Sorts by device and keeps the order of what is about one device. -/
def byDevice {α : Type} (device : α → DeviceId) (as : List α) : List α :=
  as.mergeSort fun a b => decide (¬ device b < device a)

/-- Adds a member; none can be set up without event buffers. -/
def addMember (r : Rehearsal) (m : Member) : Option Rehearsal := do
  let events ← Channel.capacityFor m.eventBuffer
  let announcements ← Channel.capacityFor m.announcementBuffer
  let node : Controller := { id := m.id, audit := m.audit }
  let timeline := { r.timeline with
    cluster := { r.timeline.cluster with
      nodes := r.timeline.cluster.nodes.insert m.id node } }
  let timeline := m.providers.foldl (fun t p => t.modify m.id fun s => (s.register p).1) timeline
  return { r with
    timeline := if m.active then timeline.activate m.id else timeline
    order := r.order ++ [m.id]
    eventCapacity := r.eventCapacity.insert m.id events
    announcementCapacity := r.announcementCapacity.insert m.id announcements }

def ofMembers : List Member → Option Rehearsal
  | ms => ms.foldlM addMember {}

def mailbox (r : Rehearsal) (n : NodeId) : List Announcement := (r.mailboxes.get? n).getD []

/-- The announcement of a notice, if it is one. -/
def announcement? : Notice → Option Announcement
  | .announced a => some a
  | _ => none

/-- Puts what was announced meanwhile into the mailboxes of the members active now, and empties
those of the others. -/
def collect (r : Rehearsal) : Rehearsal :=
  let (cluster, journal) := r.timeline.cluster.takeJournal
  let fresh := byDevice Announcement.device (journal.filterMap announcement?)
  let mailboxes := r.order.foldl (fun boxes n =>
    boxes.insert n (if r.timeline.isActive n then r.mailbox n ++ fresh else [])) r.mailboxes
  { r with
    timeline := { r.timeline with cluster }
    mailboxes
    announced := r.announced ++ fresh
    notices := r.notices ++ journal.filter fun n => (announcement? n).isNone }

private def postedBy (n : NodeId) : Notice → Option DeviceEvent
  | .posted n' e => if n' = n then some e else none
  | _ => none

private def calledBy (n : NodeId) : Notice → Option (Nat × Call)
  | .called n' slot c => if n' = n then some (slot, c) else none
  | _ => none

/-- What a member's listener gets of its events, lost ones first, the others by device. -/
def deliveries (capacity : Nat) (events : List DeviceEvent) : List (Delivery DeviceEvent) :=
  let lost := events.length - capacity
  let kept := byDevice (·.device.id) (events.drop lost)
  (if lost = 0 then [] else [.lagged lost]) ++ kept.map .message

/-- Reports what became visible since the last report. -/
def report (r : Rehearsal) : Rehearsal × Report :=
  let posted := r.order.map fun n =>
    (n, deliveries ((r.eventCapacity.get? n).getD 0) (r.notices.filterMap (postedBy n)))
  let called := r.order.flatMap fun n =>
    let calls := r.notices.filterMap (calledBy n)
    let calls := calls.mergeSort fun a b =>
      decide (a.1 < b.1 ∨ a.1 = b.1 ∧ ¬ b.2.device < a.2.device)
    calls.map fun c => (n, c.1, c.2)
  ({ r with announced := [], notices := [] }, { announced := r.announced, posted, called })

/-- Runs an operation at a member that takes no time. -/
def run {α : Type} (r : Rehearsal) (n : NodeId) (f : Site → Site × α) : Rehearsal × Option α :=
  let (timeline, a) := r.timeline.run n f
  ({ r with timeline }, a)

def modify (r : Rehearsal) (n : NodeId) (f : Site → Site) : Rehearsal :=
  { r with timeline := r.timeline.modify n f }

def connect (r : Rehearsal) (n : NodeId) (slot : Nat) (d : DeviceId)
    (description : DeviceDescription) : Rehearsal × Outcome :=
  match r.timeline.run n fun s =>
      let ((s, push), outcome) := s.connect slot d description
      (s, push, outcome) with
  | (t, some (push, outcome)) => ({ r with timeline := t.complete n push }, outcome)
  | (t, none) => ({ r with timeline := t }, .done)

def reassert (r : Rehearsal) (n : NodeId) (d : DeviceId) (role : Role) : Rehearsal :=
  { r with timeline := r.timeline.decide n (·.reassert d role) }

/-- Audits a member's devices once; answers with the time it took. -/
def audit (r : Rehearsal) (n : NodeId) : Rehearsal × Nat :=
  let (timeline, ms) := r.timeline.audit n
  ({ r with timeline }, ms)

def activate (r : Rehearsal) (n : NodeId) : Rehearsal :=
  { r with timeline := r.timeline.activate n }

def deactivate (r : Rehearsal) (n : NodeId) : Rehearsal :=
  { r with timeline := r.timeline.deactivate n }

def elapse (r : Rehearsal) (ms : Nat) : Rehearsal := { r with timeline := r.timeline.elapse ms }

def moveElection (r : Rehearsal) (move : Election → Election × List Announcement) : Rehearsal :=
  { r with timeline := { r.timeline with cluster := r.timeline.cluster.moveElection move } }

/-- Lets a member's listener handle an announcement. -/
def handle (r : Rehearsal) (n : NodeId) (a : Announcement) : Rehearsal :=
  { r with timeline := r.timeline.decide n (·.handle a) }

/-- Delivers the oldest announcement in a member's mailbox, if there is one. -/
def deliver (r : Rehearsal) (n : NodeId) : Rehearsal × Option Announcement :=
  match r.mailbox n with
  | [] => (r, none)
  | a :: rest => ({ r with mailboxes := r.mailboxes.insert n rest }.handle n a, some a)

/-- Delivers a member's whole mailbox at once, of which the oldest may be lost; answers with the
number of announcements. -/
def deliverBurst (r : Rehearsal) (n : NodeId) : Rehearsal × Nat :=
  let waiting := r.mailbox n
  let lost := waiting.length - (r.announcementCapacity.get? n).getD 0
  let r := { r with mailboxes := r.mailboxes.insert n [] }
  ((waiting.drop lost).foldl (fun r a => r.handle n a) r, waiting.length)

/-- Makes up an announcement for a member; answers whether it listens. -/
def announce (r : Rehearsal) (n : NodeId) (a : Announcement) : Rehearsal × Bool :=
  if r.timeline.isActive n then (r.handle n a, true) else (r, false)

def waiting (r : Rehearsal) : Nat := (r.order.flatMap r.mailbox).length

/-- One round of deliveries, one for each member that has mail, as long as any are allowed; answers
with the number of those left. -/
def settleRound : List NodeId → Nat → Rehearsal → Rehearsal × Nat
  | [], allowed, r => (r, allowed)
  | n :: ns, allowed, r =>
    if allowed = 0 then (r, 0)
    else
      match r.deliver n with
      | (_, none) => settleRound ns allowed r
      | (r, some _) => settleRound ns (allowed - 1) r.collect

/-- Rounds of deliveries until one delivers nothing, as long as any are allowed. -/
def settleRounds : Nat → Nat → Rehearsal → Rehearsal × Nat
  | 0, allowed, r => (r, allowed)
  | rounds + 1, allowed, r =>
    let (r, left) := settleRound r.order allowed r
    if left = 0 ∨ left = allowed then (r, left) else settleRounds rounds left r

/-- Delivers in rounds until no mail is left or as many deliveries were made as are allowed; answers
with the number of deliveries and what is left. -/
def settle (r : Rehearsal) (limit : Nat) : Rehearsal × Nat × Nat :=
  let (r, left) := settleRounds limit limit r
  (r, limit - left, r.waiting)

end Rehearsal
end Mastership
