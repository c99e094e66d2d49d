import Mastership.Cluster

namespace Mastership

/-- An audit check whose push its device has not answered yet. -/
structure Timeline.Pending where
  ticket : Nat
  node : NodeId
  push : Push
  due : Nat
deriving DecidableEq, Repr

/-- A pass of the audit under way: the devices still to be checked, and the checks that it waits
for, each with the moment when it ceases to. -/
structure Timeline.Pass where
  ticket : Nat
  node : NodeId
  limit : Nat
  timeout : Nat
  queue : List DeviceId
  awaited : List (Nat × Nat) := []
deriving DecidableEq, Repr

/-- The schedule of one member's periodic audit, with the pass that it has under way. -/
structure Timeline.Ticker where
  period : Nat
  next : Nat
  pass : Option Nat := none
deriving DecidableEq, Repr

/-- A cluster in virtual time, in milliseconds. What falls due while time passes happens in order of
time: answers to pushes of audit checks, ends of the waiting for a check, and the periodic audits. -/
structure Timeline where
  cluster : Cluster := {}
  now : Nat := 0
  pending : List Timeline.Pending := []
  passes : List Timeline.Pass := []
  tickers : Table NodeId Timeline.Ticker := ∅
  /-- Tickets given out so far, which number checks and passes. -/
  tickets : Nat := 0
deriving DecidableEq, Repr

namespace Timeline

/-- How late a periodic audit may start without the following ones being put off. -/
def lateness : Nat := 5

def run {α : Type} (t : Timeline) (n : NodeId) (f : Site → Site × α) : Timeline × Option α :=
  let (cluster, a) := t.cluster.run n f
  ({ t with cluster }, a)

def modify (t : Timeline) (n : NodeId) (f : Site → Site) : Timeline :=
  { t with cluster := t.cluster.modify n f }

def delay (t : Timeline) (n : NodeId) (p : Push) : Nat :=
  (((t.cluster.nodes.get? n).bind (·.south.providers.get? p.slot)).map
    fun provider => (provider.line p.device).delay).getD 0

def longestDelay (t : Timeline) (n : NodeId) : Nat :=
  match t.cluster.nodes.get? n with
  | none => 0
  | some node =>
    (node.south.providers.values.flatMap fun p => p.lines.values.map Line.delay).foldl max 0

/-- Starts one check of a pass. A push that is not answered at once stays pending, and the pass
waits for it unless the waiting is over before it begins. -/
def startCheck (t : Timeline) (n : NodeId) (timeout : Nat) (d : DeviceId) :
    Timeline × Option (Nat × Nat) :=
  match t.run n (·.check d) with
  | (t, some (some p)) =>
    if t.delay n p = 0 then (t.modify n (·.answer p), none)
    else
      let check : Pending := ⟨t.tickets, n, p, t.now + t.delay n p⟩
      ({ t with pending := t.pending ++ [check], tickets := t.tickets + 1 },
        if timeout = 0 then none else some (check.ticket, t.now + timeout))
  | (t, _) => (t, none)

/-- Starts checks of a pass until none is left to start or as many are awaited as it may. -/
def startChecks (p : Pass) : List DeviceId → List (Nat × Nat) → Timeline → Timeline × Pass
  | [], awaited, t => (t, { p with queue := [], awaited })
  | d :: ds, awaited, t =>
    if p.limit ≠ 0 ∧ p.limit ≤ awaited.length then (t, { p with queue := d :: ds, awaited })
    else
      let (t, slot) := t.startCheck p.node p.timeout d
      startChecks p ds (awaited ++ slot.toList) t

/-- A pass is over once nothing is left to start or to wait for. -/
def Pass.isOver (p : Pass) : Bool := p.queue.isEmpty && p.awaited.isEmpty

/-- Lets a pass go on as far as it can, and keeps it if it is not over. -/
def goOn (t : Timeline) (p : Pass) : Timeline :=
  let (t, p) := startChecks p p.queue p.awaited t
  if p.isOver then
    let tickers := match t.tickers.get? p.node with
      | some k => if k.pass = some p.ticket then t.tickers.insert p.node { k with pass := none }
        else t.tickers
      | none => t.tickers
    { t with tickers }
  else { t with passes := t.passes ++ [p] }

/-- Starts a pass over the devices that a member has stored; answers with its ticket. -/
def startPass (t : Timeline) (n : NodeId) : Timeline × Nat :=
  match t.cluster.nodes.get? n with
  | none => (t, t.tickets)
  | some node =>
    let p : Pass :=
      ⟨t.tickets, n, node.audit.concurrency, node.audit.timeout,
        node.replica.devices.map Device.id, []⟩
    (({ t with tickets := t.tickets + 1 }).goOn p, p.ticket)

def isUnderWay (t : Timeline) (pass : Nat) : Bool := t.passes.any (·.ticket == pass)

/-- Starts a member's periodic pass if it is due and the last one is over. -/
def tick (t : Timeline) (n : NodeId) : Timeline :=
  match t.tickers.get? n with
  | none => t
  | some k =>
    if k.pass.isNone ∧ k.next ≤ t.now then
      let next := if k.next + lateness < t.now then t.now + k.period else k.next + k.period
      let (t, pass) := t.startPass n
      let pass := if t.isUnderWay pass then some pass else none
      { t with tickers := t.tickers.insert n { k with next, pass } }
    else t

def settleNow (t : Timeline) : Timeline :=
  let due := t.pending.filter (·.due ≤ t.now)
  let t := { t with pending := t.pending.filter (t.now < ·.due) }
  let t := due.foldl (fun t c => t.modify c.node (·.answer c.push)) t
  let answered := due.map Pending.ticket
  let passes := t.passes.map fun p =>
    { p with awaited := p.awaited.filter fun a => a.1 ∉ answered ∧ t.now < a.2 }
  let t := passes.foldl goOn { t with passes := [] }
  t.tickers.keys.foldl tick t

def dueTimes (t : Timeline) : List Nat :=
  t.pending.map Pending.due ++ t.passes.flatMap (·.awaited.map Prod.snd) ++
    (t.tickers.values.filter (·.pass.isNone)).map Ticker.next

/-- Time until something falls due, if anything does. -/
def gap (t : Timeline) : Option Nat :=
  ((t.dueTimes.filter (t.now < ·)).map (· - t.now)).min?

def elapse (t : Timeline) (ms : Nat) : Timeline :=
  match t.gap with
  | none => { t with now := t.now + ms }
  | some g =>
    if g ≤ ms ∧ 0 < g then elapse ({ t with now := t.now + g }).settleNow (ms - g)
    else { t with now := t.now + ms }
termination_by ms

/-- Waits for a pass to be over, but no longer than some time. -/
def awaitFor (t : Timeline) (pass : Nat) (ms : Nat) : Timeline :=
  if t.isUnderWay pass then
    match t.gap with
    | none => t
    | some g =>
      if g ≤ ms ∧ 0 < g then awaitFor ({ t with now := t.now + g }).settleNow pass (ms - g)
      else t
  else t
termination_by ms

/-- The longest that a pass can go on: its last pending answer, then all that it has not started,
one after the other. -/
def longestWait (t : Timeline) (pass : Nat) : Nat :=
  let queued := (t.passes.filter (·.ticket == pass)).map fun p =>
    p.queue.length * t.longestDelay p.node
  (t.pending.map (·.due - t.now)).foldl max 0 + queued.foldl (· + ·) 0

def await (t : Timeline) (pass : Nat) : Timeline := t.awaitFor pass (t.longestWait pass)

/-- Waits for the answer to the push that a decision has left, if it has left one. -/
def complete (t : Timeline) (n : NodeId) : Option Push → Timeline
  | none => t
  | some p => (t.elapse (t.delay n p)).modify n (·.answer p)

def decide (t : Timeline) (n : NodeId) (f : Site → Site × Option Push) : Timeline :=
  let (t, p) := t.run n f
  t.complete n p.join

/-- Audits a member's devices once; answers with the time it took. -/
def audit (t : Timeline) (n : NodeId) : Timeline × Nat :=
  let (t', pass) := t.startPass n
  let t' := t'.await pass
  (t', t'.now - t.now)

def isActive (t : Timeline) (n : NodeId) : Bool := (t.cluster.nodes.get? n).any Controller.active

private def setActive (t : Timeline) (n : NodeId) (active : Bool) : Timeline :=
  t.modify n fun s => { s with node := { s.node with active } }

/-- Starts a member, with its periodic audit; an audit without a period never runs. -/
def activate (t : Timeline) (n : NodeId) : Timeline :=
  match t.cluster.nodes.get? n with
  | none => t
  | some node =>
    if node.active then t
    else
      let t := t.setActive n true
      let period := node.audit.interval * 1000
      if period = 0 then t else { t with tickers := t.tickers.insert n ⟨period, t.now + period, none⟩ }

/-- Stops a member, once its periodic audit has ended the pass that is under way. -/
def deactivate (t : Timeline) (n : NodeId) : Timeline :=
  if t.isActive n then
    let pass := (t.tickers.get? n).bind Ticker.pass
    let t := { t.setActive n false with tickers := t.tickers.erase n }
    match pass with
    | none => t
    | some pass => t.await pass
  else t

end Timeline
end Mastership
