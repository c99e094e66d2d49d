import Mastership.Proofs.PortLists
import Mastership.Proofs.Timestamps

namespace Mastership
namespace Replica

/-- The record of a device without its counters, which no event shows. -/
def Record.uncounted (rec : Record) : Record := { rec with statistics := ∅ }

/-- The devices and ports of a replica, without any counters. -/
def uncounted (r : Replica) : Replica := ⟨r.records.map Record.uncounted⟩

/-- The record of a device as an event shows it, with the ports known so far. -/
def shown (r : Replica) (device : Device) : Record :=
  match r.records.get? device.id with
  | none => { device }
  | some rec => { rec with device }

/-- Takes over what an event shows: its device, and the port that it adds, updates or removes. A device
that is removed is dropped with all its ports. -/
def hear (r : Replica) (e : DeviceEvent) : Replica :=
  let d := e.device.id
  let shown := r.shown e.device
  match e.kind, e.port with
  | .deviceRemoved, _ => ⟨r.records.erase d⟩
  | .portAdded, some p | .portUpdated, some p =>
    ⟨r.records.insert d { shown with ports := shown.ports.insert p.number p }⟩
  | .portRemoved, some p =>
    ⟨r.records.insert d { shown with ports := shown.ports.erase p.number }⟩
  | _, _ => ⟨r.records.insert d shown⟩

/-- What can be built from events alone. -/
def rebuild (es : List DeviceEvent) : Replica := es.foldl hear {}

/-- An event that makes sense at a replica: a device or a port that is added was not there, anything
else was, and a device that goes offline was available. -/
def Fits (r : Replica) (e : DeviceEvent) : Prop :=
  let d := e.device.id
  match e.kind with
  | .deviceAdded => r.device? d = none
  | .portAdded => r.device? d ≠ none ∧ ∃ p ∈ e.port, r.port? d p.number = none
  | .portUpdated | .portRemoved => r.device? d ≠ none ∧ ∃ p ∈ e.port, r.port? d p.number ≠ none
  | .availabilityChanged => r.device? d ≠ none ∧ (e.isOffline → r.isAvailable d)
  | _ => r.device? d ≠ none

/-- Events that lead from one replica to another, each making sense where it is heard. -/
inductive Retells : Replica → List DeviceEvent → Replica → Prop
  | nothing (r : Replica) : Retells r [] r
  | event {r r' : Replica} {e : DeviceEvent} {es : List DeviceEvent} :
      r.Fits e → Retells (r.hear e) es r' → Retells r (e :: es) r'

namespace Retells

variable {r r' r'' : Replica} {e : DeviceEvent} {es es' : List DeviceEvent}

theorem append (h : Retells r es r') (h' : Retells r' es' r'') : Retells r (es ++ es') r'' := by
  induction h with
  | nothing => exact h'
  | event hfits _ ih => exact .event hfits (ih h')

theorem foldl (h : Retells r es r') : es.foldl hear r = r' := by
  induction h with
  | nothing => rfl
  | event _ _ ih => exact ih

theorem fits (h : Retells r es r') {before after : List DeviceEvent} (he : es = before ++ e :: after) :
    (before.foldl hear r).Fits e := by
  induction h generalizing before with
  | nothing => simp at he
  | event hfits _ ih =>
    cases before with
    | nil => exact (List.cons.inj he).1 ▸ hfits
    | cons x before =>
      obtain ⟨hx, hrest⟩ := List.cons.inj he
      exact hx ▸ ih hrest

theorem one (hfits : r.Fits e) (h : r.hear e = r') : Retells r [e] r' :=
  .event hfits (h ▸ .nothing _)

end Retells

variable {r r' : Replica} {d : DeviceId} {rec : Record}

theorem get?_uncounted (r : Replica) (d : DeviceId) :
    r.uncounted.records.get? d = (r.records.get? d).map Record.uncounted :=
  Table.get?_map _ _ _

theorem device?_uncounted (r : Replica) (d : DeviceId) : r.uncounted.device? d = r.device? d := by
  simp [device?, get?_uncounted, Function.comp_def, Record.uncounted]

theorem port?_uncounted (r : Replica) (d : DeviceId) (k : Nat) :
    r.uncounted.port? d k = r.port? d k := by
  simp only [port?, get?_uncounted]
  cases r.records.get? d <;> rfl

theorem uncounted_insert (r : Replica) (d : DeviceId) (rec : Record) :
    uncounted ⟨r.records.insert d rec⟩ = ⟨r.uncounted.records.insert d rec.uncounted⟩ :=
  congrArg Replica.mk (Table.map_insert _ _ _ _)

/-- Only counters tell a record apart from one with the same device and ports. -/
theorem uncounted_insert_of_get? (h : r.records.get? d = some rec) (rec' : Record)
    (hd : rec'.device = rec.device) (hp : rec'.ports = rec.ports) :
    uncounted ⟨r.records.insert d rec'⟩ = r.uncounted := by
  have hrec : rec'.uncounted = rec.uncounted := by simp [Record.uncounted, hd, hp]
  rw [uncounted_insert, hrec]
  exact congrArg Replica.mk (Table.insert_eq_self (by rw [get?_uncounted, h]; rfl))

theorem uncounted_erase (r : Replica) (d : DeviceId) :
    uncounted ⟨r.records.erase d⟩ = ⟨r.uncounted.records.erase d⟩ :=
  congrArg Replica.mk (Table.map_erase _ _ _)

theorem device?_ne_none (h : r.records.get? d = some rec) {d' : DeviceId} (hd : d' = d) :
    r.uncounted.device? d' ≠ none := by
  rw [hd, device?_uncounted, device?, h]
  simp

theorem isAvailable_uncounted (r : Replica) (d : DeviceId) :
    r.uncounted.isAvailable d = r.isAvailable d := by
  rw [isAvailable, isAvailable, device?_uncounted]

theorem shown_uncounted (h : r.records.get? d = some rec) {device : Device} (hid : device.id = d) :
    r.uncounted.shown device = { rec.uncounted with device } := by
  simp [shown, hid, get?_uncounted, h]

/-- An event of a stored device that adds or removes nothing shows the device alone. -/
theorem hear_ofDevice (h : r.records.get? d = some rec) (device : Device) (hid : device.id = d)
    (kind : DeviceEvent.Kind) (hkind : kind ≠ .deviceRemoved) :
    r.uncounted.hear (.ofDevice kind device) =
      uncounted ⟨r.records.insert d { rec with device }⟩ := by
  rw [uncounted_insert]
  cases kind <;>
    first
    | exact absurd rfl hkind
    | simp [hear, DeviceEvent.ofDevice, shown_uncounted h hid, hid, Record.uncounted]

/-- The events of a write tell the copy of the replica what becomes of it. -/
def Tells (r : Replica) (es : List DeviceEvent) (r' : Replica) : Prop :=
  Retells r.uncounted es r'.uncounted

theorem tells_nothing (h : r'.uncounted = r.uncounted) : r.Tells [] r' := by
  unfold Tells
  rw [h]
  exact .nothing _

theorem put_tells (r : Replica) (d : DeviceId) (provider : ProviderId)
    (description : DeviceDescription) (h : r.Tidy) :
    r.Tells (r.put provider d description).2.toList (r.put provider d description).1 := by
  unfold put
  cases hrec : r.records.get? d with
  | none =>
    have hshown : r.uncounted.shown ⟨d, provider, description, true⟩ =
        { device := ⟨d, provider, description, true⟩ } := by
      simp [shown, get?_uncounted, hrec]
    refine .one ?_ ?_
    · change r.uncounted.device? d = none
      rw [device?_uncounted, device?, hrec]
      rfl
    · simp [hear, DeviceEvent.ofDevice, hshown, uncounted_insert, Record.uncounted]
  | some rec =>
    have hid := (h d rec hrec).id
    have hstored := device?_ne_none hrec rfl
    dsimp only
    split
    · exact .one hstored (hear_ofDevice hrec _ rfl _ (by simp))
    · next hsame =>
      split
      · next ha =>
        rw [not_or, ne_eq, ne_eq, not_not, not_not] at hsame
        refine tells_nothing (uncounted_insert_of_get? hrec _ ?_ rfl)
        rw [← hid, ← hsame.1, ← hsame.2, ← ha]
      · refine .one ⟨hstored, ?_⟩ (hear_ofDevice hrec _ rfl _ (by simp))
        simp [DeviceEvent.isOffline, DeviceEvent.ofDevice]

theorem markOffline_tells (r : Replica) (c : Clock) (d : DeviceId) (h : r.Tidy)
    {event : Option DeviceEvent} (he : (r.markOffline c d).2.2 = .ok event) :
    r.Tells event.toList (r.markOffline c d).1 := by
  unfold markOffline at he ⊢
  cases hrec : r.records.get? d with
  | none =>
    simp only [hrec] at he ⊢
    cases he
    exact tells_nothing rfl
  | some rec =>
    have hid := (h d rec hrec).id
    simp only [hrec] at he ⊢
    generalize c.next d = x at he ⊢
    obtain ⟨c', _ | x⟩ := x
    · cases he
    · dsimp only at he ⊢
      by_cases ha : rec.device.available
      · rw [if_pos ha] at he ⊢
        cases he
        have hheard := hear_ofDevice hrec { rec.device with available := false } hid
          DeviceEvent.Kind.availabilityChanged (by simp)
        refine .one ⟨device?_ne_none hrec hid, fun _ => ?_⟩ hheard
        · change r.uncounted.isAvailable rec.device.id
          rw [isAvailable_uncounted, hid, isAvailable, device?, hrec]
          simpa using ha
      · rw [if_neg ha] at he ⊢
        cases he
        exact tells_nothing rfl

/-- A write that is refused changes nothing. -/
theorem markOffline_of_error {c : Clock} {failure : Failure}
    (he : (r.markOffline c d).2.2 = .error failure) :
    (r.markOffline c d).1 = r ∧ (r.markOffline c d).2.1 = c := by
  unfold markOffline at he ⊢
  split at he
  · cases he
  · next rec hrec =>
    split at he
    · exact ⟨rfl, rfl⟩
    · split at he <;> cases he

theorem setStatistics_tells (r : Replica) (d : DeviceId) (ss : List PortStatistics) (h : r.Tidy) :
    r.Tells (r.setStatistics d ss).2.toList (r.setStatistics d ss).1 := by
  unfold setStatistics
  cases hrec : r.records.get? d with
  | none => exact tells_nothing rfl
  | some rec =>
    have hid := (h d rec hrec).id
    refine .one (device?_ne_none hrec hid) ((hear_ofDevice hrec _ hid _ (by simp)).trans ?_)
    dsimp only
    rw [uncounted_insert_of_get? hrec rec rfl rfl,
      uncounted_insert_of_get? hrec (rec.setStatistics ss) rfl rfl]

theorem remove_tells (r : Replica) (d : DeviceId) (h : r.Tidy) :
    r.Tells (r.remove d).2.toList (r.remove d).1 := by
  unfold remove
  cases hrec : r.records.get? d with
  | none => exact tells_nothing rfl
  | some rec =>
    have hid := (h d rec hrec).id
    refine .one (device?_ne_none hrec hid) ?_
    rw [uncounted_erase, ← hid]
    rfl

theorem setPort_tells (r : Replica) (d : DeviceId) (p : PortDescription) (h : r.Tidy) :
    r.Tells (r.setPort d p).2.toList (r.setPort d p).1 := by
  unfold setPort
  cases hrec : r.records.get? d with
  | none => exact tells_nothing rfl
  | some rec =>
    have hid := (h d rec hrec).id
    have hstored := device?_ne_none hrec hid
    have hport : r.uncounted.port? rec.device.id p.number = rec.ports.get? p.number := by
      rw [port?_uncounted, hid, port?, hrec]
      rfl
    have hshown := shown_uncounted hrec hid
    dsimp only [Record.setPort]
    cases hold : rec.ports.get? p.number with
    | none =>
      refine .one ⟨hstored, _, rfl, hport.trans hold⟩ ?_
      simp [hear, DeviceEvent.ofPort, hshown, hid, uncounted_insert, Record.uncounted,
        PortDescription.on]
    | some old =>
      dsimp only
      split
      · exact tells_nothing (uncounted_insert_of_get? hrec rec rfl rfl)
      · refine .one ⟨hstored, _, rfl, fun hnone => ?_⟩ ?_
        · rw [hport.symm.trans hnone] at hold
          cases hold
        · simp [hear, DeviceEvent.ofPort, hshown, hid, uncounted_insert, Record.uncounted,
            PortDescription.on]

theorem removePort_tells (r : Replica) (d : DeviceId) (k : Nat) (h : r.Tidy) :
    r.Tells (r.removePort d k).2.toList (r.removePort d k).1 := by
  unfold removePort
  cases hrec : r.records.get? d with
  | none => exact tells_nothing rfl
  | some rec =>
    have hid := (h d rec hrec).id
    dsimp only [Record.removePort]
    cases hold : rec.ports.get? k with
    | none => exact tells_nothing (uncounted_insert_of_get? hrec rec rfl rfl)
    | some old =>
      obtain ⟨rfl, -⟩ := (h d rec hrec).ports k old hold
      have hport : r.uncounted.port? rec.device.id old.number = some old := by
        rw [port?_uncounted, hid, port?, hrec]
        exact hold
      refine .one ⟨device?_ne_none hrec hid, _, rfl, fun hnone => ?_⟩ ?_
      · cases hport.symm.trans hnone
      · simp [hear, DeviceEvent.ofPort, shown_uncounted hrec hid, hid, uncounted_insert,
        Record.uncounted]

/-- A list of steps tells what its steps tell. -/
theorem inTurn_tells {α : Type} (step : Replica → α → Replica × Option DeviceEvent)
    (htidy : ∀ (r : Replica) x, r.Tidy → (step r x).1.Tidy)
    (htells : ∀ (r : Replica) x, r.Tidy → r.Tells (step r x).2.toList (step r x).1)
    (r : Replica) (xs : List α) (h : r.Tidy) :
    (r.inTurn step xs).1.Tidy ∧ r.Tells (r.inTurn step xs).2 (r.inTurn step xs).1 := by
  induction xs generalizing r with
  | nil => exact ⟨h, .nothing _⟩
  | cons x xs ih =>
    obtain ⟨hrest, htold⟩ := ih (step r x).1 (htidy r x h)
    exact ⟨hrest, (htells r x h).append htold⟩

theorem Tidy.removePort (h : r.Tidy) (d : DeviceId) (k : Nat) : (r.removePort d k).1.Tidy := by
  unfold Replica.removePort
  split
  · exact h
  · next rec hrec => exact h.insert ((h d rec hrec).removePort k)

theorem setPorts_tells (r : Replica) (d : DeviceId) (ps : List PortDescription) (h : r.Tidy) :
    r.Tells (r.setPorts d ps).2 (r.setPorts d ps).1 := by
  cases hrec : r.records.get? d with
  | none =>
    rw [setPorts, hrec]
    exact tells_nothing rfl
  | some rec =>
    rw [setPorts_inTurn hrec]
    obtain ⟨hwritten, htold⟩ := inTurn_tells (·.setPort d ·)
      (fun _ p h => h.edit (.setPort p)) (fun r p h => r.setPort_tells d p h) r ps h
    have hdropped := (inTurn_tells (·.removePort d ·) (fun _ k h => h.removePort d k)
      (fun r k h => r.removePort_tells d k h) _ (rec.unlisted ps) hwritten).2
    exact htold.append hdropped

end Replica

/-- A replica with the clock that it takes its stamps from. -/
structure Store where
  clock : Clock
  replica : Replica := {}
deriving DecidableEq, Repr

namespace Store

/-- What a store may be asked to write, and what may be done with its clock in between. -/
inductive Op where
  | put (provider : ProviderId) (d : DeviceId) (description : DeviceDescription)
  | markOffline (d : DeviceId)
  | setPorts (d : DeviceId) (ps : List PortDescription)
  | setPort (d : DeviceId) (p : PortDescription)
  | setStatistics (d : DeviceId) (ss : List PortStatistics)
  | remove (d : DeviceId)
  | clock (op : Clock.Op)
deriving DecidableEq, Repr

/-- The store after an operation, and the answer to it. -/
def apply (s : Store) : Op → Store × Except Failure (List DeviceEvent)
  | .put provider d description =>
    let (replica, event) := s.replica.put provider d description
    ({ s with replica }, .ok event.toList)
  | .markOffline d =>
    let (replica, clock, result) := s.replica.markOffline s.clock d
    ({ clock, replica }, result.map Option.toList)
  | .setPorts d ps =>
    let (replica, events) := s.replica.setPorts d ps
    ({ s with replica }, .ok events)
  | .setPort d p =>
    let (replica, event) := s.replica.setPort d p
    ({ s with replica }, .ok event.toList)
  | .setStatistics d ss =>
    let (replica, event) := s.replica.setStatistics d ss
    ({ s with replica }, .ok event.toList)
  | .remove d =>
    let (replica, event) := s.replica.remove d
    ({ s with replica }, .ok event.toList)
  | .clock op => ({ s with clock := (s.clock.apply op).1 }, .ok [])

/-- The events of an operation; one that fails has none. -/
def events (s : Store) (op : Op) : List DeviceEvent := (s.apply op).2.toOption.getD []

def after (s : Store) (ops : List Op) : Store := ops.foldl (fun s op => (s.apply op).1) s

/-- All events of operations, in this order. -/
def log (s : Store) : List Op → List DeviceEvent
  | [] => []
  | op :: ops => s.events op ++ (s.apply op).1.log ops

variable {s : Store}

theorem tidy_apply (h : s.replica.Tidy) (op : Op) : (s.apply op).1.replica.Tidy := by
  cases op with
  | put provider d description => exact h.edit (.put provider description)
  | markOffline d => exact h.markOffline s.clock d
  | setPorts d ps => exact h.edit (.setPorts ps)
  | setPort d p => exact h.edit (.setPort p)
  | setStatistics d ss => exact h.edit (.setStatistics ss)
  | remove d => exact h.edit .remove
  | clock op => exact h

theorem apply_markOffline_of_error {d : DeviceId} {failure : Failure}
    (h : (s.apply (.markOffline d)).2 = .error failure) : (s.apply (.markOffline d)).1 = s := by
  simp only [apply] at h ⊢
  cases hr : (s.replica.markOffline s.clock d).2.2 with
  | ok event =>
    rw [hr] at h
    cases h
  | error failure =>
    obtain ⟨hreplica, hclock⟩ := Replica.markOffline_of_error hr
    rw [hreplica, hclock]

/-- An operation tells what becomes of the replica. -/
theorem apply_tells (h : s.replica.Tidy) (op : Op) :
    s.replica.Tells (s.events op) (s.apply op).1.replica := by
  cases op with
  | put provider d description => exact s.replica.put_tells d provider description h
  | markOffline d =>
    cases he : (s.replica.markOffline s.clock d).2.2 with
    | ok event =>
      have hevents : s.events (.markOffline d) = event.toList := by
        simp only [events, apply, he]
        rfl
      exact hevents ▸ s.replica.markOffline_tells s.clock d h he
    | error failure =>
      have hresult : (s.apply (.markOffline d)).2 = .error failure := by
        simp only [apply, he]
        rfl
      rw [events, hresult, apply_markOffline_of_error hresult]
      exact Replica.tells_nothing rfl
  | setPorts d ps => exact s.replica.setPorts_tells d ps h
  | setPort d p => exact s.replica.setPort_tells d p h
  | setStatistics d ss => exact s.replica.setStatistics_tells d ss h
  | remove d => exact s.replica.remove_tells d h
  | clock op => exact Replica.tells_nothing rfl

theorem log_tells (h : s.replica.Tidy) (ops : List Op) :
    s.replica.Tells (s.log ops) (s.after ops).replica := by
  induction ops generalizing s with
  | nil => exact Replica.tells_nothing rfl
  | cons op ops ih => exact (apply_tells h op).append (ih (tidy_apply h op))

/-- Whatever is written to a store that starts empty, and whatever its clock is told or asked in
between: what can be built from the events alone has the stored devices and ports; each event makes
sense where it is told, so that what is added was not there, what is updated or removed was, and what
goes offline was available; and to mark a device offline either succeeds or changes neither the replica
nor the clock. -/
theorem log_rebuilds (c : Clock) (ops : List Op) :
    let s : Store := { clock := c }
    Replica.rebuild (s.log ops) = (s.after ops).replica.uncounted ∧
    (∀ before e after, s.log ops = before ++ e :: after → (Replica.rebuild before).Fits e) ∧
    ∀ d failure, ((s.after ops).apply (.markOffline d)).2 = .error failure →
      ((s.after ops).apply (.markOffline d)).1 = s.after ops := by
  intro s
  have hempty : s.replica.Tidy := by
    intro d rec hrec
    cases hrec
  have htold := log_tells hempty ops
  exact ⟨htold.foldl, fun _ _ _ he => htold.fits he, fun _ _ => apply_markOffline_of_error⟩

end Store

/-- A device that comes back after it was offline becomes available, and one that comes back after it
was removed is added. -/
example :
    let s : Store := { clock := { node := ⟨"east"⟩ } }
    let lamp : DeviceId := ⟨"of:1"⟩
    (s.log [.clock (.setTerm lamp ⟨⟨"east"⟩, 1⟩), .put ⟨"of", "sim"⟩ lamp default,
      .setPorts lamp [.gigabit 1 true, .gigabit 1 false], .markOffline lamp,
      .put ⟨"of", "sim"⟩ lamp default, .remove lamp, .put ⟨"of", "sim"⟩ lamp default]).map
        DeviceEvent.kind =
      [.deviceAdded, .portAdded, .portUpdated, .availabilityChanged, .availabilityChanged,
        .deviceRemoved, .deviceAdded] := by
  decide +kernel

end Mastership
