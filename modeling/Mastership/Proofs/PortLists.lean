import Mathlib.Data.List.Sort
import Mastership.Proofs.Holdings

namespace Mastership

namespace PortDescription

/-- The last of the descriptions with a number. -/
def lastOf (ps : List PortDescription) (k : Nat) : Option PortDescription :=
  (ps.filter (·.number = k)).getLast?

theorem lastOf_cons (p : PortDescription) (ps : List PortDescription) (k : Nat) :
    lastOf (p :: ps) k = (lastOf ps k).or (if p.number = k then some p else none) := by
  by_cases hk : p.number = k
  · cases h : (ps.filter (·.number = k)).getLast? <;>
      simp [lastOf, hk, List.getLast?_cons, h]
  · simp [lastOf, hk]

theorem lastOf_eq_none_iff {ps : List PortDescription} {k : Nat} :
    lastOf ps k = none ↔ k ∉ ps.map number := by
  simp [lastOf]

/-- Where no number is repeated, each description is the last one with its number. -/
theorem lastOf_of_nodup {ps : List PortDescription} (h : (ps.map number).Nodup) {p : PortDescription}
    (hp : p ∈ ps) : lastOf ps p.number = some p := by
  induction ps with
  | nil => cases hp
  | cons q ps ih =>
    obtain ⟨hq, hrest⟩ := List.nodup_cons.mp h
    rw [lastOf_cons]
    rcases List.mem_cons.mp hp with rfl | hp
    · simp [lastOf_eq_none_iff.mpr hq]
    · simp [ih hrest hp]

end PortDescription

open PortDescription

namespace Replica.Record

variable {rec : Record} {ps : List PortDescription}

theorem eq_of {rec rec' : Record} (hd : rec'.device = rec.device)
    (hp : ∀ k, rec'.ports.get? k = rec.ports.get? k)
    (hs : ∀ k, rec'.statistics.get? k = rec.statistics.get? k) : rec' = rec := by
  obtain ⟨device, ports, statistics⟩ := rec
  obtain ⟨device', ports', statistics'⟩ := rec'
  obtain rfl : device' = device := hd
  obtain rfl : ports' = ports := Table.ext hp
  obtain rfl : statistics' = statistics := Table.ext hs
  rfl

/-- The numbers of the stored ports that a list does not name, in ascending order. -/
def unlisted (rec : Record) (ps : List PortDescription) : List Nat :=
  rec.ports.keys.filter (· ∉ ps.map number)

theorem mem_unlisted {k : Nat} :
    k ∈ rec.unlisted ps ↔ (rec.ports.get? k).isSome ∧ k ∉ ps.map number := by
  simp [unlisted, Table.mem_keys]

theorem unlisted_ascending (rec : Record) (ps : List PortDescription) :
    (rec.unlisted ps).Pairwise (· < ·) :=
  rec.ports.keys_ascending.filter _

/-- Of the descriptions with a port's number the last one counts. -/
theorem get?_setEach (rec : Record) (ps : List PortDescription) (k : Nat) :
    (rec.setEach ps).1.ports.get? k =
      ((lastOf ps k).map (·.on rec.device.id)).or (rec.ports.get? k) := by
  induction ps generalizing rec with
  | nil => rfl
  | cons p ps ih =>
    have hrest := ih (rec.setPort p).1
    rw [rec.setPort_device, get?_setPort] at hrest
    refine Eq.trans hrest ?_
    rw [lastOf_cons]
    by_cases hk : p.number = k <;> cases lastOf ps k <;> simp [hk]

/-- Descriptions that only say what is stored change nothing. -/
theorem setEach_known (h : ∀ p ∈ ps, rec.ports.get? p.number = some (p.on rec.device.id)) :
    rec.setEach ps = (rec, []) := by
  induction ps with
  | nil => rfl
  | cons p ps ih =>
    have hone : rec.setPort p = (rec, none) := by
      simp [setPort, h p List.mem_cons_self]
    simp only [setEach, hone]
    rw [ih fun q hq => h q (List.mem_cons_of_mem p hq)]
    rfl

theorem get?_removeEach (rec : Record) (ks : List Nat) (k : Nat) :
    (rec.removeEach ks).1.ports.get? k = if k ∈ ks then none else rec.ports.get? k := by
  induction ks generalizing rec with
  | nil => rfl
  | cons j ks ih =>
    refine (ih (rec.removePort j).1).trans ?_
    rw [get?_removePort]
    by_cases hk : j = k
    · simp [hk]
    · simp [hk, Ne.symm hk]

theorem statistics_removePort (rec : Record) (j k : Nat) :
    (rec.removePort j).1.statistics.get? k =
      if j = k ∧ (rec.ports.get? j).isSome then none else rec.statistics.get? k := by
  simp only [removePort]
  cases rec.ports.get? j with
  | none => simp
  | some port => simp [Table.get?_erase]

/-- With a stored port go its counters, and no others. -/
theorem statistics_removeEach (rec : Record) (ks : List Nat) (k : Nat) :
    (rec.removeEach ks).1.statistics.get? k =
      if k ∈ ks ∧ (rec.ports.get? k).isSome then none else rec.statistics.get? k := by
  induction ks generalizing rec with
  | nil => simp [removeEach]
  | cons j ks ih =>
    refine (ih (rec.removePort j).1).trans ?_
    rw [get?_removePort, statistics_removePort]
    by_cases hk : j = k
    · simp [hk]
    · simp [hk, Ne.symm hk]

/-- The ports to be dropped may be found before any is written. -/
theorem unlisted_setEach (rec : Record) (ps : List PortDescription) :
    (rec.setEach ps).1.unlisted ps = rec.unlisted ps := by
  apply List.Pairwise.eq_of_mem_iff (unlisted_ascending _ ps) (rec.unlisted_ascending ps)
  intro k
  rw [mem_unlisted, mem_unlisted, get?_setEach]
  apply and_congr_left
  intro hk
  rw [lastOf_eq_none_iff.mpr hk]
  rfl

theorem setPorts_eq (rec : Record) (ps : List PortDescription) :
    rec.setPorts ps =
      (((rec.setEach ps).1.removeEach (rec.unlisted ps)).1,
        (rec.setEach ps).2 ++ ((rec.setEach ps).1.removeEach (rec.unlisted ps)).2) := by
  rw [← unlisted_setEach]
  rfl

/-- A device has the ports that the list names, each as it was described last. -/
theorem get?_setPorts (rec : Record) (ps : List PortDescription) (k : Nat) :
    (rec.setPorts ps).1.ports.get? k = (lastOf ps k).map (·.on rec.device.id) := by
  rw [setPorts_eq, get?_removeEach, get?_setEach]
  cases h : lastOf ps k with
  | some p =>
    have hlisted : k ∉ rec.unlisted ps := by
      intro hk
      rw [lastOf_eq_none_iff.mpr (mem_unlisted.mp hk).2] at h
      cases h
    simp [hlisted]
  | none =>
    have hnot := lastOf_eq_none_iff.mp h
    by_cases hs : (rec.ports.get? k).isSome
    · rw [if_pos (mem_unlisted.mpr ⟨hs, hnot⟩)]
      rfl
    · rw [if_neg fun hk => hs (mem_unlisted.mp hk).1]
      simpa using hs

/-- Counters go with the ports that the list does not name. -/
theorem statistics_setPorts (rec : Record) (ps : List PortDescription) (k : Nat) :
    (rec.setPorts ps).1.statistics.get? k =
      if k ∈ rec.unlisted ps then none else rec.statistics.get? k := by
  rw [setPorts_eq, statistics_removeEach, setEach_statistics]
  by_cases hk : k ∈ rec.unlisted ps
  · have hnot := lastOf_eq_none_iff.mpr (mem_unlisted.mp hk).2
    simp [hk, get?_setEach, hnot, (mem_unlisted.mp hk).1]
  · simp [hk]

/-- After a list was reported it names all ports. -/
theorem unlisted_setPorts (rec : Record) (ps : List PortDescription) :
    (rec.setPorts ps).1.unlisted ps = [] := by
  rw [List.eq_nil_iff_forall_not_mem]
  intro k hk
  obtain ⟨hs, hnot⟩ := mem_unlisted.mp hk
  rw [get?_setPorts, lastOf_eq_none_iff.mpr hnot] at hs
  cases hs

theorem setPorts_again (rec : Record) (ps : List PortDescription) :
    ((rec.setPorts ps).1.setPorts ps).1 = (rec.setPorts ps).1 := by
  have hdevice := (rec.setPorts_device ps).1
  apply eq_of ((rec.setPorts ps).1.setPorts_device ps).1
  · intro k
    rw [get?_setPorts, hdevice, get?_setPorts]
  · intro k
    rw [statistics_setPorts, unlisted_setPorts]
    rfl

/-- A list that names no port twice has nothing to tell when it is reported again. -/
theorem setPorts_again_quiet (rec : Record) (h : (ps.map number).Nodup) :
    ((rec.setPorts ps).1.setPorts ps).2 = [] := by
  rw [setPorts_eq, unlisted_setPorts, setEach_known]
  · rfl
  · intro p hp
    rw [get?_setPorts, lastOf_of_nodup h hp, (rec.setPorts_device ps).1]
    rfl

end Replica.Record

namespace Replica

variable {r : Replica} {d : DeviceId} {rec : Record}

/-- Drops one port of a device, with its counters. -/
def removePort (r : Replica) (d : DeviceId) (k : Nat) : Replica × Option DeviceEvent :=
  match r.records.get? d with
  | none => (r, none)
  | some rec => (⟨r.records.insert d (rec.removePort k).1⟩, (rec.removePort k).2)

/-- Does one step after the other; answers with the events of all. -/
def inTurn {α : Type} (step : Replica → α → Replica × Option DeviceEvent) (r : Replica) :
    List α → Replica × List DeviceEvent
  | [] => (r, [])
  | x :: xs =>
    ((inTurn step (step r x).1 xs).1, (step r x).2.toList ++ (inTurn step (step r x).1 xs).2)

/-- Steps at one device are steps at its record. -/
theorem inTurn_of_record {α : Type} {step : Replica → α → Replica × Option DeviceEvent}
    (one : Record → α → Record × Option DeviceEvent)
    (all : Record → List α → Record × List DeviceEvent)
    (hstep : ∀ (r : Replica) rec x, r.records.get? d = some rec →
      step r x = (⟨r.records.insert d (one rec x).1⟩, (one rec x).2))
    (hnil : ∀ rec, all rec [] = (rec, []))
    (hcons : ∀ rec x xs, all rec (x :: xs) =
      ((all (one rec x).1 xs).1, (one rec x).2.toList ++ (all (one rec x).1 xs).2))
    (h : r.records.get? d = some rec) (xs : List α) :
    r.inTurn step xs = (⟨r.records.insert d (all rec xs).1⟩, (all rec xs).2) := by
  induction xs generalizing r rec with
  | nil => simp only [inTurn, hnil, Table.insert_eq_self h]
  | cons x xs ih =>
    have hrest := ih (r := ⟨r.records.insert d (one rec x).1⟩) (Table.get?_insert_self _ _ _)
    simp only [inTurn, hstep r rec x h, hrest, hcons, Table.insert_insert]

theorem inTurn_setPort (h : r.records.get? d = some rec) (ps : List PortDescription) :
    r.inTurn (·.setPort d ·) ps = (⟨r.records.insert d (rec.setEach ps).1⟩, (rec.setEach ps).2) := by
  apply inTurn_of_record Record.setPort Record.setEach _ (fun _ => rfl) (fun _ _ _ => rfl) h
  intro r rec p hrec
  simp only [setPort, hrec]

theorem inTurn_removePort (h : r.records.get? d = some rec) (ks : List Nat) :
    r.inTurn (·.removePort d ·) ks =
      (⟨r.records.insert d (rec.removeEach ks).1⟩, (rec.removeEach ks).2) := by
  apply inTurn_of_record Record.removePort Record.removeEach _ (fun _ => rfl) (fun _ _ _ => rfl) h
  intro r rec k hrec
  simp only [removePort, hrec]

theorem setPorts_of_record (h : r.records.get? d = some rec) (ps : List PortDescription) :
    r.setPorts d ps = (⟨r.records.insert d (rec.setPorts ps).1⟩, (rec.setPorts ps).2) := by
  simp only [setPorts, h]

/-- A list of ports is the reports of its ports, one by one, and then the dropping of the ports that
it does not name. -/
theorem setPorts_inTurn (h : r.records.get? d = some rec) (ps : List PortDescription) :
    r.setPorts d ps =
      (((r.inTurn (·.setPort d ·) ps).1.inTurn (·.removePort d ·) (rec.unlisted ps)).1,
        (r.inTurn (·.setPort d ·) ps).2 ++
          ((r.inTurn (·.setPort d ·) ps).1.inTurn (·.removePort d ·) (rec.unlisted ps)).2) := by
  have hdropped := inTurn_removePort (r := ⟨r.records.insert d (rec.setEach ps).1⟩)
    (Table.get?_insert_self _ _ _) (rec.unlisted ps)
  rw [inTurn_setPort h, hdropped, setPorts_of_record h, Record.setPorts_eq, Table.insert_insert]

/-- A full list of ports is exact, whatever numbers it repeats. Of a stored device exactly the listed
ports are stored afterwards, each as it was described last. The list does what the reports of its
descriptions do, one by one in their order, followed by the dropping of the ports that were stored and
are not listed, in ascending order, and it answers with the events of these steps. The counters of the
dropped ports are gone, and all others are kept. To report the list again changes nothing, and gives no
event if no number is repeated. -/
theorem setPorts_exact (h : r.records.get? d = some rec) (ps : List PortDescription) :
    (∀ k, (r.setPorts d ps).1.port? d k =
      (ps.filter (·.number = k)).getLast?.map (·.on rec.device.id)) ∧
    (∃ dropped : List Nat, dropped.Pairwise (· < ·) ∧
      (∀ k, k ∈ dropped ↔ (r.port? d k).isSome ∧ k ∉ ps.map PortDescription.number) ∧
      (let written := r.inTurn (·.setPort d ·) ps
       let rest := written.1.inTurn (·.removePort d ·) dropped
       r.setPorts d ps = (rest.1, written.2 ++ rest.2)) ∧
      ∃ rec', (r.setPorts d ps).1.records.get? d = some rec' ∧
        ∀ k, rec'.statistics.get? k = if k ∈ dropped then none else rec.statistics.get? k) ∧
    ((r.setPorts d ps).1.setPorts d ps).1 = (r.setPorts d ps).1 ∧
    ((ps.map PortDescription.number).Nodup → ((r.setPorts d ps).1.setPorts d ps).2 = []) := by
  have hset := setPorts_of_record h ps
  have hrec' : (r.setPorts d ps).1.records.get? d = some (rec.setPorts ps).1 := by
    rw [hset]
    exact Table.get?_insert_self _ _ _
  have hagain := setPorts_of_record hrec' ps
  refine ⟨?_, ⟨rec.unlisted ps, rec.unlisted_ascending ps, ?_, setPorts_inTurn h ps,
    (rec.setPorts ps).1, hrec', rec.statistics_setPorts ps⟩, ?_, ?_⟩
  · intro k
    rw [port?, hrec']
    exact rec.get?_setPorts ps k
  · intro k
    rw [Record.mem_unlisted, port?, h]
    rfl
  · rw [hagain, Record.setPorts_again, Table.insert_eq_self hrec']
  · intro hnodup
    rw [hagain]
    exact rec.setPorts_again_quiet hnodup

end Replica

namespace Sample

/-- A device with two ports, of which the second has counters; so has a port that it does not have. -/
def wired : Replica :=
  let stored := (({} : Replica).put ⟨"of", "sim"⟩ lamp default).1
  let ported := (stored.setPorts lamp [.gigabit 1 true, .gigabit 2 true]).1
  (ported.setStatistics lamp [{ (default : PortStatistics) with port := 2 },
    { (default : PortStatistics) with port := 3 }]).1

/-- The first port goes down and up again, the second is left out, and a fourth one is new. -/
def rewiring : List PortDescription := [.gigabit 1 false, .gigabit 4 true, .gigabit 1 true]

theorem wired_stored : ∃ rec, wired.records.get? lamp = some rec ∧ rec.device.id = lamp ∧
    (rec.statistics.get? 3).isSome := by
  have h : (wired.records.get? lamp).any (fun rec => rec.device.id == lamp &&
      (rec.statistics.get? 3).isSome) = true := by
    decide +kernel
  simpa [Option.any_eq_true, and_assoc] using h

end Sample

/-- A port that goes down and up is up, one that is left out is gone with its counters, and a list
without repetitions is told once. -/
theorem Replica.setPorts_rewires :
    (Sample.wired.setPorts Sample.lamp Sample.rewiring).1.port? Sample.lamp 1 =
        some ((PortDescription.gigabit 1 true).on Sample.lamp) ∧
      (∃ rec, (Sample.wired.setPorts Sample.lamp Sample.rewiring).1.records.get? Sample.lamp =
        some rec ∧ rec.statistics.get? 2 = none ∧ (rec.statistics.get? 3).isSome) ∧
      ((Sample.wired.setPorts Sample.lamp Sample.rewiring).1.setPorts Sample.lamp Sample.rewiring).1 =
        (Sample.wired.setPorts Sample.lamp Sample.rewiring).1 ∧
      ((Sample.wired.setPorts Sample.lamp [.gigabit 2 false]).1.setPorts Sample.lamp
        [.gigabit 2 false]).2 = [] := by
  obtain ⟨rec, hrec, hid, hcounters⟩ := Sample.wired_stored
  obtain ⟨hports, ⟨dropped, _, hdropped, _, rec', hrec', hkept⟩, hagain, _⟩ :=
    setPorts_exact hrec Sample.rewiring
  obtain ⟨_, _, _, hquiet⟩ := setPorts_exact hrec [.gigabit 2 false]
  have hsecond : 2 ∈ dropped := (hdropped 2).mpr (by decide +kernel)
  have hthird : 3 ∉ dropped := fun h => absurd ((hdropped 3).mp h) (by decide +kernel)
  refine ⟨?_, ⟨rec', hrec', ?_, ?_⟩, hagain, hquiet (by decide)⟩
  · have hfirst := hports 1
    rw [hid] at hfirst
    exact hfirst
  · rw [hkept, if_pos hsecond]
  · rw [hkept, if_neg hthird]
    exact hcounters

/-- Reported again, the port that is described twice goes down and up once more. -/
example : (((Sample.wired.setPorts Sample.lamp Sample.rewiring).1.setPorts Sample.lamp
    Sample.rewiring).2.map DeviceEvent.kind) = [.portUpdated, .portUpdated] := by
  decide +kernel

end Mastership
