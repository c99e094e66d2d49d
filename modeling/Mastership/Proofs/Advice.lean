import Mastership.Proofs.Audit
import Mastership.Proofs.LastConnection
import Mastership.Proofs.Reactions

namespace Mastership
namespace Site

variable {d : DeviceId} {s : Site} {a : Announcement}

/-- Giving up a device leaves all that a controller has as it is, but for the role. -/
theorem relinquish_node (s : Site) (d : DeviceId) :
    (s.relinquish d).node = { s.node with roles := (s.node.roles.clear d).1 } := by
  simp only [Site.relinquish]
  split <;> simp [setRoles]

/-- Weighing an announcement leaves all that a controller has as it is, but for the clock. -/
theorem suggestedRole_node (s : Site) (a : Announcement) :
    ∃ clock, (s.suggestedRole a).1.node = { s.node with clock } := by
  unfold suggestedRole
  split
  · cases ht : s.term? a.device with
    | none => exact ⟨s.node.clock, by simp [observeTerm, ht]⟩
    | some t => exact ⟨(s.node.clock.setTerm a.device t).1, by simp [observeTerm, ht]⟩
  · exact ⟨s.node.clock, rfl⟩

/-- What a controller does that hears of a device's master and cannot reach the device: it gives the
device up if it is named, and else nothing. -/
theorem heed_unreached (hk : a.kind = .master) (hr : s.reachable? a.device = some false) :
    s.handle a = (s.heed a, none) ∧ s.heed a =
      if a.standing.roleOf s.node.id = .none then (s.suggestedRole a).1
      else (s.suggestedRole a).1.relinquish a.device := by
  have hr₁ := (suggestedRole_does s a).reachable? a.device
  rw [hr] at hr₁
  have hhandle : s.handle a = (if a.standing.roleOf s.node.id = .none then (s.suggestedRole a).1
      else (s.suggestedRole a).1.relinquish a.device, none) := by
    simp only [handle, hk, followMaster, hr₁, suggestedRole_none_iff]
  rw [heed, hhandle]
  exact ⟨rfl, rfl⟩

/-- Nothing is pushed to a device that cannot be reached, and what is stored of it stays. -/
theorem heed_unreached_node (hk : a.kind = .master) (hr : s.reachable? a.device = some false) :
    (s.heed a).node.south = s.node.south ∧ (s.heed a).node.replica = s.node.replica := by
  obtain ⟨clock, hclock⟩ := s.suggestedRole_node a
  rw [(heed_unreached hk hr).2]
  split
  · rw [hclock]
    exact ⟨rfl, rfl⟩
  · rw [relinquish_node, hclock]
    exact ⟨rfl, rfl⟩

/-- The role is taken back from a device out of reach only by a controller that is named. -/
theorem heed_unreached_applied (hk : a.kind = .master) (hr : s.reachable? a.device = some false) :
    (s.heed a).applied a.device =
      if a.standing.roleOf s.node.id = .none then s.applied a.device else .none := by
  rw [(heed_unreached hk hr).2]
  split
  · exact applied_of_roles (suggestedRole_roles s a) a.device
  · exact relinquish_applied _ _

/-- Whoever is named in the standing queues. -/
theorem standing_roleOf_eq_none_iff {e : Election} {n : NodeId} :
    (e.standing d).roleOf n = .none ↔ n ∉ e.queue d :=
  Seat.roleOf_eq_none_iff

/-- A controller told of the standing as it is leaves the queue of a device out of reach. -/
theorem heed_unreached_queue (ho : ∀ d, (s.election.seat d).Orderly)
    (hf : s.node.faults.relinquish = false) (hr : s.reachable? d = some false) :
    s.node.id ∉ (s.heed ⟨.master, d, s.election.standing d⟩).election.queue d := by
  let a : Announcement := ⟨.master, d, s.election.standing d⟩
  have hs := suggestedRole_does s a
  have helection : (s.suggestedRole a).1.election = s.election := hs.election
  have hheed := (heed_unreached (a := a) rfl hr).2
  rw [hheed]
  split
  · next hn =>
    rw [helection]
    exact standing_roleOf_eq_none_iff.mp hn
  · have hd := relinquish_does (s.suggestedRole a).1 d
    have hw : s.withdrawals = [.relinquish s.node.id] := if_neg (by simp [hf])
    rw [hs.withdrawals_eq, hw] at hd
    rw [Election.queue, hd.election, helection]
    exact relinquish_leaves ho [] s.node.id

/-- What is applied to a device that accepts roles, once the controller has heard of its master. -/
theorem Truthful.heed_applied (ht : s.Truthful) (hk : a.kind = .master)
    (hr : s.reachable? a.device = some true) (hstored : s.stored a.device = true)
    (haccepts : s.accepts a.device = true) :
    (s.heed a).applied a.device =
      if a.standing.roleOf s.node.id = .standby then .standby else (s.heed a).due a.device := by
  have hh := ht.hears a
  obtain ⟨ps, hd⟩ := hh.does
  have hid : (s.heed a).node.id = s.node.id := hd.id
  refine (hh.near hk hr hstored haccepts).trans ?_
  rw [due, owns_term?, hid, targetRole, heed]
  by_cases hw : a.standing.roleOf s.node.id = .standby <;> simp [hw]

end Site

/-- Whatever has happened, and whatever terms the controller is told: a member that hears the present
standing of a device that it cannot reach, and whose plea is granted, neither owns the device nor
waits for it afterwards. It has pushed nothing and changed nothing that it stores. The role applied
to the device is taken back if the standing names the member, and stays as it is if not. -/
theorem World.unreached_device_let_go {c : Cluster} (hc : c.Fresh) (as : List Act) {n : NodeId}
    {s : Site} (hs : (as.foldl World.step ⟨c, []⟩).cluster.site? n = some s) {d : DeviceId}
    (hr : s.reachable? d = some false) (hf : s.node.faults.relinquish = false) :
    let standing := (as.foldl World.step ⟨c, []⟩).cluster.election.standing d
    let a : Announcement := ⟨.master, d, standing⟩
    n ∉ (s.heed a).election.queue d ∧
      (s.heed a).applied d = (if standing.roleOf n = .none then s.applied d else .none) ∧
      s.handle a = (s.heed a, none) ∧
      (s.heed a).node.south = s.node.south ∧ (s.heed a).node.replica = s.node.replica := by
  have hkept := (kept_of_fresh hc).run as
  have hid := hkept.id n s hs
  have he := Cluster.site?_election hs
  intro standing a
  have hk : a.kind = .master := rfl
  have ha : a = ⟨.master, d, s.election.standing d⟩ := by rw [he]
  refine ⟨?_, ?_, (Site.heed_unreached hk hr).1, Site.heed_unreached_node hk hr⟩
  · rw [ha, ← hid]
    exact Site.heed_unreached_queue (he ▸ hkept.orderly) hf hr
  · rw [← hid]
    exact Site.heed_unreached_applied hk hr

namespace Sample

/-- The owner of the device loses the line to it. -/
def strandedActs : List World.Act := joins east ++ [.change east (.setLine 0 lamp {})]

def stranded : World := strandedActs.foldl World.step ⟨pair, []⟩

theorem stranded_owns : ∃ s, stranded.cluster.site? east = some s ∧
    s.reachable? lamp = some false ∧ s.node.faults = {} ∧ s.applied lamp = .master ∧
    (stranded.cluster.election.standing lamp).roleOf east = .master := by
  have h : (stranded.cluster.site? east).any (fun s =>
      s.reachable? lamp == some false && s.node.faults == {} && s.applied lamp == .master &&
        (stranded.cluster.election.standing lamp).roleOf east == .master) = true := by
    decide +kernel
  simpa [Option.any_eq_true, and_assoc] using h

/-- Besides, the device is given up by hand before its owner hears anything. -/
def stripped : World := stranded.step (.relinquish east lamp)

theorem stripped_reachable : stripped.Reachable := by
  refine ((World.Reachable.fresh pair_fresh).run ?_).step trivial
  intro a ha
  rcases List.mem_append.mp ha with ha | ha
  · exact joins_honest east a ha
  · rw [List.mem_singleton.mp ha]
    trivial

theorem stripped_unnamed : ∃ s, stripped.cluster.site? east = some s ∧
    s.reachable? lamp = some false ∧ s.node.faults = {} ∧ s.applied lamp = .master ∧
    (stripped.cluster.election.standing lamp).roleOf east = .none := by
  have h : (stripped.cluster.site? east).any (fun s =>
      s.reachable? lamp == some false && s.node.faults == {} && s.applied lamp == .master &&
        (stripped.cluster.election.standing lamp).roleOf east == .none) = true := by
    decide +kernel
  simpa [Option.any_eq_true, and_assoc] using h

end Sample

/-- The owner gives up a device that it cannot reach. -/
theorem World.stranded_let_go : ∃ s, Sample.stranded.cluster.site? Sample.east = some s ∧
    let a : Announcement :=
      ⟨.master, Sample.lamp, Sample.stranded.cluster.election.standing Sample.lamp⟩
    Sample.east ∉ (s.heed a).election.queue Sample.lamp ∧
      (s.heed a).applied Sample.lamp = .none := by
  obtain ⟨s, hs, hr, hf, _, hm⟩ := Sample.stranded_owns
  obtain ⟨hq, happlied, _⟩ :=
    unreached_device_let_go Sample.pair_fresh Sample.strandedActs hs hr (by rw [hf])
  exact ⟨s, hs, hq, happlied.trans (if_neg (hm.trans_ne (by decide)))⟩

/-- A device out of reach that the member does not queue for may keep the role once applied to it. -/
theorem World.unreached_role_kept : ¬ ∀ (w : World) (n : NodeId) (s : Site) (d : DeviceId),
    w.Reachable → w.cluster.site? n = some s → s.reachable? d = some false → s.node.faults = {} →
    (s.heed ⟨.master, d, w.cluster.election.standing d⟩).applied d = .none := by
  intro h
  obtain ⟨s, hs, hr, hf, hm, hn⟩ := Sample.stripped_unnamed
  have hid := Sample.stripped_reachable.lawful.id _ s hs
  let a : Announcement := ⟨.master, Sample.lamp, Sample.stripped.cluster.election.standing Sample.lamp⟩
  have happlied : (s.heed a).applied Sample.lamp = _ := Site.heed_unreached_applied (a := a) rfl hr
  have hnone : a.standing.roleOf s.node.id = .none := hid ▸ hn
  rw [h Sample.stripped Sample.east s Sample.lamp Sample.stripped_reachable hs hr hf, if_pos hnone]
    at happlied
  cases happlied.trans hm

/-- Announcements are advice, but for one thing. A reached and stored device that accepts roles gets
the role that its term gives to the member, MASTER for the owner and STANDBY for others, whatever is
announced of its master, as long as the member is not announced to wait. Then it gets STANDBY. -/
theorem World.advice_yields_to_term {w : World} (hw : w.Reachable) {n : NodeId} {s : Site}
    (hs : w.cluster.site? n = some s) {a : Announcement} (hk : a.kind = .master)
    (hstored : s.stored a.device = true) (hr : s.reachable? a.device = some true)
    (haccepts : s.accepts a.device = true) :
    (s.heed a).applied a.device =
      if a.standing.roleOf n = .standby then .standby else (s.heed a).due a.device := by
  rw [← hw.lawful.id n s hs]
  exact (hw.lawful.truthful n s hs).heed_applied hk hr hstored haccepts

namespace Sample

theorem queued_serves : ∃ s, queued.cluster.site? east = some s ∧ s.stored lamp = true ∧
    s.reachable? lamp = some true ∧ s.accepts lamp = true := by
  have h : (queued.cluster.site? east).any (fun s =>
      s.stored lamp && s.reachable? lamp == some true && s.accepts lamp) = true := by
    decide +kernel
  simpa [Option.any_eq_true, and_assoc] using h

/-- The owner is made master again, but has not heard yet that it was not. -/
def regained : World := seized.step (.setRole east lamp .master)

theorem regained_reachable : regained.Reachable := seized_reachable.step trivial

/-- What was announced when the owner lost the device. -/
def outdated : Announcement := ⟨.master, lamp, ⟨some west, [east]⟩⟩

theorem regained_serves : ∃ s, regained.cluster.site? east = some s ∧ s.stored lamp = true ∧
    s.reachable? lamp = some true ∧ s.accepts lamp = true ∧ s.node.faults = {} ∧
    (s.heed outdated).due lamp = .master := by
  have h : (regained.cluster.site? east).any (fun s =>
      s.stored lamp && s.reachable? lamp == some true && s.accepts lamp && s.node.faults == {} &&
        (s.heed outdated).due lamp == .master) = true := by
    decide +kernel
  simpa [Option.any_eq_true, and_assoc] using h

end Sample

/-- That another member is master is announced without its ever having been so. -/
theorem World.false_master_unheeded : ∃ s, Sample.queued.cluster.site? Sample.east = some s ∧
    (s.heed ⟨.master, Sample.lamp, ⟨some Sample.west, []⟩⟩).applied Sample.lamp =
      (s.heed ⟨.master, Sample.lamp, ⟨some Sample.west, []⟩⟩).due Sample.lamp := by
  obtain ⟨s, hs, hstored, hr, haccepts⟩ := Sample.queued_serves
  exact ⟨s, hs, (advice_yields_to_term Sample.queued_reachable hs (a := ⟨.master, Sample.lamp,
    ⟨some Sample.west, []⟩⟩) rfl hstored hr haccepts).trans (if_neg (by decide))⟩

/-- The owner of a device, announced to wait for it by what was true before, waits. -/
theorem World.announced_backup_waits : ¬ ∀ (w : World) (n : NodeId) (s : Site) (a : Announcement),
    w.Reachable → w.cluster.site? n = some s → a.kind = .master → s.stored a.device = true →
    s.reachable? a.device = some true → s.accepts a.device = true → s.node.faults = {} →
    (s.heed a).InRole a.device := by
  intro h
  obtain ⟨s, hs, hstored, hr, haccepts, hf, hdue⟩ := Sample.regained_serves
  have hlawful := Sample.regained_reachable.lawful
  have hid := hlawful.id _ s hs
  have hrole := h Sample.regained Sample.east s Sample.outdated Sample.regained_reachable hs rfl
    hstored hr haccepts hf
  have hwaits := (hlawful.truthful _ s hs).heed_applied (a := Sample.outdated) rfl hr hstored haccepts
  rw [if_pos (hid ▸ by decide), hrole] at hwaits
  cases hdue.symm.trans hwaits

end Mastership
