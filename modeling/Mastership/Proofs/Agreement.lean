import Mastership.Proofs.Audit
import Mastership.Proofs.LastConnection
import Mastership.Proofs.Reactions

namespace Mastership
namespace Site

variable {d : DeviceId} {ms : List Seat.Move} {ps : List Push} {s s' : Site} {p : Push}

/-- The controller is a candidate of the device, and all that tells of its role tells the same. -/
structure Holds (s : Site) (d : DeviceId) : Prop where
  queued : s.node.id ∈ s.election.queue d
  applied : s.applied d = s.due d
  elected : s.electedRole d = s.due d

/-- The controller is no candidate of the device, and applies no role to it. -/
structure Yields (s : Site) (d : DeviceId) : Prop where
  out : s.node.id ∉ s.election.queue d
  applied : s.applied d = .none

/-- How a decision about `d` ends that was begun at `s`, by whether a push of it was left and what the
device answers to that. -/
inductive Ends (d : DeviceId) (s : Site) : Site × Option Push → Prop
  | accepted {s' : Site} {p : Push} : p.device = d → s'.reply p = .ok () → (s'.answer p).Holds d →
      Ends d s (s', some p)
  | refused {s' : Site} {p : Push} {e : Failure} : p.device = d → s'.reply p = .error e →
      (s'.answer p).Yields d → Ends d s (s', some p)
  | unserved {s' : Site} : s.node.south.slotFor d = none → s'.Yields d → Ends d s (s', none)

/-- Whether a decision gets past the guard against stale ones, if the controller asks for the device
and reads the term now. -/
def admits (s : Site) (d : DeviceId) : Bool :=
  let (s, term) := (s.request d).observeTerm d
  (s.observeEpoch d term).2

/-- The tasks by which a controller asks for a device and decides on its role. -/
inductive Deciding (s : Site) : Task → Prop
  | connect {slot : Nat} (d : DeviceId) (description : DeviceDescription) :
      s.refusal? slot = none → Deciding s (.connect slot d description)
  | reassert (d : DeviceId) : Deciding s (.reassert d .none)
  | check {d : DeviceId} : s.reachable? d = some true → s.electedRole d = .none →
      Deciding s (.check d)

theorem Truthful.admits (ht : s.Truthful) (d : DeviceId) : s.admits d = true := by
  have hcurrent := (ht.asked d .none).current d
  rw [Site.asked, if_pos rfl] at hcurrent
  simp only [Site.admits, observeEpoch_answer, observeTerm_answer]
  simpa [Site.current] using hcurrent

theorem Does.orderly (h : Does d ms ps s s') (ho : ∀ d, (s.election.seat d).Orderly) :
    ∀ d, (s'.election.seat d).Orderly := by
  rw [h.election]
  exact Election.moves_orderly ho d ms

/-- A push that fails costs the controller its place and its role. -/
theorem conclude_error_yields (ho : ∀ d, (s.election.seat d).Orderly)
    (hf : s.node.faults.relinquish = false) (p : Push) (e : Failure) :
    (s.conclude p (.error e)).Yields p.device := by
  have hd := conclude_does s p (.error e)
  have hw : s.givesUp (.error e) = [.relinquish s.node.id] := if_neg (by simp [hf])
  rw [hw] at hd
  refine ⟨?_, conclude_error_applied s p e⟩
  rw [hd.id, Election.queue, hd.election]
  exact relinquish_leaves ho [] s.node.id

theorem answer_error_yields (ho : ∀ d, (s.election.seat d).Orderly)
    (hf : s.node.faults.relinquish = false) {e : Failure} (hr : s.reply p = .error e) :
    (s.answer p).Yields p.device := by
  obtain ⟨s₁, hd, _, _, he⟩ := answer_eq s p
  rw [he, hr]
  exact conclude_error_yields (hd.orderly ho) (hd.relinquish.trans hf) p e

/-- Without a provider for the device a push fails at once. -/
theorem startPush_unserved (h : s.node.south.slotFor d = none) {role : Role} (hr : role ≠ .none)
    (epoch : Option Nat) (sequel : Push.Sequel) :
    s.startPush d role epoch sequel =
      (s.conclude ⟨0, d, role, epoch, sequel⟩ (.error (.noProvider d)), none) := by
  simp only [startPush, Southbound.start, hr, if_false, h]

theorem startPush_unserved_ends (h : Does d ms [] s s') (hs : s.node.south.slotFor d = none)
    (ho : ∀ d, (s.election.seat d).Orderly) (hf : s.node.faults.relinquish = false) {role : Role}
    (hr : role ≠ .none) (epoch : Option Nat) (sequel : Push.Sequel) :
    Ends d s (s'.startPush d role epoch sequel) := by
  rw [startPush_unserved ((h.south.slotFor d).trans hs) hr]
  exact .unserved hs (conclude_error_yields (h.orderly ho) (h.relinquish.trans hf) _ _)

/-- A candidate has the role that its term gives. -/
theorem electedRole_of_queued (h : s.node.id ∈ s.election.queue d) : s.electedRole d = s.due d := by
  have hmem : s.election.master? d = some s.node.id ∨ s.node.id ∈ (s.election.seat d).backups :=
    Seat.mem_queue.mp h
  rw [due, owns_term?]
  by_cases hm : s.election.master? d = some s.node.id
  · simp only [hm, decide_true, if_true]
    exact if_pos hm
  · have hb := hmem.resolve_left hm
    simp only [hm, decide_false, Bool.false_eq_true, if_false]
    exact (if_neg hm).trans (if_pos hb)

/-- Whatever the device answers to a push for which the controller has asked the election, that ends
the matter. -/
theorem Pushes.ends {sequel : Push.Sequel} (h : Pushes d s.requests .none sequel s s' p)
    (ho : ∀ d, (s.election.seat d).Orderly) (hq : s.node.faults.request = false)
    (hl : s.node.faults.relinquish = false) : Ends d s (s', some p) := by
  have hdevice := h.device
  subst hdevice
  rcases reply_of_fits h.fits with ⟨haccepts, hreply⟩ | ⟨_, e, hreply⟩
  · -- The answer moves nobody in the election, so that the place asked for is still held.
    obtain ⟨hd, happlied⟩ := answer_accepted h.fits h.timely haccepts
    have he : (s'.answer p).election = s'.election := hd.election
    have hqueued : (s'.answer p).node.id ∈ (s'.answer p).election.queue p.device := by
      rw [he, hd.id]
      exact not_not.mp (mt electedRole_eq_none_iff.mpr (h.elected hq))
    have hdue : (s'.answer p).due p.device = p.role := by
      rw [h.role, targetRole_asked, due, owns_term?, he, hd.id, h.does.id]
    exact .accepted rfl hreply ⟨hqueued, happlied.trans hdue.symm, electedRole_of_queued hqueued⟩
  · exact .refused rfl hreply
      (answer_error_yields (h.does.orderly ho) (h.does.relinquish.trans hl) hreply)

theorem Truthful.reassert_ends (ht : s.Truthful) (ho : ∀ d, (s.election.seat d).Orderly)
    (hq : s.node.faults.request = false) (hl : s.node.faults.relinquish = false) (d : DeviceId) :
    Ends d s (s.reassert d .none) := by
  cases hs : s.node.south.slotFor d with
  | some slot =>
    obtain ⟨s', p, he, hp⟩ := ht.reassert_pushes (d := d) (by simp [hs]) .none
    rw [he]
    exact Pushes.ends (by simpa [asking] using hp) ho hq hl
  | none =>
    rw [ht.reassert_starts]
    have hi := (informed_does s d .none).then (markIf_does _ d ((s.informed d .none).target d .none))
    exact startPush_unserved_ends hi hs ho hl (targetRole_ne_none _ _) _ _

theorem Truthful.connected_ends (ht : s.Truthful) (ho : ∀ d, (s.election.seat d).Orderly)
    (hq : s.node.faults.request = false) (hl : s.node.faults.relinquish = false) (slot : Nat)
    (d : DeviceId) (description : DeviceDescription) :
    Ends d s (s.connected slot d description) := by
  cases hs : s.node.south.slotFor d with
  | some _ =>
    obtain ⟨s', p, he, hp⟩ := ht.connected_pushes (d := d) (by simp [hs]) slot description
    rw [he]
    exact hp.ends ho hq hl
  | none =>
    rw [ht.connected_starts]
    exact startPush_unserved_ends (informed_does s d .none) hs ho hl (targetRole_ne_none _ _) _ _

theorem Deciding.ends {t : Task} (h : s.Deciding t) (ht : s.Truthful)
    (ho : ∀ d, (s.election.seat d).Orderly) (hq : s.node.faults.request = false)
    (hl : s.node.faults.relinquish = false) : Ends t.device s (s.run t) := by
  cases h with
  | connect d description hr =>
    simp only [run, Site.connect, hr]
    exact ht.connected_ends ho hq hl _ d description
  | reassert d => exact ht.reassert_ends ho hq hl d
  | check hr he =>
    simp only [run, Site.check, hr, he, if_true]
    exact ht.reassert_ends ho hq hl _

end Site

/-- Every decision for which a member asks the election, and is heard, ends in agreement or in giving
up. Whatever has happened before, the guard against stale decisions lets it pass. Done alone, it ends
with a push that the device accepts, after which the member is a candidate and the role applied, the
role elected and the role that the term gives are the same; or with a push that is refused or that
nobody can take, after which the member is no candidate and applies no role. -/
theorem World.decision_ends {w : World} (hw : w.Reachable) {n : NodeId} {s : Site}
    (hs : w.cluster.site? n = some s) (hq : s.node.faults.request = false)
    (hl : s.node.faults.relinquish = false) {t : Site.Task} (ht : s.Deciding t) :
    s.admits t.device = true ∧ s.Ends t.device (s.run t) := by
  have hlawful := hw.lawful
  have htruthful := hlawful.truthful n s hs
  refine ⟨htruthful.admits t.device, ?_⟩
  exact ht.ends htruthful (Cluster.site?_election hs ▸ hlawful.orderly) hq hl

/-- The audit's check by which a member asks anew for the device that it was made to give up. -/
theorem World.forsaken_check_ends : ∃ s, Sample.forsaken.cluster.site? Sample.east = some s ∧
    s.admits Sample.lamp = true ∧ s.Ends Sample.lamp (s.run (.check Sample.lamp)) := by
  obtain ⟨s, hs, hf, hr, _⟩ := Sample.forsaken_site (.inl rfl)
  have hunassigned : s.electedRole Sample.lamp = .none := by
    have h : (Sample.forsaken.cluster.site? Sample.east).all
        (·.electedRole Sample.lamp == .none) = true := by
      decide +kernel
    exact beq_iff_eq.mp (Option.all_eq_true _ _ |>.mp h s hs)
  have ht : s.Deciding (.check Sample.lamp) := .check hr hunassigned
  have hends := decision_ends Sample.forsaken_reachable hs (by rw [hf]) (by rw [hf]) ht
  exact ⟨s, hs, hends⟩

end Mastership
