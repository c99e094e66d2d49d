import Mastership.Proofs.Reports

namespace Mastership.Site

variable {d : DeviceId} {ms : List Seat.Move} {ps : List Push} {s s' : Site}

/-- The controller is told the election's own terms, and has seen no epoch beyond them. Hence its
decisions on the present term are never held for stale ones. -/
structure Truthful (s : Site) : Prop where
  terms : s.node.faults.terms = ∅
  seen : ∀ d, (s.node.roles.entry d).epoch ≤ (s.election.seat d).epoch

theorem Truthful.term?_eq (h : s.Truthful) (d : DeviceId) : s.term? d = s.election.term? d := by
  simp [term?, h.terms]

theorem term?_epoch {e : Election} {t : Term} (h : e.term? d = some t) :
    t.epoch = (e.seat d).epoch := by
  simp only [Election.term?, Seat.term?, Option.map_eq_some_iff] at h
  obtain ⟨n, _, rfl⟩ := h
  rfl

/-- An epoch that may come of the present term of a device. -/
def Opened (s : Site) (d : DeviceId) (epoch : Option Nat) : Prop :=
  epoch.getD 0 ≤ (s.election.seat d).epoch

theorem Truthful.opened (h : s.Truthful) (d : DeviceId) :
    s.Opened d ((s.term? d).map Term.epoch) := by
  rw [h.term?_eq, Opened]
  cases ht : s.election.term? d with
  | none => exact Nat.zero_le _
  | some t => simp [term?_epoch ht]

theorem Does.opened (h : Does d ms ps s s') {d' : DeviceId} {epoch : Option Nat}
    (he : s.Opened d' epoch) : s'.Opened d' epoch :=
  Nat.le_trans he (h.precedes d').epoch_le

/-- An operation about a device keeps a controller truthful if it notes no epoch of the device that
is not opened. -/
theorem Does.truthful (h : Does d ms ps s s') (ht : s.Truthful)
    (hd : (s'.node.roles.entry d).epoch ≤
      max (s.node.roles.entry d).epoch (s'.election.seat d).epoch) : s'.Truthful := by
  refine ⟨h.terms.trans ht.terms, ?_⟩
  intro d'
  have hp := (h.precedes d').epoch_le
  by_cases hd' : d' = d
  · subst hd'
    exact Nat.le_trans hd (Nat.max_le.mpr ⟨Nat.le_trans (ht.seen d') hp, Nat.le_refl _⟩)
  · rw [h.role_ne hd']
    exact Nat.le_trans (ht.seen d') hp

theorem Does.truthful_of_eq (h : Does d ms ps s s') (ht : s.Truthful)
    (hd : s'.node.roles = s.node.roles) : s'.Truthful :=
  h.truthful ht (by rw [hd]; exact Nat.le_max_left _ _)

/-- A decision on the present term is current. -/
theorem Truthful.current (h : s.Truthful) (d : DeviceId) : s.current d (s.term? d) = true := by
  rw [h.term?_eq]
  cases ht : s.election.term? d with
  | none => rfl
  | some t => simpa [Site.current, term?_epoch ht] using h.seen d

theorem Truthful.asked (h : s.Truthful) (d : DeviceId) (requested : Role) :
    (s.asked d requested).Truthful :=
  (asked_does s d requested).truthful_of_eq h (by simp only [Site.asked]; split <;> simp)

theorem asked_roles (s : Site) (d : DeviceId) (requested : Role) :
    (s.asked d requested).node.roles = s.node.roles := by
  unfold Site.asked
  split <;> simp

theorem observed_entry (s : Site) (d : DeviceId) (t : Option Term) :
    (s.observeEpoch d t).1.node.roles.entry d =
      ⟨(s.node.roles.entry d).role,
        max (s.node.roles.entry d).epoch ((t.map Term.epoch).getD 0)⟩ := by
  cases t with
  | none => simp [observeEpoch]
  | some t => simp [observeEpoch, RoleTable.entry_observe]

/-- What is known of a device once its present term was noted. -/
theorem informed_entry (s : Site) (d : DeviceId) (requested : Role) :
    (s.informed d requested).node.roles.entry d =
      ⟨(s.node.roles.entry d).role, max (s.node.roles.entry d).epoch
        ((((s.informed d requested).term? d).map Term.epoch).getD 0)⟩ := by
  rw [informed_term?]
  simp only [informed, observed_entry, observeTerm_roles, asked_roles]

theorem Truthful.informed (h : s.Truthful) (d : DeviceId) (requested : Role) :
    (s.informed d requested).Truthful := by
  have hi := informed_does s d requested
  have ht : (s.informed d requested).term? d = (s.informed d requested).election.term? d := by
    simp [term?, hi.terms, h.terms]
  apply hi.truthful h
  rw [informed_entry, ht]
  refine Nat.max_le.mpr ⟨Nat.le_max_left _ _, Nat.le_trans ?_ (Nat.le_max_right _ _)⟩
  cases hs : (s.informed d requested).election.term? d with
  | none => exact Nat.zero_le _
  | some t => simp [term?_epoch hs]

theorem Truthful.relinquish (h : s.Truthful) (d : DeviceId) : (s.relinquish d).Truthful := by
  apply (relinquish_does s d).truthful h
  rw [relinquish_roles, RoleTable.entry_clear]
  exact Nat.le_max_left _ _

theorem Truthful.conclude (h : s.Truthful) {p : Push} (hp : s.Opened p.device p.epoch)
    (result : Except Failure Unit) : (s.conclude p result).Truthful := by
  have hc := conclude_does s p result
  apply hc.truthful h
  cases result with
  | error e =>
    rw [conclude_error_roles, RoleTable.entry_clear]
    exact Nat.le_max_left _ _
  | ok =>
    have he : p.epoch.getD 0 ≤ _ := hc.opened hp
    have hr := RoleTable.epoch_record_le s.node.roles p.device p.role p.epoch
    rw [conclude_ok_roles]
    omega

theorem Truthful.answer (h : s.Truthful) {p : Push} (hp : s.Opened p.device p.epoch) :
    (s.answer p).Truthful := by
  obtain ⟨s₁, hs, hr, _, he⟩ := answer_eq s p
  rw [he]
  exact (hs.truthful_of_eq h hr).conclude (hs.opened hp) _

theorem Truthful.startPush (h : s.Truthful) {role : Role} {epoch : Option Nat}
    (he : s.Opened d epoch) (sequel : Push.Sequel) :
    (s.startPush d role epoch sequel).1.Truthful := by
  unfold Site.startPush
  split
  · exact h.conclude (p := ⟨0, d, role, epoch, sequel⟩) he _
  · exact h.conclude (p := ⟨0, d, role, epoch, sequel⟩) he _
  · exact ⟨h.terms, h.seen⟩

theorem Truthful.reassert (h : s.Truthful) (d : DeviceId) (requested : Role) :
    (s.reassert d requested).1.Truthful := by
  have hi := h.informed d requested
  rw [reassert_eq]
  dsimp only
  split
  · have hm := markIf_does (s.informed d requested) d ((s.informed d requested).target d requested)
    refine (hm.truthful_of_eq hi ?_).startPush (hm.opened (hi.opened d)) _
    split <;> simp
  · exact hi

theorem Truthful.connected (h : s.Truthful) (slot : Nat) (d : DeviceId)
    (description : DeviceDescription) : (s.connected slot d description).1.Truthful := by
  have hi := h.informed d .none
  rw [connected_eq]
  dsimp only
  split
  · exact hi.startPush (hi.opened d) _
  · exact (store_does _ _ d description).truthful_of_eq hi rfl

theorem Truthful.connect (h : s.Truthful) (slot : Nat) (d : DeviceId)
    (description : DeviceDescription) : (s.connect slot d description).1.1.Truthful := by
  unfold Site.connect
  split
  · exact h
  · exact h.connected slot d description

theorem Truthful.handle (h : s.Truthful) (a : Announcement) : (s.handle a).1.Truthful := by
  simp only [Site.handle]
  split
  · exact h
  · have hs : (s.suggestedRole a).1.Truthful :=
      (suggestedRole_does s a).truthful_of_eq h (by simp only [suggestedRole]; split <;> simp)
    simp only [followMaster]
    split
    · exact hs
    · split
      · exact hs
      · exact hs.relinquish a.device
    · split
      · exact hs.reassert a.device _
      · exact hs

theorem Truthful.check (h : s.Truthful) (d : DeviceId) : (s.check d).1.Truthful := by
  unfold Site.check
  split
  · split
    · exact h.reassert d .none
    · exact h
  · exact h

theorem disconnected_entry (s : Site) (d : DeviceId) :
    (s.disconnected d).1.node.roles.entry d = {} := by
  simp only [disconnected]
  split <;> simp [release, RoleTable.entry_forget]

theorem Truthful.disconnect (h : s.Truthful) (slot : Nat) (d : DeviceId) :
    (s.disconnect slot d).1.Truthful := by
  unfold Site.disconnect
  split
  · exact h
  · obtain ⟨ms, _, hd⟩ := disconnected_does s d
    apply hd.truthful h
    rw [disconnected_entry]
    exact Nat.zero_le _

theorem Truthful.remove (h : s.Truthful) (d : DeviceId) : (s.remove d).Truthful := by
  apply (remove_does s d).truthful h
  unfold Site.remove
  split
  · exact Nat.le_max_left _ _
  · exact Nat.le_trans (Nat.le_of_eq (by simp [post, RoleTable.entry_forget])) (Nat.zero_le _)

end Mastership.Site
