import Mastership.Proofs.Decisions

namespace Mastership.Site

variable {d : DeviceId} {s : Site}

theorem markOffline_does (s : Site) (d : DeviceId) : Does d [] [] s (s.markOffline d).1 := by
  have hf : Does d [] [] s
      { s with node := { s.node with
        faults := { s.node.faults with offline := s.node.faults.offline.tail } } } :=
    { Does.refl d s with }
  simp only [markOffline]
  split
  · exact hf
  · exact hf
  · exact hf
  · have hm : Does d [] [] s
        { s with node := { s.node with
          faults := { s.node.faults with offline := s.node.faults.offline.tail }
          replica := (s.node.replica.markOffline s.node.clock d).1
          clock := (s.node.replica.markOffline s.node.clock d).2.1 } } :=
      { Does.refl d s with
        records := fun _ hd => Replica.get?_markOffline_of_ne _ hd _
        clock := fun _ hd => Replica.clock_markOffline_of_ne _ hd _ }
    split <;> exact hm

theorem disablePorts_does (s : Site) (d : DeviceId) : Does d [] [] s (s.disablePorts d) :=
  setReplica_does s fun _ hd => Replica.get?_setPorts_of_ne _ hd _

/-- Marking a device offline moves nothing, or asks for the device first. -/
theorem markDisconnected_does (s : Site) (d : DeviceId) :
    ∃ ms, (ms = [] ∨ ms = s.requests) ∧ Does d ms [] s (s.markDisconnected d).1 := by
  have hm := (markOffline_does _ d).after (disablePorts_does s d)
  simp only [markDisconnected]
  split
  · next s₁ e h =>
    rw [h] at hm
    dsimp only at hm
    split
    · have ha := ((request_does s₁ d).then (observeTerm_does _ d)).after hm
      rw [hm.requests_eq] at ha
      split
      · exact ⟨_, .inr rfl, ha.then (markOffline_does _ d)⟩
      · exact ⟨_, .inr rfl, ha⟩
    · exact ⟨_, .inl rfl, hm⟩
  · next s₁ m _ h =>
    rw [h] at hm
    exact ⟨_, .inl rfl, hm⟩

theorem release_does (s : Site) (d : DeviceId) : Does d s.withdrawals [] s (s.release d) :=
  (relinquish_does s d).then (setRoles_does _ fun _ hd => RoleTable.get?_forget_of_ne _ _ hd)

theorem disconnected_does (s : Site) (d : DeviceId) :
    ∃ ms, (ms = s.withdrawals ∨ ms = s.requests ++ s.withdrawals) ∧
      Does d ms [] s (s.disconnected d).1 := by
  obtain ⟨ms, hms, hm⟩ := markDisconnected_does s d
  have hr := hm.trans (release_does _ d)
  rw [hm.withdrawals_eq] at hr
  refine ⟨ms ++ s.withdrawals, ?_, ?_⟩
  · rcases hms with rfl | rfl
    · exact .inl (List.nil_append _)
    · exact .inr rfl
  · simp only [disconnected]
    split
    · exact hr.then (postAll_does d _ _)
    · exact hr
    · exact hr

theorem disconnect_does (s : Site) (slot : Nat) (d : DeviceId) :
    ∃ ms, Does d ms [] s (s.disconnect slot d).1 := by
  unfold disconnect
  split
  · exact ⟨_, .refl d s⟩
  · obtain ⟨ms, _, h⟩ := disconnected_does s d
    exact ⟨ms, h⟩

theorem guarded_does {ms : List Seat.Move} (slot : Nat) {f : Site → Site}
    (h : Does d ms [] s (f s)) : ∃ ms', Does d ms' [] s (s.guarded slot f).1 := by
  unfold guarded
  split
  · exact ⟨_, .refl d s⟩
  · exact ⟨_, h⟩

theorem portsReported_does (s : Site) (d : DeviceId) (ps : List PortDescription) :
    Does d [] [] s (s.portsReported d ps) := by
  unfold portsReported
  split
  · exact (setReplica_does s fun _ hd => Replica.get?_setPorts_of_ne _ hd _).then
      (postAll_does d _ _)
  · exact .refl d s

theorem portReported_does (s : Site) (d : DeviceId) (p : PortDescription) :
    Does d [] [] s (s.portReported d p) := by
  unfold portReported
  split
  · exact (setReplica_does s fun _ hd => Replica.get?_setPort_of_ne _ hd _).then
      (postAll_does d _ _)
  · exact .refl d s

theorem statisticsReported_does (s : Site) (d : DeviceId) (ss : List PortStatistics) :
    Does d [] [] s (s.statisticsReported d ss) :=
  (setReplica_does s fun _ hd => Replica.get?_setStatistics_of_ne _ hd _).then
    (postAll_does d _ _)

/-- A reply to a role request costs the controller the device, or does nothing. -/
theorem roleReplied_eq (s : Site) (d : DeviceId) (requested response : Option Role) :
    s.roleReplied d requested response = s.relinquish d ∨
      s.roleReplied d requested response = s := by
  unfold roleReplied
  split
  · exact .inl rfl
  · split
    · exact .inl rfl
    · exact .inr rfl

theorem roleReplied_does (s : Site) (d : DeviceId) (requested response : Option Role) :
    ∃ ms, Does d ms [] s (s.roleReplied d requested response) := by
  rcases roleReplied_eq s d requested response with h | h
  · exact ⟨_, h ▸ relinquish_does s d⟩
  · exact ⟨_, by rw [h]; exact .refl d s⟩

theorem remove_does (s : Site) (d : DeviceId) : Does d [] [] s (s.remove d) := by
  unfold remove
  split
  · exact .refl d s
  · next replica event h =>
    have hr : Does d [] [] s
        { s with node := { s.node with replica, roles := s.node.roles.forget d } } :=
      { Does.refl d s with
        records := fun _ hd => by rw [← Replica.get?_remove_of_ne s.node.replica hd, h]
        roles := fun _ hd => RoleTable.get?_forget_of_ne _ _ hd }
    exact hr.then (note_does _ rfl rfl)

end Mastership.Site
