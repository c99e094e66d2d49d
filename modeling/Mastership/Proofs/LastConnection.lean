import Mastership.Proofs.Partings
import Mastership.Proofs.Stamps

namespace Mastership

/-- Whoever asks for a device that nobody else owns is its master. -/
theorem Seat.request_master {s : Seat} {n : NodeId} (h : ∀ m, s.master = some m → m = n) :
    (s.request n).1.master = some n := by
  cases hm : s.master with
  | none =>
    rw [request_of_unowned n hm]
    rfl
  | some m =>
    obtain rfl := h m hm
    rw [request_of_mem hm (mem_queue.mpr (.inl hm))]
    exact hm

namespace Site

variable {d : DeviceId} {s : Site}

/-- No attempt to mark a device offline is struck by a fault. -/
def Faultless (s : Site) : Prop := ∀ fault ∈ s.node.faults.offline, fault = none

theorem Faultless.head (h : s.Faultless) : s.node.faults.offline.head?.join = none := by
  cases ho : s.node.faults.offline with
  | nil => rfl
  | cons fault rest => simp [h fault (by simp [ho])]

theorem Faultless.stamping_iff (h : s.Faultless) (d : DeviceId) :
    s.stamping d = true ↔ s.stored d = true ∧ (s.node.clock.next d).2.isSome = true := by
  unfold stamping stamp? ticking
  rw [h.head]
  by_cases hs : s.stored d = true <;> simp [hs]

theorem Faultless.markOffline (h : s.Faultless) (d : DeviceId) : (s.markOffline d).1.Faultless := by
  intro fault hf
  apply h fault
  apply List.mem_of_mem_tail
  unfold Site.markOffline at hf
  dsimp only at hf
  split at hf
  · exact hf
  · exact hf
  · exact hf
  · split at hf <;> exact hf

theorem reconsidered_faultless (h : s.Faultless) (d : DeviceId) : (s.reconsidered d).Faultless := by
  unfold reconsidered observeTerm Faultless
  split <;> rwa [request_node]

theorem markOffline_stored (s : Site) (d : DeviceId) :
    (s.markOffline d).1.stored d = s.stored d := by
  simp [stored, (markOffline_darkens s d).device?_eq]

theorem disablePorts_stored (s : Site) (d : DeviceId) : (s.disablePorts d).stored d = s.stored d :=
  congrArg Option.isSome (Replica.setPorts_reports _ d _).device

theorem tried_stored (s : Site) (d : DeviceId) : (s.tried d).1.stored d = s.stored d := by
  rw [tried, markOffline_stored, disablePorts_stored]

/-- The term that is read is never older than what a punctual clock holds, so the clock takes it. -/
theorem Punctual.hears (h : s.Punctual) {t : Term} (ht : s.election.term? d = some t) :
    (s.observeTerm d).1.node.clock.term? d = some t := by
  have hheard : s.term? d = some t := (h.term?_eq d).trans ht
  have hepoch : (s.election.seat d).epoch = t.epoch := (Seat.term?_eq_some.mp ht).2
  unfold Site.observeTerm
  rw [hheard]
  apply Clock.term?_setTerm
  intro old hold
  have := h.recorded.epoch_le (h.clock d old hold)
  omega

theorem reconsidered_does (s : Site) (d : DeviceId) :
    Does d s.requests [] s (s.reconsidered d) :=
  (request_does s d).then (observeTerm_does _ d)

theorem Punctual.tried (h : s.Punctual) (d : DeviceId) : (s.tried d).1.Punctual :=
  ((tried_writes s d).punctual h).1

theorem Punctual.reconsidered (h : s.Punctual) (d : DeviceId) : (s.reconsidered d).Punctual :=
  ((reconsidered_writes s d).punctual h).1

theorem Punctual.reconsidered_owns (h : s.Punctual) (d : DeviceId) :
    (s.reconsidered d).owns ((s.reconsidered d).term? d) =
      decide ((s.reconsidered d).election.master? d = some s.node.id) := by
  rw [(h.reconsidered d).term?_eq, owns_term?, (reconsidered_does s d).id]

/-- A controller that asks for a device that nobody else owns may stamp it. -/
theorem Punctual.reconsidered_stamps (h : s.Punctual) (hq : s.node.faults.request = false)
    (halone : ∀ m, s.election.master? d = some m → m = s.node.id) :
    (s.reconsidered d).election.master? d = some s.node.id ∧
      ((s.reconsidered d).node.clock.next d).2.isSome = true := by
  have hmaster : (s.reconsidered d).election.master? d = some s.node.id := by
    rw [(reconsidered_does s d).election, requests, hq, if_neg (by simp), Election.moves_singleton,
      Election.master?, Election.seat_move_self]
    exact Seat.request_master halone
  refine ⟨hmaster, ?_⟩
  have hasked : (s.request d).Punctual := ((request_writes s d).punctual h).1
  have hterm : (s.request d).election.term? d =
      some ⟨s.node.id, ((s.reconsidered d).election.seat d).epoch⟩ := by
    have he : (s.request d).election = (s.reconsidered d).election :=
      (observeTerm_does (s.request d) d).election.symm
    rw [he]
    exact Seat.term?_eq_some.mpr ⟨hmaster, rfl⟩
  rw [Clock.next_isSome_iff]
  refine ⟨_, hasked.hears hterm, ?_⟩
  rw [(h.reconsidered d).own, (reconsidered_does s d).id]

/-- Asking for a device takes it from nobody. -/
theorem reconsidered_master {m : NodeId} (hm : s.election.master? d = some m) :
    (s.reconsidered d).election.master? d = some m := by
  rw [(reconsidered_does s d).election, requests]
  split
  · exact hm
  · have hm : (s.election.seat d).master = some m := hm
    have ht : ((s.election.seat d).request s.node.id).1.term? =
        some ⟨m, (s.election.seat d).epoch⟩ := by
      rw [Seat.term?_request s.node.id (by simp [hm])]
      exact Seat.term?_eq_some.mpr ⟨hm, rfl⟩
    rw [Election.moves_singleton, Election.master?, Election.seat_move_self]
    exact (Seat.term?_eq_some.mp ht).1

/-- A stored device that no other member owns is marked offline at the first or the second attempt. -/
theorem attempts_of_alone (h : s.Punctual) (hq : s.node.faults.request = false) (hfaults : s.Faultless)
    (hstored : s.stored d = true) (halone : ∀ m, s.election.master? d = some m → m = s.node.id) :
    (s.attempts d).any (·.stamping d) = true := by
  have hfaults₁ : (s.disablePorts d).Faultless := hfaults
  have hdoes := tried_does s d
  have hp := h.tried d
  obtain ⟨hmaster, hstamps⟩ := hp.reconsidered_stamps (d := d) (hdoes.request.trans hq) (by
    rw [hdoes.election, hdoes.id]
    exact halone)
  have ht := markDisconnected_tries s d
  generalize s.attempts d = sites, s.markDisconnected d = r at ht
  cases ht with
  -- An attempt that is not stale has taken a stamp.
  | once hs =>
    rw [tried, (markOffline_of_no_fault hfaults₁.head d).2] at hs
    rw [List.any_cons, List.any_nil, Bool.or_false, hfaults₁.stamping_iff, disablePorts_stored]
    refine ⟨hstored, ?_⟩
    rw [disablePorts_stored, hstored] at hs
    cases hn : ((s.disablePorts d).node.clock.next d).2 with
    | none => simp [hn, Marking.isStale, Failure.isStale] at hs
    | some x => rfl
  -- Who has asked for the device owns it now, and does not yield.
  | yields he _ ho =>
    rw [he, hp.reconsidered_owns, hmaster] at ho
    simp at ho
  | again he _ _ =>
    have hstored₂ : ((s.tried d).1.reconsidered d).stored d = true := by
      rw [stored_of_replica (reconsidered_replica _ d), tried_stored, hstored]
    have hfaults₂ := reconsidered_faultless (hfaults₁.markOffline d) d
    rw [List.any_eq_true]
    exact ⟨_, by simp, (he ▸ hfaults₂.stamping_iff d).mpr ⟨he ▸ hstored₂, he ▸ hstamps⟩⟩

/-- A device that another member owns is not marked offline by one whose clock does not name it. -/
theorem attempts_of_rival (h : s.Punctual) {m : NodeId} (hm : s.election.master? d = some m)
    (hne : m ≠ s.node.id) (hclock : ∀ t, s.node.clock.term? d = some t → t.owner ≠ s.node.id) :
    (s.attempts d).any (·.stamping d) = false := by
  have hdoes := tried_does s d
  have hp := h.tried d
  have hfirst : (s.disablePorts d).stamping d = false := by
    have hnext : (s.node.clock.next d).2 = none := by
      rw [← Option.not_isSome_iff_eq_none, Clock.next_isSome_iff]
      rintro ⟨t, ht, ho⟩
      exact hclock t ht (ho.trans h.own)
    change ((s.disablePorts d).ticking d).2.isSome = false
    unfold ticking
    split
    · exact congrArg Option.isSome hnext
    · rfl
  have hmaster : ((s.tried d).1.reconsidered d).election.master? d =
      some m := reconsidered_master (hdoes.election ▸ hm)
  have ht := markDisconnected_tries s d
  generalize s.attempts d = sites, s.markDisconnected d = r at ht
  cases ht with
  | once _ => simp [hfirst]
  | yields _ _ _ => simp [hfirst]
  -- The other member is still master after the request, so nobody tries again.
  | again he _ ho =>
    rw [he, hp.reconsidered_owns, hmaster, hdoes.id] at ho
    simp [hne] at ho

end Site

/-- Once the last connection of a device is gone, the device is offline. If no other member owns a
device that disconnects, and neither asking for it nor marking it fails, then it is unavailable
afterwards, if it is stored, and one event tells of that exactly if it was available. If another
member owns it and this one's clock does not say otherwise, it stays as available as it was, and no
event tells that it went offline. -/
theorem World.last_connection_goes_offline {w : World} (hw : w.Reachable) {n : NodeId} {s : Site}
    (hs : w.cluster.site? n = some s) (ha : s.node.active = true) {slot : Nat}
    (hr : s.node.south.registry.isRegistered (s.providerId slot) = true) (d : DeviceId) :
    ∃ s' ns, (w.step (.task n (.disconnect slot d))).cluster.site? n = some s' ∧
      s'.journal = s.journal ++ ns ∧
      (s.node.faults.request = false → (∀ fault ∈ s.node.faults.offline, fault = none) →
        (∀ m, w.cluster.election.master? d = some m → m = n) →
        s'.node.replica.device? d =
          (s.node.replica.device? d).map (fun device => { device with available := false }) ∧
        offlines ns = if s.node.replica.isAvailable d then [(n, d)] else []) ∧
      (∀ m, w.cluster.election.master? d = some m → m ≠ n →
        (∀ t, s.node.clock.term? d = some t → t.owner ≠ n) →
        s'.node.replica.device? d = s.node.replica.device? d ∧ offlines ns = []) := by
  obtain ⟨s', ns, hs', _, hj, hp⟩ := hw.kept.parts hs ha hr d
  have hpunctual := hw.chronicled.punctual n s hs
  have hid := hw.lawful.id n s hs
  refine ⟨s', ns, hs', hj, ?_, ?_⟩
  · intro hq hfaults halone
    have hdevice : s'.node.replica.device? d =
        (s.node.replica.device? d).map (fun device => { device with available := false }) := by
      cases hstored : s.stored d with
      | false =>
        have hnone : s.node.replica.device? d = none := by simpa [Site.stored] using hstored
        rw [hp.device, hnone]
        rfl
      | true =>
        have htook := Site.attempts_of_alone hpunctual hq hfaults hstored
          (Cluster.site?_election hs ▸ hid ▸ halone)
        rw [hp.device, htook]
        rfl
    refine ⟨hdevice, ?_⟩
    have hafter : s'.node.replica.isAvailable d = false := by
      rw [Replica.isAvailable, hdevice]
      cases s.node.replica.device? d <;> rfl
    rw [hp.offline, hafter]
    simp
  · intro m hm hne hclock
    have htook := Site.attempts_of_rival hpunctual (Cluster.site?_election hs ▸ hm) (hid ▸ hne)
      (hid ▸ hclock)
    have hdevice : s'.node.replica.device? d = s.node.replica.device? d := by
      simp [hp.device, htook]
    refine ⟨hdevice, ?_⟩
    rw [hp.offline, Replica.isAvailable, Replica.isAvailable, hdevice]
    simp

namespace Sample

/-- Both members have connected the device, the first one owns it. -/
def queued : World := (joins east ++ joins west).foldl World.step ⟨pair, []⟩

theorem queued_reachable : queued.Reachable := by
  apply (World.Reachable.fresh pair_fresh).run
  intro a ha
  rcases List.mem_append.mp ha with ha | ha
  · exact joins_honest east a ha
  · exact joins_honest west a ha

/-- The other member has been made master, but has not heard of it. -/
def seized : World := queued.step (.setRole west lamp .master)

theorem seized_reachable : seized.Reachable := queued_reachable.step trivial

theorem seized_unheard : ∃ s, seized.cluster.site? west = some s ∧ s.node.active = true ∧
    s.node.south.registry.isRegistered (s.providerId 0) = true ∧ s.node.faults = {} ∧
    s.node.replica.isAvailable lamp = true ∧ s.node.clock.available lamp = false := by
  have h : (seized.cluster.site? west).any (fun s =>
      s.node.active && s.node.south.registry.isRegistered (s.providerId 0) &&
        s.node.faults == {} && s.node.replica.isAvailable lamp &&
        !s.node.clock.available lamp) = true := by
    decide +kernel
  simpa [Option.any_eq_true, and_assoc] using h

end Sample

/-- The device goes offline with its owner, though the owner has not heard that it is that. -/
theorem World.seized_goes_offline : ∃ s' ns,
    (Sample.seized.step (.task Sample.west (.disconnect 0 Sample.lamp))).cluster.site? Sample.west =
      some s' ∧ s'.node.replica.isAvailable Sample.lamp = false ∧
    offlines ns = [(Sample.west, Sample.lamp)] := by
  obtain ⟨s, hs, ha, hr, hf, havailable, _⟩ := Sample.seized_unheard
  obtain ⟨s', ns, hs', _, halone, _⟩ :=
    last_connection_goes_offline Sample.seized_reachable hs ha hr Sample.lamp
  obtain ⟨hdevice, hoffline⟩ := halone (by rw [hf]) (by rw [hf]; nofun) (by
    have hm : Sample.seized.cluster.election.master? Sample.lamp = some Sample.west := by
      decide +kernel
    intro m h
    exact Option.some.inj (h.symm.trans hm))
  refine ⟨s', ns, hs', ?_, ?_⟩
  · rw [Replica.isAvailable, hdevice]
    cases s.node.replica.device? Sample.lamp <;> rfl
  · rw [hoffline, if_pos havailable]

end Mastership
