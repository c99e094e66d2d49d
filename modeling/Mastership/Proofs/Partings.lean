import Mastership.Proofs.Holdings

namespace Mastership

/-- What a controller asked of the election, if the notice tells of that. -/
def Notice.plea? : Notice → Option (NodeId × DeviceId × Plea)
  | .asked n d plea => some (n, d, plea)
  | _ => none

/-- The event that was posted, if the notice tells of one. -/
def Notice.event? : Notice → Option (NodeId × DeviceEvent)
  | .posted n e => some (n, e)
  | _ => none

/-- All that controllers asked of the election, in this order. -/
def pleas (ns : List Notice) : List (NodeId × DeviceId × Plea) := ns.filterMap Notice.plea?

/-- All events that controllers posted, in this order. -/
def posts (ns : List Notice) : List (NodeId × DeviceEvent) := ns.filterMap Notice.event?

/-- The devices that went offline, as posted, each with the member that posted it. -/
def offlines (ns : List Notice) : List (NodeId × DeviceId) :=
  ((posts ns).filter (·.2.isOffline)).map fun x => (x.1, x.2.device.id)

namespace Site

variable {d : DeviceId} {s s' s'' : Site} {ps ps' : List (NodeId × DeviceId × Plea)}
  {es es' : List (NodeId × DeviceEvent)}

/-- From `s` to `s'` the controller asked for `ps` and posted `es`. -/
def Emits (s s' : Site) (ps : List (NodeId × DeviceId × Plea)) (es : List (NodeId × DeviceEvent)) :
    Prop :=
  ∃ ns, s'.journal = s.journal ++ ns ∧ pleas ns = ps ∧ posts ns = es

theorem emits_nothing (h : s'.journal = s.journal) : Emits s s' [] [] :=
  ⟨[], by rw [h, List.append_nil], rfl, rfl⟩

theorem Emits.trans (h : Emits s s' ps es) (h' : Emits s' s'' ps' es') :
    Emits s s'' (ps ++ ps') (es ++ es') := by
  obtain ⟨ns, hj, rfl, rfl⟩ := h
  obtain ⟨ns', hj', rfl, rfl⟩ := h'
  exact ⟨ns ++ ns', by rw [hj', hj, List.append_assoc], List.filterMap_append,
    List.filterMap_append⟩

theorem Emits.then (h : Emits s s' ps es) (h' : Emits s' s'' [] []) : Emits s s'' ps es := by
  simpa using h.trans h'

theorem moveElection_emits (s : Site) (moved : Election × List Announcement) :
    Emits s (s.moveElection moved) [] [] := by
  refine ⟨_, rfl, ?_, ?_⟩ <;>
    simp [pleas, posts, List.filterMap_map, Function.comp_def, Notice.plea?, Notice.event?]

theorem setRoles_emits (s : Site) (roles : RoleTable) : Emits s (s.setRoles roles) [] [] :=
  emits_nothing rfl

theorem request_emits (s : Site) (d : DeviceId) :
    Emits s (s.request d) [(s.node.id, d, .request)] [] := by
  have hasked : Emits s (s.note [.asked s.node.id d .request]) [(s.node.id, d, .request)] [] :=
    ⟨_, rfl, rfl, rfl⟩
  simp only [request]
  split
  · exact hasked
  · exact hasked.then (moveElection_emits _ _)

theorem withdraw_emits (s : Site) (d : DeviceId) :
    Emits s (s.withdraw d) [(s.node.id, d, .relinquish)] [] := by
  have hasked : Emits s (s.note [.asked s.node.id d .relinquish]) [(s.node.id, d, .relinquish)] [] :=
    ⟨_, rfl, rfl, rfl⟩
  simp only [withdraw]
  split
  · exact hasked
  · exact hasked.then (moveElection_emits _ _)

theorem postAll_emits (s : Site) (events : List DeviceEvent) :
    Emits s (s.postAll events) [] (events.map (s.node.id, ·)) := by
  refine ⟨_, rfl, ?_, ?_⟩ <;>
    simp [pleas, posts, List.filterMap_map, Function.comp_def, Notice.plea?, Notice.event?]

theorem postRole_emits (s : Site) (d : DeviceId) (role : Role) :
    ∃ es, Emits s (s.postRole d role) [] es ∧ ∀ x ∈ es, x.2.kind = .mastershipChanged := by
  unfold postRole
  split
  · exact ⟨[], emits_nothing rfl, by simp⟩
  · exact ⟨_, ⟨_, rfl, rfl, rfl⟩, by simp [posts, Notice.event?, DeviceEvent.ofRole]⟩

/-- Giving up a device is one plea, and at most the role is posted. -/
theorem relinquish_emits (s : Site) (d : DeviceId) :
    ∃ es, Emits s (s.relinquish d) [(s.node.id, d, .relinquish)] es ∧
      ∀ x ∈ es, x.2.kind = .mastershipChanged := by
  have hcleared := (withdraw_emits s d).then
    (setRoles_emits (s.withdraw d) ((s.withdraw d).node.roles.clear d).1)
  simp only [Site.relinquish]
  split
  · obtain ⟨es, hp, hk⟩ :=
      postRole_emits ((s.withdraw d).setRoles ((s.withdraw d).node.roles.clear d).1) d .none
    exact ⟨es, by simpa using hcleared.trans hp, hk⟩
  · exact ⟨[], hcleared, by simp⟩

theorem markOffline_journal (s : Site) (d : DeviceId) :
    (s.markOffline d).1.journal = s.journal := by
  unfold markOffline
  dsimp only
  split
  · rfl
  · rfl
  · rfl
  · split <;> rfl

/-- Marking a device offline asks for the device or for nothing, and posts nothing. -/
theorem markDisconnected_emits (s : Site) (d : DeviceId) :
    ∃ ps, Emits s (s.markDisconnected d).1 ps [] ∧ ∀ x ∈ ps, x = (s.node.id, d, .request) := by
  have hfirst : Emits s (s.tried d).1 [] [] :=
    emits_nothing (markOffline_journal _ d)
  have hsecond : Emits s ((s.tried d).1.reconsidered d)
      [(s.node.id, d, .request)] [] := by
    have hasked := hfirst.trans (request_emits (s.tried d).1 d)
    rw [(tried_does s d).id] at hasked
    refine hasked.then (emits_nothing ?_)
    unfold reconsidered observeTerm
    split <;> rfl
  have ht := markDisconnected_tries s d
  generalize s.attempts d = sites, s.markDisconnected d = r at ht ⊢
  cases ht with
  | once _ => exact ⟨[], hfirst, by simp⟩
  | yields he _ _ => exact ⟨_, he ▸ hsecond, by simp⟩
  | again he _ _ => exact ⟨_, (he ▸ hsecond).then (emits_nothing (markOffline_journal _ d)), by simp⟩

/-- The event to be posted about a device that was marked offline. -/
def Marking.event? : Marking → Option DeviceEvent
  | .marked event => event
  | _ => none

/-- An attempt that is struck by a fault comes to nothing. -/
theorem markOffline_of_fault {fault : OfflineFault}
    (h : s.node.faults.offline.head?.join = some fault) (d : DeviceId) :
    (s.markOffline d).1.node.replica = s.node.replica ∧ (s.markOffline d).2.event? = none := by
  unfold markOffline
  rw [h]
  cases fault <;> exact ⟨rfl, rfl⟩

theorem markOffline_of_no_fault (h : s.node.faults.offline.head?.join = none) (d : DeviceId) :
    (s.markOffline d).1.node.replica = (s.node.replica.markOffline s.node.clock d).1 ∧
      (s.markOffline d).2 =
        if s.stored d ∧ (s.node.clock.next d).2 = none then .refused (.staleMastership d)
        else .marked (s.node.replica.offlineEvent? d) := by
  have hr := s.node.replica.markOffline_result s.node.clock d
  unfold markOffline stored
  rw [h]
  dsimp only
  split
  · next event he =>
    rw [hr] at he
    split at he
    · cases he
    · next hc =>
      cases he
      rw [if_neg hc]
      exact ⟨rfl, rfl⟩
  · next e he =>
    rw [hr] at he
    split at he
    · next hc =>
      cases he
      rw [if_pos hc]
      exact ⟨rfl, rfl⟩
    · cases he

/-- Whether an attempt takes a stamp. -/
def stamping (s : Site) (d : DeviceId) : Bool := (s.stamp? d).isSome

/-- The device has been marked offline, if `took`, or is as it was. The event to be posted is that of
a device that goes offline, and there is none if it did not. -/
structure Darkens (d : DeviceId) (took : Bool) (s : Site) (r : Site × Marking) : Prop where
  record : r.1.node.replica.records.get? d =
    (s.node.replica.records.get? d).map fun rec => if took then rec.offline else rec
  event : r.2.event? = if took then s.node.replica.offlineEvent? d else none

theorem Darkens.of_record {took : Bool} {r : Site × Marking} (h : Darkens d took s' r)
    (hr : s'.node.replica.records.get? d = s.node.replica.records.get? d) : Darkens d took s r := by
  obtain ⟨hrecord, hevent⟩ := h
  refine ⟨hr ▸ hrecord, ?_⟩
  simp only [hevent, Replica.offlineEvent?, Replica.device?, hr]

theorem Darkens.device?_eq {took : Bool} {r : Site × Marking} (h : Darkens d took s r) :
    r.1.node.replica.device? d = (s.node.replica.device? d).map fun device =>
      if took then { device with available := false } else device := by
  simp only [Replica.device?, h.record, Option.map_map]
  congr 1
  funext rec
  cases took <;> rfl

theorem Darkens.port?_eq {took : Bool} {r : Site × Marking} (h : Darkens d took s r) (k : Nat) :
    r.1.node.replica.port? d k = s.node.replica.port? d k := by
  simp only [Replica.port?, h.record]
  cases s.node.replica.records.get? d with
  | none => rfl
  | some rec => cases took <;> rfl

theorem Darkens.statistics_eq {took : Bool} {r : Site × Marking} (h : Darkens d took s r) :
    r.1.node.replica.statistics d = s.node.replica.statistics d := by
  simp only [Replica.statistics, h.record]
  cases s.node.replica.records.get? d with
  | none => rfl
  | some rec => cases took <;> rfl

/-- An attempt marks the device offline exactly if it takes a stamp. -/
theorem markOffline_darkens (s : Site) (d : DeviceId) :
    Darkens d (s.stamping d) s (s.markOffline d) := by
  cases hf : s.node.faults.offline.head?.join with
  | some fault =>
    obtain ⟨hr, he⟩ := markOffline_of_fault hf d
    have ht : s.stamping d = false := by simp [stamping, stamp?, ticking, hf]
    refine ⟨by simp [hr, ht], by simp [he, ht]⟩
  | none =>
    obtain ⟨hr, hm⟩ := markOffline_of_no_fault hf d
    by_cases hs : s.stored d = true
    · have ht : s.stamping d = (s.node.clock.next d).2.isSome := by
        simp [stamping, stamp?, ticking, hf, hs]
      refine ⟨by rw [hr, ht, Replica.get?_markOffline], ?_⟩
      rw [hm, ht]
      cases (s.node.clock.next d).2 with
      | none => simp [hs, Marking.event?]
      | some x => simp [Marking.event?]
    · have ht : s.stamping d = false := by simp [stamping, stamp?, ticking, hf, hs]
      have hnone : s.node.replica.records.get? d = none := by
        simpa [stored, Replica.device?] using hs
      refine ⟨by rw [hr, Replica.get?_markOffline, hnone]; rfl, ?_⟩
      simp [hm, hs, ht, Marking.event?, Replica.offlineEvent?, Replica.device?, hnone]

/-- What is refused as stale has taken no stamp. -/
theorem stamping_of_stale (h : (s.markOffline d).2.isStale = true) : s.stamping d = false := by
  cases hf : s.node.faults.offline.head?.join with
  | some fault => simp [stamping, stamp?, ticking, hf]
  | none =>
    rw [(markOffline_of_no_fault hf d).2] at h
    split at h
    · next hn => simp [stamping, stamp?, ticking, hf, hn]
    · cases h

theorem reconsidered_replica (s : Site) (d : DeviceId) :
    (s.reconsidered d).node.replica = s.node.replica := by
  rw [reconsidered, observeTerm_replica, request_node]

/-- Of one or two attempts to mark a device offline, one may succeed. -/
theorem markDisconnected_darkens (s : Site) (d : DeviceId) :
    Darkens d ((s.attempts d).any (·.stamping d)) (s.disablePorts d) (s.markDisconnected d) := by
  have hfirst : Darkens d ((s.disablePorts d).stamping d) (s.disablePorts d) (s.tried d) :=
    markOffline_darkens (s.disablePorts d) d
  have hrecord : (s.tried d).2.isStale = true →
      ((s.tried d).1.reconsidered d).node.replica.records.get? d =
        (s.disablePorts d).node.replica.records.get? d := by
    intro hs
    simp [reconsidered_replica, hfirst.record, stamping_of_stale hs]
  have ht := markDisconnected_tries s d
  generalize s.attempts d = sites, s.markDisconnected d = r at ht ⊢
  cases ht with
  | once _ => simpa using hfirst
  | yields he hs _ =>
    simp only [List.any_cons, stamping_of_stale hs, List.any_nil, Bool.or_false]
    exact ⟨by simp [he, hrecord hs], rfl⟩
  | again he hs _ =>
    simp only [List.any_cons, stamping_of_stale hs, List.any_nil, Bool.or_false, Bool.false_or]
    exact (markOffline_darkens _ d).of_record (he ▸ hrecord hs)

theorem disconnected_eq (s : Site) (d : DeviceId) :
    (s.disconnected d).1 = ((s.markDisconnected d).1.release d).postAll
      (s.markDisconnected d).2.event?.toList := by
  have hnone : ∀ s : Site, s.postAll [] = s := by simp [postAll, note]
  unfold disconnected
  generalize s.markDisconnected d = r
  obtain ⟨s₁, m⟩ := r
  cases m with
  | marked event => rfl
  | refused e => exact (hnone _).symm
  | crashed => exact (hnone _).symm

/-- What a device's disconnection from the member `n` comes to, with what it leaves in the journal.
The device has been marked offline if `took`. -/
structure Parts (n : NodeId) (d : DeviceId) (took : Bool) (s s' : Site) (ns : List Notice) : Prop where
  pleas : ∃ before, pleas ns = before ++ [(n, d, .relinquish)] ∧ ∀ x ∈ before, x = (n, d, .request)
  queue : s.node.faults.relinquish = false → n ∉ s'.election.queue d
  role : s'.node.roles.entries.get? d = none
  device : s'.node.replica.device? d = (s.node.replica.device? d).map fun device =>
    if took then { device with available := false } else device
  ports : ∀ k, s'.node.replica.port? d k = (s.node.replica.port? d k).map Port.down
  statistics : s'.node.replica.statistics d = s.node.replica.statistics d
  events : ∀ x ∈ posts ns, x.2.kind = .availabilityChanged ∨ x.2.kind = .mastershipChanged
  offline : offlines ns =
    if s.node.replica.isAvailable d = true ∧ s'.node.replica.isAvailable d = false then [(n, d)]
    else []

theorem disconnected_queue (h : ∀ d, (s.election.seat d).Orderly) (d : DeviceId)
    (hf : s.node.faults.relinquish = false) :
    s.node.id ∉ (s.disconnected d).1.election.queue d := by
  obtain ⟨ms, _, hm⟩ := markDisconnected_does s d
  have ho : ((s.markDisconnected d).1.election.seat d).Orderly := by
    rw [hm.election]
    exact Election.moves_orderly h d ms d
  have hr := (release_does (s.markDisconnected d).1 d).election
  rw [withdrawals, hm.relinquish, hf, hm.id, if_neg (by simp), Election.moves_singleton] at hr
  have hs : (s.disconnected d).1.election.seat d =
      (((s.markDisconnected d).1.election.seat d).move (.relinquish s.node.id)).1 := by
    rw [disconnected_eq]
    change ((s.markDisconnected d).1.release d).election.seat d = _
    rw [hr, Election.seat_move_self]
  rw [Election.queue, hs]
  exact Seat.relinquish_not_mem ho _

theorem disconnected_replica (s : Site) (d : DeviceId) :
    (s.disconnected d).1.node.replica = (s.markDisconnected d).1.node.replica := by
  rw [disconnected_eq, postAll_node, release, setRoles_replica, relinquish_replica]

/-- The event of a device that goes offline is posted exactly if it was available before. -/
theorem offlines_of_event {r r' : Replica} {took : Bool} (n : NodeId)
    (hid : ∀ device, r.device? d = some device → device.id = d)
    (hd : r'.device? d = (r.device? d).map fun device =>
      if took then { device with available := false } else device) :
    (((if took then r.offlineEvent? d else none).toList.map (n, ·)).filter (·.2.isOffline)).map
        (fun x => (x.1, x.2.device.id)) =
      if r.isAvailable d = true ∧ r'.isAvailable d = false then [(n, d)] else [] := by
  simp only [Replica.isAvailable, hd, Replica.offlineEvent?]
  cases hdevice : r.device? d with
  | none => simp
  | some device =>
    have hid := hid device hdevice
    cases took with
    | false => simp
    | true =>
      cases ha : device.available with
      | false => simp [ha]
      | true => simp [ha, hid, DeviceEvent.isOffline, DeviceEvent.ofDevice]

/-- The plea to give up the device comes last, and all that is posted is a role that was taken back
and the event of the marking. -/
theorem disconnected_emits (s : Site) (d : DeviceId) :
    ∃ ps es, Emits s (s.disconnected d).1 (ps ++ [(s.node.id, d, .relinquish)])
        (es ++ (s.markDisconnected d).2.event?.toList.map (s.node.id, ·)) ∧
      (∀ x ∈ ps, x = (s.node.id, d, .request)) ∧ ∀ x ∈ es, x.2.kind = .mastershipChanged := by
  obtain ⟨ms, _, hm⟩ := markDisconnected_does s d
  obtain ⟨ps, hmark, hps⟩ := markDisconnected_emits s d
  obtain ⟨es, hgive, hes⟩ := relinquish_emits (s.markDisconnected d).1 d
  rw [hm.id] at hgive
  have hrelease : Emits s ((s.markDisconnected d).1.release d)
      (ps ++ [(s.node.id, d, .relinquish)]) es :=
    (hmark.trans hgive).then (setRoles_emits _ _)
  have hpost := hrelease.trans (postAll_emits _ (s.markDisconnected d).2.event?.toList)
  rw [(release_does _ d).id.trans hm.id, List.append_nil, ← disconnected_eq] at hpost
  exact ⟨ps, es, hpost, hps, hes⟩

/-- The device is stored as it was, but for being unavailable if a stamp was taken. -/
theorem disconnected_device? (s : Site) (d : DeviceId) (ht : s.node.replica.Tidy) :
    (s.disconnected d).1.node.replica.device? d = (s.node.replica.device? d).map fun device =>
      if (s.attempts d).any (·.stamping d) then { device with available := false } else device := by
  rw [disconnected_replica, (markDisconnected_darkens s d).device?_eq]
  exact congrArg _ (ht.disablePorts d).1

theorem markDisconnected_event? (s : Site) (d : DeviceId) (ht : s.node.replica.Tidy) :
    (s.markDisconnected d).2.event? =
      if (s.attempts d).any (·.stamping d) then s.node.replica.offlineEvent? d else none := by
  have hsame : (s.disablePorts d).node.replica.offlineEvent? d = s.node.replica.offlineEvent? d :=
    congrArg (Option.bind · _) (ht.disablePorts d).1
  rw [(markDisconnected_darkens s d).event, hsame]

/-- A disconnection cleans up after the device, however it ends. -/
theorem disconnected_parts (s : Site) (d : DeviceId) (ht : s.node.replica.Tidy)
    (ho : ∀ d, (s.election.seat d).Orderly) :
    ∃ ns, (s.disconnected d).1.journal = s.journal ++ ns ∧
      Parts s.node.id d ((s.attempts d).any (·.stamping d)) s (s.disconnected d).1 ns := by
  obtain ⟨_, hstatistics, hports⟩ := ht.disablePorts d
  have hdark := markDisconnected_darkens s d
  have hreplica := disconnected_replica s d
  have hafter := disconnected_device? s d ht
  obtain ⟨ps, es, ⟨ns, hj, hp, he⟩, hps, hes⟩ := disconnected_emits s d
  rw [markDisconnected_event? s d ht] at he
  refine ⟨ns, hj, ⟨ps, hp, hps⟩, disconnected_queue ho d, ?_, hafter, ?_, ?_, ?_, ?_⟩
  · rw [disconnected_eq]
    simp [release, RoleTable.forget]
  · intro k
    rw [hreplica, hdark.port?_eq]
    exact hports k
  · rw [hreplica, hdark.statistics_eq]
    exact hstatistics
  · intro x hx
    rw [he, List.mem_append] at hx
    rcases hx with hx | hx
    · exact .inr (hes x hx)
    · obtain ⟨event, hevent, rfl⟩ := List.mem_map.mp hx
      rw [Option.mem_toList, Option.ite_none_right_eq_some] at hevent
      exact .inl (Replica.offlineEvent?_kind hevent.2)
  · have hquiet : es.filter (·.2.isOffline) = [] := by
      rw [List.filter_eq_nil_iff]
      intro x hx
      simp [DeviceEvent.isOffline, hes x hx]
    rw [offlines, he, List.filter_append, hquiet, List.nil_append]
    refine offlines_of_event s.node.id ?_ hafter
    intro device hd
    obtain ⟨rec, hrec, rfl⟩ := Option.map_eq_some_iff.mp hd
    exact (ht d rec hrec).id

theorem refusal?_eq_none {slot : Nat} (ha : s.node.active = true)
    (hr : s.node.south.registry.isRegistered (s.providerId slot) = true) :
    s.refusal? slot = none := by
  simp [refusal?, ha, hr]

end Site

namespace World

theorem step_disconnect {w : World} {n : NodeId} {s : Site} {slot : Nat} (d : DeviceId)
    (hs : w.cluster.site? n = some s) (hr : s.refusal? slot = none) :
    w.step (.task n (.disconnect slot d)) =
      ⟨w.cluster.setSite n (s.disconnected d).1, w.pending⟩ := by
  simp [step_task hs, Site.run, Site.disconnect, hr]

/-- A disconnection through a registered provider of an active member. -/
theorem Kept.parts {w : World} (h : w.Kept) {n : NodeId} {s : Site}
    (hs : w.cluster.site? n = some s) (ha : s.node.active = true) {slot : Nat}
    (hr : s.node.south.registry.isRegistered (s.providerId slot) = true) (d : DeviceId) :
    ∃ s' ns, (w.step (.task n (.disconnect slot d))).cluster.site? n = some s' ∧
      (w.step (.task n (.disconnect slot d))).pending = w.pending ∧
      s'.journal = s.journal ++ ns ∧
      Site.Parts n d ((s.attempts d).any (·.stamping d)) s s' ns := by
  obtain ⟨ns, hj, hp⟩ := s.disconnected_parts d (h.tidy n s hs)
    (Cluster.site?_election hs ▸ h.orderly)
  rw [h.id n s hs] at hp
  rw [step_disconnect d hs (Site.refusal?_eq_none ha hr)]
  exact ⟨_, ns, Cluster.site?_setSite_self _ _ _, rfl, hj, hp⟩

/-- Whatever has happened, and whatever terms and faults the controller meets with: a device that
disconnects through a registered provider of an active member is given up with the last plea, so that
the member neither owns it nor waits for it if the plea is granted. The role applied to it is
forgotten, its ports are all kept and all down, its counters are kept, no event tells of its ports,
and one tells that it went offline exactly if it did. -/
theorem parting_cleans_up {c : Cluster} (hc : c.Fresh) (as : List Act) {n : NodeId} {s : Site}
    (hs : (as.foldl World.step ⟨c, []⟩).cluster.site? n = some s) (ha : s.node.active = true)
    {slot : Nat} (hr : s.node.south.registry.isRegistered (s.providerId slot) = true)
    (d : DeviceId) :
    let w := as.foldl World.step ⟨c, []⟩
    let w' := w.step (.task n (.disconnect slot d))
    ∃ s' ns took, w'.cluster.site? n = some s' ∧ w'.pending = w.pending ∧
      s'.journal = s.journal ++ ns ∧ Site.Parts n d took s s' ns := by
  obtain ⟨s', ns, h⟩ := ((kept_of_fresh hc).run as).parts hs ha hr d
  exact ⟨s', ns, _, h⟩

end World

namespace Sample

/-- The device connects to a member whose store is about to crash. -/
def strickenActs : List World.Act :=
  joins east ++ [.change east (.setFaults { offline := [some .crash] })]

theorem stricken_serves : ∃ s, (strickenActs.foldl World.step ⟨pair, []⟩).cluster.site? east = some s ∧
    s.node.active = true ∧ s.node.south.registry.isRegistered (s.providerId 0) = true ∧
    s.node.faults = { offline := [some .crash] } ∧ s.applied lamp = .master := by
  have h : ((strickenActs.foldl World.step ⟨pair, []⟩).cluster.site? east).any (fun s =>
      s.node.active && s.node.south.registry.isRegistered (s.providerId 0) &&
        s.node.faults == { offline := [some .crash] } && s.applied lamp == .master) = true := by
    decide +kernel
  simpa [Option.any_eq_true, and_assoc] using h

end Sample

/-- A device is given up although its marking crashes. -/
theorem World.stricken_given_up : ∃ s', ((Sample.strickenActs.foldl World.step ⟨Sample.pair, []⟩).step
    (.task Sample.east (.disconnect 0 Sample.lamp))).cluster.site? Sample.east = some s' ∧
    s'.node.roles.entries.get? Sample.lamp = none ∧
    Sample.east ∉ s'.election.queue Sample.lamp := by
  obtain ⟨s, hs, ha, hr, hf, _⟩ := Sample.stricken_serves
  obtain ⟨s', ns, took, hs', _, _, hp⟩ :=
    parting_cleans_up Sample.pair_fresh Sample.strickenActs hs ha hr Sample.lamp
  exact ⟨s', hs', hp.role, hp.queue (by rw [hf])⟩

end Mastership
