import Mastership.Proofs.Entries

namespace Mastership

/-- The applied role that a notice makes known, with the member and the device. -/
def Notice.role? : Notice → Option (NodeId × DeviceId × Role)
  | .posted n e =>
    if e.kind = .mastershipChanged then e.role.map (n, e.device.id, ·) else none
  | _ => none

/-- The applied roles that notices make known. -/
def told (ns : List Notice) : List (NodeId × DeviceId × Role) := ns.filterMap Notice.role?

@[simp] theorem told_nil : told [] = [] := rfl

@[simp] theorem told_append (ns ns' : List Notice) : told (ns ++ ns') = told ns ++ told ns' :=
  List.filterMap_append

@[simp] theorem told_map_announced (as : List Announcement) : told (as.map .announced) = [] := by
  simp [told, List.filterMap_map, Function.comp_def, Notice.role?]

/-- Events without a role make none known. -/
theorem told_posted {n : NodeId} {es : List DeviceEvent} (h : ∀ e ∈ es, e.role = none) :
    told (es.map (.posted n)) = [] := by
  simp only [told, List.filterMap_map, List.filterMap_eq_nil_iff]
  intro e he
  simp [Notice.role?, h e he]

/-- An event that shows a device, and tells neither of a role nor of a removal. -/
structure DeviceEvent.Shows (device : Device) (e : DeviceEvent) : Prop where
  device : e.device = device
  role : e.role = none
  stays : e.kind ≠ .deviceRemoved
  plain : e.kind ≠ .mastershipChanged

theorem DeviceEvent.ofDevice_shows {kind : Kind} (hr : kind ≠ .deviceRemoved)
    (hm : kind ≠ .mastershipChanged) (device : Device) : (ofDevice kind device).Shows device :=
  ⟨rfl, rfl, hr, hm⟩

theorem DeviceEvent.ofPort_shows {kind : Kind} (hr : kind ≠ .deviceRemoved)
    (hm : kind ≠ .mastershipChanged) (device : Device) (port : Port) :
    (ofPort kind device port).Shows device :=
  ⟨rfl, rfl, hr, hm⟩

namespace Replica

theorem Record.setPort_shows (r : Record) (p : PortDescription) :
    ∀ e ∈ (r.setPort p).2.toList, e.Shows r.device := by
  simp only [Record.setPort]
  split
  · simp [DeviceEvent.ofPort_shows]
  · split <;> simp [DeviceEvent.ofPort_shows]

theorem Record.setPort_device (r : Record) (p : PortDescription) :
    (r.setPort p).1.device = r.device := by
  simp only [Record.setPort]
  split
  · rfl
  · split <;> rfl

theorem Record.setEach_device (r : Record) (ps : List PortDescription) :
    (r.setEach ps).1.device = r.device ∧ ∀ e ∈ (r.setEach ps).2, e.Shows r.device := by
  induction ps generalizing r with
  | nil => simp [Record.setEach]
  | cons p ps ih =>
    obtain ⟨hd, he⟩ := ih (r.setPort p).1
    rw [r.setPort_device p] at hd he
    refine ⟨hd, fun e hmem => ?_⟩
    rcases List.mem_append.mp hmem with h | h
    · exact r.setPort_shows p e h
    · exact he e h

theorem Record.removePort_shows (r : Record) (number : Nat) :
    ∀ e ∈ (r.removePort number).2.toList, e.Shows r.device := by
  simp only [Record.removePort]
  split <;> simp [DeviceEvent.ofPort_shows]

theorem Record.removePort_device (r : Record) (number : Nat) :
    (r.removePort number).1.device = r.device := by
  simp only [Record.removePort]
  split <;> rfl

theorem Record.removeEach_device (r : Record) (ns : List Nat) :
    (r.removeEach ns).1.device = r.device ∧ ∀ e ∈ (r.removeEach ns).2, e.Shows r.device := by
  induction ns generalizing r with
  | nil => simp [Record.removeEach]
  | cons n ns ih =>
    obtain ⟨hd, he⟩ := ih (r.removePort n).1
    rw [r.removePort_device n] at hd he
    refine ⟨hd, fun e hmem => ?_⟩
    rcases List.mem_append.mp hmem with h | h
    · exact r.removePort_shows n e h
    · exact he e h

theorem Record.setPorts_device (r : Record) (ps : List PortDescription) :
    (r.setPorts ps).1.device = r.device ∧ ∀ e ∈ (r.setPorts ps).2, e.Shows r.device := by
  have hset := r.setEach_device ps
  have hremove := (r.setEach ps).1.removeEach_device
    ((r.setEach ps).1.ports.keys.filter (· ∉ ps.map PortDescription.number))
  rw [hset.1] at hremove
  refine ⟨hremove.1, fun e he => ?_⟩
  rcases List.mem_append.mp he with h | h
  · exact hset.2 e h
  · exact hremove.2 e h

variable (r : Replica) (d : DeviceId)

/-- The device is left as it is, and all events show it. -/
structure Reports (r' : Replica) (es : List DeviceEvent) : Prop where
  device : r'.device? d = r.device? d
  events : ∀ e ∈ es, ∃ device, r.device? d = some device ∧ e.Shows device

theorem put_shows (provider : ProviderId) (description : DeviceDescription) :
    ∀ e ∈ (r.put provider d description).2.toList, e.Shows ⟨d, provider, description, true⟩ := by
  simp only [put]
  split
  · simp [DeviceEvent.ofDevice_shows]
  · dsimp only
    split
    · simp [DeviceEvent.ofDevice_shows]
    · split <;> simp [DeviceEvent.ofDevice_shows]

theorem setPorts_reports (ps : List PortDescription) :
    r.Reports d (r.setPorts d ps).1 (r.setPorts d ps).2 := by
  simp only [setPorts]
  split
  · exact ⟨rfl, by simp⟩
  · next rec h =>
    have hd := rec.setPorts_device ps
    exact ⟨by simp [device?, h, hd.1], fun e he => ⟨_, by simp [device?, h], hd.2 e he⟩⟩

theorem setPort_reports (p : PortDescription) :
    r.Reports d (r.setPort d p).1 (r.setPort d p).2.toList := by
  simp only [setPort]
  split
  · exact ⟨rfl, by simp⟩
  · next rec h =>
    exact ⟨by simp [device?, h, rec.setPort_device p],
      fun e he => ⟨_, by simp [device?, h], rec.setPort_shows p e he⟩⟩

theorem setStatistics_reports (ss : List PortStatistics) :
    r.Reports d (r.setStatistics d ss).1 (r.setStatistics d ss).2.toList := by
  simp only [setStatistics]
  split
  · exact ⟨rfl, by simp⟩
  · next rec h =>
    refine ⟨by simp [device?, h, Record.setStatistics], ?_⟩
    simp [device?, h, DeviceEvent.ofDevice_shows]

theorem markOffline_id (c : Clock) :
    ((r.markOffline c d).1.device? d).map Device.id = (r.device? d).map Device.id := by
  simp only [markOffline]
  split
  · rfl
  · next rec h =>
    split
    · rfl
    · split
      · simp [device?, h]
      · rfl

theorem markOffline_role (c : Clock) {event : Option DeviceEvent}
    (h : (r.markOffline c d).2.2 = .ok event) : ∀ e ∈ event.toList, e.role = none := by
  simp only [markOffline] at h
  split at h
  · cases h
    simp
  · split at h
    · cases h
    · split at h
      · cases h
        simp [DeviceEvent.ofDevice]
      · cases h
        simp

theorem remove_role : ∀ e ∈ (r.remove d).2.toList, e.role = none := by
  simp only [remove]
  split <;> simp [DeviceEvent.ofDevice]

theorem remove_device? : (r.remove d).1.device? d = none := by
  simp only [remove]
  split
  · next h => simp [device?, h]
  · simp [device?]

end Replica

namespace Site

variable {d : DeviceId} {s s' s'' : Site}

/-- The device, if it is stored, is stored under its id. -/
def Filed (s : Site) (d : DeviceId) : Prop :=
  ∀ device, s.node.replica.device? d = some device → device.id = d

/-- On the way no role but NONE was made known, and the device has stayed filed. -/
structure Discreet (d : DeviceId) (s s' : Site) : Prop where
  told : ∃ ns, s'.journal = s.journal ++ ns ∧ ∀ x ∈ told ns, x.2.2 = .none
  filed : s.Filed d → s'.Filed d

theorem Filed.of_ids (h : s.Filed d) (hid : (s'.node.replica.device? d).map Device.id =
    (s.node.replica.device? d).map Device.id) : s'.Filed d := by
  intro device hd
  rw [hd] at hid
  obtain ⟨old, ho, hold⟩ := Option.map_eq_some_iff.mp hid.symm
  exact hold.symm.trans (h old ho)

theorem Filed.of_replica (h : s.Filed d) (hr : s'.node.replica = s.node.replica) : s'.Filed d :=
  h.of_ids (by rw [hr])

namespace Discreet

theorem refl (d : DeviceId) (s : Site) : Discreet d s s := ⟨⟨[], by simp⟩, id⟩

theorem trans (h : Discreet d s s') (h' : Discreet d s' s'') : Discreet d s s'' := by
  obtain ⟨ns, hj, ht⟩ := h.told
  obtain ⟨ns', hj', ht'⟩ := h'.told
  refine ⟨⟨ns ++ ns', by rw [hj', hj, List.append_assoc], fun x hx => ?_⟩, h'.filed ∘ h.filed⟩
  rw [told_append] at hx
  rcases List.mem_append.mp hx with hx | hx
  · exact ht x hx
  · exact ht' x hx

theorem of_eq (hj : s'.journal = s.journal) (hr : s'.node.replica = s.node.replica) :
    Discreet d s s' :=
  ⟨⟨[], by simp [hj]⟩, (·.of_replica hr)⟩

theorem of_journal (hj : s'.journal = s.journal) (hid : (s'.node.replica.device? d).map Device.id =
    (s.node.replica.device? d).map Device.id) : Discreet d s s' :=
  ⟨⟨[], by simp [hj]⟩, (·.of_ids hid)⟩

end Discreet

theorem note_discreet (s : Site) {ns : List Notice} (h : ∀ x ∈ told ns, x.2.2 = .none) :
    Discreet d s (s.note ns) :=
  ⟨⟨ns, rfl, h⟩, id⟩

theorem postAll_discreet (s : Site) {es : List DeviceEvent} (h : ∀ e ∈ es, e.role = none) :
    Discreet d s (s.postAll es) :=
  note_discreet s (by simp [told_posted h])

theorem moveElection_discreet (s : Site) (moved : Election × List Announcement) :
    Discreet d s (s.moveElection moved) :=
  ⟨⟨moved.2.map .announced, rfl, by simp⟩, id⟩

theorem request_discreet (s : Site) (d : DeviceId) : Discreet d s (s.request d) := by
  have hn : Discreet d s (s.note [.asked s.node.id d .request]) := note_discreet s nofun
  simp only [request]
  split
  · exact hn
  · exact hn.trans (moveElection_discreet _ _)

theorem withdraw_discreet (s : Site) (d : DeviceId) : Discreet d s (s.withdraw d) := by
  have hn : Discreet d s (s.note [.asked s.node.id d .relinquish]) := note_discreet s nofun
  simp only [withdraw]
  split
  · exact hn
  · exact hn.trans (moveElection_discreet _ _)

theorem observeTerm_discreet (s : Site) (d : DeviceId) : Discreet d s (s.observeTerm d).1 := by
  unfold observeTerm
  split
  · exact .refl d s
  · exact .of_eq rfl rfl

theorem observeEpoch_discreet (s : Site) (d : DeviceId) (t : Option Term) :
    Discreet d s (s.observeEpoch d t).1 := by
  cases t with
  | none => exact .refl d s
  | some t => exact .of_eq rfl rfl

theorem postRole_none_discreet (s : Site) (d : DeviceId) :
    Discreet d s (s.postRole d .none) := by
  unfold postRole
  split
  · exact .refl d s
  · exact note_discreet s (by simp [told, Notice.role?, DeviceEvent.ofRole])

theorem relinquish_discreet (s : Site) (d : DeviceId) : Discreet d s (s.relinquish d) := by
  simp only [Site.relinquish]
  have hw : Discreet d s ((s.withdraw d).setRoles ((s.withdraw d).node.roles.clear d).1) :=
    (withdraw_discreet s d).trans (.of_eq rfl rfl)
  split
  · exact hw.trans (postRole_none_discreet _ d)
  · exact hw

theorem store_filed (s : Site) (provider : ProviderId) (d : DeviceId)
    (description : DeviceDescription) : (s.store provider d description).Filed d := by
  intro device hd
  rw [store_device?] at hd
  rw [← Option.some.inj hd]

theorem store_discreet (s : Site) (provider : ProviderId) (d : DeviceId)
    (description : DeviceDescription) : Discreet d s (s.store provider d description) := by
  obtain ⟨ht, _⟩ := postAll_discreet (d := d)
    (s.setReplica (s.node.replica.put provider d description).1)
    fun e he => (s.node.replica.put_shows d provider description e he).role
  exact ⟨ht, fun _ => store_filed s provider d description⟩

theorem markOnline_discreet (s : Site) (d : DeviceId) : Discreet d s (s.markOnline d) := by
  unfold markOnline
  split
  · exact .refl d s
  · split
    · exact .refl d s
    · exact store_discreet s _ d _

theorem conclude_error_discreet (s : Site) (p : Push) (e : Failure) :
    Discreet p.device s (s.conclude p (.error e)) := by
  unfold conclude
  split
  · exact relinquish_discreet s p.device
  · exact (store_discreet s _ p.device _).trans (relinquish_discreet _ p.device)

theorem startPush_discreet (s : Site) {role : Role} (hr : role ≠ .none) (epoch : Option Nat)
    (sequel : Push.Sequel) : Discreet d s (s.startPush d role epoch sequel).1 := by
  rcases s.startPush_cases d hr epoch sequel with ⟨slot, hp⟩ | ⟨e, hp⟩ <;> rw [hp]
  · exact note_discreet s nofun
  · exact conclude_error_discreet s ⟨0, d, role, epoch, sequel⟩ e

theorem informed_discreet (s : Site) (d : DeviceId) (requested : Role) :
    Discreet d s (s.informed d requested) := by
  have ha : Discreet d s (s.asked d requested) := by
    unfold asked
    split
    · exact request_discreet s d
    · exact .refl d s
  exact ha.trans ((observeTerm_discreet _ d).trans (observeEpoch_discreet _ d _))

theorem reassert_discreet (s : Site) (d : DeviceId) (requested : Role) :
    Discreet d s (s.reassert d requested).1 := by
  have hi := informed_discreet s d requested
  rw [reassert_eq]
  dsimp only
  split
  · refine (hi.trans ?_).trans (startPush_discreet _ (targetRole_ne_none _ _) _ _)
    split
    · exact markOnline_discreet _ d
    · exact .refl d _
  · exact hi

theorem connected_discreet (s : Site) (slot : Nat) (d : DeviceId)
    (description : DeviceDescription) : Discreet d s (s.connected slot d description).1 := by
  have hi := informed_discreet s d .none
  rw [connected_eq]
  dsimp only
  split
  · exact hi.trans (startPush_discreet _ (targetRole_ne_none _ _) _ _)
  · exact hi.trans (store_discreet _ _ d _)

theorem suggestedRole_discreet (s : Site) (a : Announcement) :
    Discreet a.device s (s.suggestedRole a).1 := by
  unfold suggestedRole
  split
  · exact observeTerm_discreet s a.device
  · exact .refl a.device s

theorem handle_discreet (s : Site) (a : Announcement) : Discreet a.device s (s.handle a).1 := by
  unfold handle
  split
  · exact .refl _ s
  · have hs := suggestedRole_discreet s a
    unfold followMaster
    generalize s.suggestedRole a = r at hs ⊢
    obtain ⟨s₁, suggested⟩ := r
    dsimp only at hs ⊢
    split
    · exact hs
    · split
      · exact hs
      · exact hs.trans (relinquish_discreet s₁ a.device)
    · split
      · exact hs.trans (reassert_discreet s₁ a.device suggested)
      · exact hs

theorem check_discreet (s : Site) (d : DeviceId) : Discreet d s (s.check d).1 := by
  unfold check
  split
  · split
    · exact reassert_discreet s d .none
    · exact .refl d s
  · exact .refl d s

theorem markOffline_discreet (s : Site) (d : DeviceId) : Discreet d s (s.markOffline d).1 := by
  simp only [markOffline]
  split
  · exact .of_eq rfl rfl
  · exact .of_eq rfl rfl
  · exact .of_eq rfl rfl
  · split <;> exact .of_journal rfl (s.node.replica.markOffline_id d s.node.clock)

/-- The event of a device marked offline names no role. -/
theorem markOffline_marked (s : Site) (d : DeviceId) {event : Option DeviceEvent}
    (h : (s.markOffline d).2 = .marked event) : ∀ e ∈ event.toList, e.role = none := by
  simp only [markOffline] at h
  split at h
  · cases h
  · cases h
  · cases h
  · split at h
    · next hm =>
      cases h
      exact s.node.replica.markOffline_role d s.node.clock hm
    · cases h

theorem markDisconnected_discreet (s : Site) (d : DeviceId) :
    Discreet d s (s.markDisconnected d).1 := by
  have hp : Discreet d s (s.disablePorts d) :=
    .of_journal rfl (by rw [disablePorts, setReplica_replica, (Replica.setPorts_reports _ d _).device])
  have hm := hp.trans (markOffline_discreet _ d)
  simp only [markDisconnected]
  split
  · next s₁ e h =>
    rw [h] at hm
    dsimp only at hm
    split
    · have ha := hm.trans ((request_discreet s₁ d).trans (observeTerm_discreet _ d))
      split
      · exact ha.trans (markOffline_discreet _ d)
      · exact ha
    · exact hm
  · next s₁ m _ h =>
    rw [h] at hm
    exact hm

theorem markDisconnected_marked (s : Site) (d : DeviceId) {event : Option DeviceEvent}
    (h : (s.markDisconnected d).2 = .marked event) : ∀ e ∈ event.toList, e.role = none := by
  simp only [markDisconnected] at h
  split at h
  · split at h
    · split at h
      · exact markOffline_marked _ d h
      · cases h
        simp
    · cases h
  · next s₁ m _ hm =>
    exact markOffline_marked _ d ((congrArg Prod.snd hm).trans h)

theorem disconnected_discreet (s : Site) (d : DeviceId) : Discreet d s (s.disconnected d).1 := by
  have hr : Discreet d s ((s.markDisconnected d).1.release d) :=
    (markDisconnected_discreet s d).trans ((relinquish_discreet _ d).trans (.of_eq rfl rfl))
  have hm : ∀ event, (s.markDisconnected d).2 = .marked event →
      ∀ e ∈ event.toList, e.role = none := fun _ => s.markDisconnected_marked d
  simp only [disconnected]
  generalize s.markDisconnected d = r at hr hm ⊢
  obtain ⟨s₁, m⟩ := r
  dsimp only at hr hm ⊢
  split
  · exact hr.trans (postAll_discreet _ (hm _ rfl))
  · exact hr
  · exact hr

/-- What is reported of a device leaves the device as it is, and names no role. -/
theorem reported_discreet (s : Site) {replica : Replica} {es : List DeviceEvent}
    (h : s.node.replica.Reports d replica es) :
    Discreet d s ((s.setReplica replica).postAll es) := by
  have hset : Discreet d s (s.setReplica replica) :=
    .of_journal rfl (by rw [setReplica_replica, h.device])
  refine hset.trans (postAll_discreet _ fun e he => ?_)
  obtain ⟨_, _, hshows⟩ := h.events e he
  exact hshows.role

theorem portsReported_discreet (s : Site) (d : DeviceId) (ps : List PortDescription) :
    Discreet d s (s.portsReported d ps) := by
  unfold portsReported
  split
  · exact reported_discreet s (s.node.replica.setPorts_reports d ps)
  · exact .refl d s

theorem portReported_discreet (s : Site) (d : DeviceId) (p : PortDescription) :
    Discreet d s (s.portReported d p) := by
  unfold portReported
  split
  · exact reported_discreet s (s.node.replica.setPort_reports d p)
  · exact .refl d s

theorem statisticsReported_discreet (s : Site) (d : DeviceId) (ss : List PortStatistics) :
    Discreet d s (s.statisticsReported d ss) :=
  reported_discreet s (s.node.replica.setStatistics_reports d ss)

theorem remove_discreet (s : Site) (d : DeviceId) : Discreet d s (s.remove d) := by
  have hrole := s.node.replica.remove_role d
  have hgone := s.node.replica.remove_device? d
  unfold remove
  split
  · exact .refl d s
  · next replica event h =>
    rw [h] at hrole hgone
    refine ⟨⟨_, rfl, ?_⟩, fun _ device hd => ?_⟩
    · have ht := told_posted (n := s.node.id) hrole
      intro x hx
      rw [show told [.posted s.node.id event] = [] from ht] at hx
      cases hx
    · have : replica.device? d = some device := hd
      rw [hgone] at this
      cases this

theorem guarded_discreet (slot : Nat) {f : Site → Site} (h : Discreet d s (f s)) :
    Discreet d s (s.guarded slot f).1 := by
  unfold guarded
  split
  · exact .refl d s
  · exact h

/-- No task makes MASTER or STANDBY known. -/
theorem run_discreet (s : Site) (t : Task) : Discreet t.device s (s.run t).1 := by
  cases t with
  | connect slot d description =>
    simp only [run, connect]
    split
    · exact .refl d s
    · exact connected_discreet s slot d description
  | disconnect slot d =>
    simp only [run, disconnect]
    split
    · exact .refl d s
    · exact disconnected_discreet s d
  | setPorts slot d ps => exact guarded_discreet slot (portsReported_discreet s d ps)
  | setPort slot d p => exact guarded_discreet slot (portReported_discreet s d p)
  | setStatistics slot d ss => exact guarded_discreet slot (statisticsReported_discreet s d ss)
  | roleReply slot d requested response =>
    refine guarded_discreet slot ?_
    rcases roleReplied_eq s d requested response with h | h <;> rw [h]
    · exact relinquish_discreet s d
    · exact .refl d s
  | reassert d requested => exact reassert_discreet s d requested
  | check d => exact check_discreet s d
  | handle a => exact handle_discreet s a
  | remove d => exact remove_discreet s d

theorem store_told (s : Site) (provider : ProviderId) (d : DeviceId)
    (description : DeviceDescription) :
    ∃ ns, (s.store provider d description).journal = s.journal ++ ns ∧ told ns = [] :=
  ⟨_, rfl, told_posted fun e he => (s.node.replica.put_shows d provider description e he).role⟩

theorem postRole_told (hf : s.Filed d) (role : Role) :
    ∃ ns, (s.postRole d role).journal = s.journal ++ ns ∧
      told ns = if s.stored d then [(s.node.id, d, role)] else [] := by
  unfold postRole
  split
  · next h => exact ⟨[], by simp, by simp [stored, h]⟩
  · next device h =>
    refine ⟨[.posted s.node.id (.ofRole device role)], rfl, ?_⟩
    simp [told, Notice.role?, DeviceEvent.ofRole, stored, h, hf device h]

/-- A role that is recorded is made known if that changes it and the device is stored. -/
theorem settle_ok_told (hf : s.Filed d) (role : Role) (epoch : Option Nat) :
    ∃ ns, (s.settle d role epoch (.ok ())).journal = s.journal ++ ns ∧
      told ns = if (s.node.roles.record d role epoch).2 ∧ s.stored d
        then [(s.node.id, d, role)] else [] := by
  simp only [settle]
  split
  · next hc =>
    simp only [hc, true_and]
    exact postRole_told (s := s.setRoles (s.node.roles.record d role epoch).1) hf role
  · next hc => exact ⟨[], (List.append_nil _).symm, by simp [hc]⟩

theorem conclude_filed {p : Push} (hf : s.Filed p.device) (result : Except Failure Unit) :
    (s.conclude p result).Filed p.device := by
  unfold conclude
  split
  · exact hf.of_replica (settle_replica _ _ _ _ _)
  · exact (store_filed s _ p.device _).of_replica (settle_replica _ _ _ _ _)

theorem answer_filed {p : Push} (hf : s.Filed p.device) : (s.answer p).Filed p.device := by
  obtain ⟨s₁, _, _, hreplica, he⟩ := answer_eq s p
  rw [he]
  exact conclude_filed (hf.of_replica hreplica) _

theorem conclude_ok_told {p : Push} (hf : s.Filed p.device) :
    ∃ ns, (s.conclude p (.ok ())).journal = s.journal ++ ns ∧
      told ns = if (s.node.roles.record p.device p.role p.epoch).2 ∧
        (s.conclude p (.ok ())).stored p.device then [(s.node.id, p.device, p.role)] else [] := by
  cases h : p.sequel with
  | settle =>
    simp only [conclude, h, stored_of_replica (settle_replica _ _ _ _ _)]
    exact settle_ok_told hf p.role p.epoch
  | store provider description =>
    obtain ⟨ns, hj, ht⟩ := store_told s provider p.device description
    obtain ⟨ns', hj', ht'⟩ :=
      settle_ok_told (store_filed s provider p.device description) p.role p.epoch
    simp only [conclude, h, stored_of_replica (settle_replica _ _ _ _ _)]
    exact ⟨ns ++ ns', by rw [hj', hj, List.append_assoc], by rw [told_append, ht, ht']; rfl⟩

/-- What the provider does for a push makes no role known. -/
theorem answer_silent (s : Site) (p : Push) :
    ∃ (s₁ : Site) (ns : List Notice), s.answer p = s₁.conclude p (s.reply p) ∧
      s₁.journal = s.journal ++ ns ∧ told ns = [] ∧ s₁.node.id = s.node.id ∧
      s₁.node.roles = s.node.roles ∧ s₁.node.replica = s.node.replica := by
  simp only [answer, reply]
  cases (s.node.south.finish p.slot p.device p.role).2 with
  | error e => exact ⟨_, [], rfl, (List.append_nil _).symm, rfl, rfl, rfl, rfl⟩
  | ok calls =>
    refine ⟨_, calls.map (.called s.node.id p.slot), rfl, rfl, ?_, rfl, rfl, rfl⟩
    simp [told, List.filterMap_map, Function.comp_def, Notice.role?]

/-- For a refused push the device is given up, and nothing but NONE is made known. -/
theorem answer_error_told {p : Push} {e : Failure} (hr : s.reply p = .error e) :
    ∃ ns, (s.answer p).journal = s.journal ++ ns ∧ ∀ x ∈ told ns, x.2.2 = .none := by
  obtain ⟨s₁, ns, he, hj, ht, _, _, _⟩ := answer_silent s p
  obtain ⟨ns', hj', ht'⟩ := (conclude_error_discreet s₁ p e).told
  refine ⟨ns ++ ns', by rw [he, hr, hj', hj, List.append_assoc], ?_⟩
  rwa [told_append, ht, List.nil_append]

/-- The role of an accepted push is made known if it is another one and the device is stored. -/
theorem answer_ok_told {p : Push} (hf : s.Filed p.device) (hr : s.reply p = .ok ()) :
    ∃ ns, (s.answer p).journal = s.journal ++ ns ∧
      told ns = if (s.node.roles.record p.device p.role p.epoch).2 ∧
        (s.answer p).stored p.device then [(s.node.id, p.device, p.role)] else [] := by
  obtain ⟨s₁, ns, he, hj, ht, hid, hroles, hreplica⟩ := answer_silent s p
  obtain ⟨ns', hj', ht'⟩ := conclude_ok_told (hf.of_replica hreplica)
  refine ⟨ns ++ ns', by rw [he, hr, hj', hj, List.append_assoc], ?_⟩
  rw [told_append, ht, List.nil_append, ht', he, hr, hid, hroles]

end Site
end Mastership
