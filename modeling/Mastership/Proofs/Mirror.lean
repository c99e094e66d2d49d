import Mastership.Proofs.Partings

namespace Mastership

/-- What a listener has of a member's devices. -/
structure Mirror where
  devices : Table DeviceId Device := ∅
  /-- The role last told of each device. -/
  roles : Table DeviceId Role := ∅
deriving DecidableEq, Repr

namespace Mirror

/-- The role last told of a device, NONE if none was told yet. -/
def role (m : Mirror) (d : DeviceId) : Role := (m.roles.get? d).getD .none

/-- Takes over the device that an event shows, and the role if it tells of one. A removed device is
forgotten with its role. -/
def hear (m : Mirror) (e : DeviceEvent) : Mirror :=
  let d := e.device.id
  match e.kind with
  | .deviceRemoved => ⟨m.devices.erase d, m.roles.erase d⟩
  | .mastershipChanged => ⟨m.devices.insert d e.device, m.roles.insert d (e.role.getD .none)⟩
  | _ => { m with devices := m.devices.insert d e.device }

def hearAll (m : Mirror) (es : List DeviceEvent) : Mirror := es.foldl hear m

variable {m : Mirror} {d : DeviceId} {e : DeviceEvent} {device : Device}

@[simp] theorem hearAll_nil (m : Mirror) : m.hearAll [] = m := rfl

@[simp] theorem hearAll_cons (m : Mirror) (e : DeviceEvent) (es : List DeviceEvent) :
    m.hearAll (e :: es) = (m.hear e).hearAll es := rfl

theorem hearAll_append (m : Mirror) (es es' : List DeviceEvent) :
    m.hearAll (es ++ es') = (m.hearAll es).hearAll es' :=
  List.foldl_append

theorem hear_shows (h : e.Shows device) :
    m.hear e = { m with devices := m.devices.insert device.id device } := by
  obtain ⟨rfl, _, hr, hm⟩ := h
  unfold hear
  dsimp only
  split
  · next hk => exact absurd hk hr
  · next hk => exact absurd hk hm
  · rfl

@[simp] theorem hear_ofRole (m : Mirror) (device : Device) (role : Role) :
    m.hear (.ofRole device role) =
      ⟨m.devices.insert device.id device, m.roles.insert device.id role⟩ := rfl

@[simp] theorem hear_removed (m : Mirror) (device : Device) :
    m.hear (.ofDevice .deviceRemoved device) =
      ⟨m.devices.erase device.id, m.roles.erase device.id⟩ := rfl

/-- Events about other devices leave the copy of a device and its role as they are. -/
theorem hearAll_of_ne {es : List DeviceEvent} (h : ∀ e ∈ es, e.device.id ≠ d) :
    (m.hearAll es).devices.get? d = m.devices.get? d ∧ (m.hearAll es).role d = m.role d := by
  induction es generalizing m with
  | nil => exact ⟨rfl, rfl⟩
  | cons e es ih =>
    have hne := h e List.mem_cons_self
    obtain ⟨hdevice, hrole⟩ := ih (m := m.hear e) fun x hx => h x (List.mem_cons_of_mem e hx)
    rw [hearAll_cons, hdevice, hrole]
    simp only [hear]
    split
    · simp only [role, Table.get?_erase_of_ne _ hne, and_self]
    · simp only [role, Table.get?_insert_of_ne _ _ hne, and_self]
    · simp only [role, Table.get?_insert_of_ne _ _ hne, and_self]

/-- What is told of roles does not depend on the copies of the devices. -/
theorem hearAll_roles {m' : Mirror} (h : m'.roles = m.roles) (es : List DeviceEvent) :
    (m'.hearAll es).roles = (m.hearAll es).roles := by
  induction es generalizing m m' with
  | nil => exact h
  | cons e es ih =>
    have hone : (m'.hear e).roles = (m.hear e).roles := by
      simp only [hear, h]
      split <;> rfl
    exact ih hone

/-- The listener has the device as the controller has it, with the role applied to it. A device that
is not stored has no role, so that nothing need be told when it comes to be stored. -/
structure Tracks (m : Mirror) (d : DeviceId) (s : Site) : Prop where
  device : m.devices.get? d = s.node.replica.device? d
  role : m.role d = s.applied d
  filed : s.Filed d
  unstored : s.node.replica.device? d = none → s.applied d = .none

namespace Tracks

variable {s s' : Site}

theorem of_eq (h : m.Tracks d s) (hd : s'.node.replica.device? d = s.node.replica.device? d)
    (hr : s'.applied d = s.applied d) : m.Tracks d s' where
  device := h.device.trans hd.symm
  role := h.role.trans hr.symm
  filed device hdevice := h.filed device (hd ▸ hdevice)
  unstored hn := hr.trans (h.unstored (hd ▸ hn))

/-- An event shows the device as it is stored from now on. -/
theorem shown (h : m.Tracks d s) (he : e.Shows device) (hid : device.id = d)
    (hd : s'.node.replica.device? d = some device) (hr : s'.applied d = s.applied d) :
    (m.hear e).Tracks d s' := by
  rw [hear_shows he, hid]
  refine ⟨?_, h.role.trans hr.symm, ?_, ?_⟩
  · rw [hd]
    exact Table.get?_insert_self _ _ _
  · intro x hx
    rw [← Option.some.inj (hd.symm.trans hx), hid]
  · simp [hd]

/-- Events that show a stored device as it is tell nothing new. -/
theorem repeated {es : List DeviceEvent} (h : m.Tracks d s)
    (he : ∀ e ∈ es, ∃ device, s.node.replica.device? d = some device ∧ e.Shows device) :
    (m.hearAll es).Tracks d s := by
  induction es generalizing m with
  | nil => exact h
  | cons e es ih =>
    obtain ⟨device, hd, hshows⟩ := he e List.mem_cons_self
    refine ih (m := m.hear e) ?_ fun x hx => he x (List.mem_cons_of_mem e hx)
    exact h.shown hshows (h.filed device hd) hd rfl

/-- The event that tells of a role that has come to be applied, if the device is stored. -/
theorem informed (h : m.Tracks d s) {role : Role} (hr : s'.applied d = role)
    (hd : s'.node.replica.device? d = s.node.replica.device? d)
    (hn : s.node.replica.device? d = none → role = .none) :
    (m.hearAll ((s.node.replica.device? d).toList.map (.ofRole · role))).Tracks d s' := by
  cases hdevice : s.node.replica.device? d with
  | none =>
    obtain rfl := hn hdevice
    exact h.of_eq hd (hr.trans (h.unstored hdevice).symm)
  | some device =>
    have hid := h.filed device hdevice
    rw [hdevice] at hd
    simp only [Option.toList_some, List.map_cons, List.map_nil, hearAll_cons, hearAll_nil,
      hear_ofRole, hid]
    refine ⟨hd ▸ Table.get?_insert_self _ _ _, ?_, ?_, by simp [hd]⟩
    · rw [hr, Mirror.role, Table.get?_insert_self]
      rfl
    · intro x hx
      rw [← Option.some.inj (hd.symm.trans hx), hid]

end Tracks
end Mirror

namespace Site

variable {d : DeviceId} {s s' s'' : Site}

/-- The events posted on the way tell all that becomes of the device: whoever tracks it at `s` and
hears them tracks it at `s'`. Every task recounts, and so does the answer to every push, except for one
that records the role of a device that is not stored. -/
structure Recounts (d : DeviceId) (s s' : Site) : Prop where
  id : s'.node.id = s.node.id
  told : ∃ ps es, Emits s s' ps (es.map (s.node.id, ·)) ∧ ∀ m : Mirror, m.Tracks d s →
    (∀ e ∈ es, e.device.id = d) ∧ (m.hearAll es).Tracks d s'

/-- Besides, the device stays stored if it is. -/
structure Retains (d : DeviceId) (s s' : Site) : Prop extends Recounts d s s' where
  kept : s.stored d = true → s'.stored d = true

theorem Recounts.trans (h : Recounts d s s') (h' : Recounts d s' s'') : Recounts d s s'' := by
  obtain ⟨hid, ps, es, he, ht⟩ := h
  obtain ⟨hid', ps', es', he', ht'⟩ := h'
  rw [hid] at he'
  refine ⟨hid'.trans hid, ps ++ ps', es ++ es', by simpa using he.trans he', fun m hm => ?_⟩
  obtain ⟨habout, htracks⟩ := ht m hm
  obtain ⟨habout', htracks'⟩ := ht' _ htracks
  rw [Mirror.hearAll_append]
  refine ⟨fun e hmem => ?_, htracks'⟩
  rcases List.mem_append.mp hmem with hmem | hmem
  · exact habout e hmem
  · exact habout' e hmem

namespace Retains

theorem refl (d : DeviceId) (s : Site) : Retains d s s :=
  ⟨⟨rfl, [], [], emits_nothing rfl, fun _ hm => ⟨by simp, hm⟩⟩, id⟩

theorem trans (h : Retains d s s') (h' : Retains d s' s'') : Retains d s s'' :=
  ⟨h.toRecounts.trans h'.toRecounts, h'.kept ∘ h.kept⟩

/-- What changes nothing about the device need not be told. -/
theorem of_silence {ps : List (NodeId × DeviceId × Plea)} (he : Emits s s' ps [])
    (hid : s'.node.id = s.node.id) (hd : s'.node.replica.device? d = s.node.replica.device? d)
    (hr : s'.applied d = s.applied d) : Retains d s s' :=
  ⟨⟨hid, ps, [], he, fun _ hm => ⟨by simp, hm.of_eq hd hr⟩⟩, by simp [stored, hd]⟩

theorem of_node {ps : List (NodeId × DeviceId × Plea)} (he : Emits s s' ps [])
    (hn : s'.node = s.node) : Retains d s s' :=
  of_silence he (by rw [hn]) (by rw [hn]) (by rw [applied, hn, applied])

end Retains

theorem request_retains (s : Site) (d : DeviceId) : Retains d s (s.request d) :=
  .of_node (request_emits s d) (request_node s d)

theorem withdraw_retains (s : Site) (d : DeviceId) : Retains d s (s.withdraw d) :=
  .of_node (withdraw_emits s d) (withdraw_node s d)

theorem observeTerm_journal (s : Site) (d : DeviceId) :
    (s.observeTerm d).1.journal = s.journal := by
  unfold observeTerm
  split <;> rfl

theorem observeTerm_retains (s : Site) (d : DeviceId) : Retains d s (s.observeTerm d).1 :=
  .of_silence (emits_nothing (observeTerm_journal s d)) (observeTerm_does s d).id (by simp)
    (applied_of_roles (observeTerm_roles s d) d)

theorem observeEpoch_retains (s : Site) (d : DeviceId) (t : Option Term) :
    Retains d s (s.observeEpoch d t).1 := by
  refine .of_silence (emits_nothing ?_) (observeEpoch_does s d t).id (by simp) ?_
  · cases t <;> rfl
  · rw [applied, RoleTable.role, observed_entry]
    rfl

theorem asked_retains (s : Site) (d : DeviceId) (requested : Role) :
    Retains d s (s.asked d requested) := by
  unfold asked
  split
  · exact request_retains s d
  · exact .refl d s

theorem informed_retains (s : Site) (d : DeviceId) (requested : Role) :
    Retains d s (s.informed d requested) :=
  (asked_retains s d requested).trans
    ((observeTerm_retains _ d).trans (observeEpoch_retains _ d _))

/-- Events that the replica answers with tell of what it has written. -/
theorem write_retains {replica : Replica} {es : List DeviceEvent}
    (h : ∀ m : Mirror, m.Tracks d s →
      (∀ e ∈ es, e.device.id = d) ∧ (m.hearAll es).Tracks d (s.setReplica replica))
    (hkept : s.stored d = true → (replica.device? d).isSome = true) :
    Retains d s ((s.setReplica replica).postAll es) := by
  refine ⟨⟨rfl, [], es, ?_, fun m hm => ?_⟩, hkept⟩
  · exact (emits_nothing rfl).trans (postAll_emits (s.setReplica replica) es)
  · obtain ⟨habout, ht⟩ := h m hm
    exact ⟨habout, ht.of_eq rfl rfl⟩

theorem reported_retains {replica : Replica} {es : List DeviceEvent}
    (h : s.node.replica.Reports d replica es) :
    Retains d s ((s.setReplica replica).postAll es) := by
  refine write_retains (fun m hm => ⟨fun e he => ?_, ?_⟩) (h.device ▸ id)
  · obtain ⟨device, hd, hshows⟩ := h.events e he
    rw [hshows.device]
    exact hm.filed device hd
  · exact (hm.repeated h.events).of_eq h.device rfl

/-- A device that is stored without an event is stored already as it is described. -/
theorem put_silent (s : Site) (provider : ProviderId) (d : DeviceId)
    (description : DeviceDescription) (h : (s.node.replica.put provider d description).2 = none)
    (hf : s.Filed d) : s.node.replica.device? d = some ⟨d, provider, description, true⟩ := by
  unfold Replica.put at h
  cases hrec : s.node.replica.records.get? d with
  | none => simp [hrec] at h
  | some rec =>
    have hdevice : s.node.replica.device? d = some rec.device := by simp [Replica.device?, hrec]
    have hid := hf _ hdevice
    simp only [hrec] at h
    split at h
    · cases h
    · next hsame =>
      split at h
      · next ha =>
        rw [not_or, ne_eq, ne_eq, not_not, not_not] at hsame
        rw [hdevice, ← hid, ← hsame.1, ← hsame.2, ← ha]
      · cases h

theorem store_retains (s : Site) (provider : ProviderId) (d : DeviceId)
    (description : DeviceDescription) : Retains d s (s.store provider d description) := by
  have hshows := s.node.replica.put_shows d provider description
  have hdevice := s.node.replica.device?_put d provider description
  have hsilent := s.put_silent provider d description
  unfold store
  generalize s.node.replica.put provider d description = r at hshows hdevice hsilent ⊢
  obtain ⟨replica, event⟩ := r
  refine write_retains (fun m hm => ?_) fun _ => Option.isSome_of_eq_some hdevice
  cases event with
  | none => exact ⟨by simp, hm.of_eq (hdevice.trans (hsilent rfl hm.filed).symm) rfl⟩
  | some e =>
    have hone := hshows e (by simp)
    exact ⟨by simp [hone.device], hm.shown hone rfl hdevice rfl⟩

theorem markOnline_retains (s : Site) (d : DeviceId) : Retains d s (s.markOnline d) := by
  unfold markOnline
  split
  · exact .refl d s
  · split
    · exact .refl d s
    · exact store_retains s _ d _

theorem postRole_emits_role (s : Site) (d : DeviceId) (role : Role) :
    Emits s (s.postRole d role) []
      (((s.node.replica.device? d).toList.map (.ofRole · role)).map (s.node.id, ·)) := by
  unfold postRole
  cases s.node.replica.device? d with
  | none => exact emits_nothing rfl
  | some device => exact ⟨_, rfl, rfl, rfl⟩

/-- A change of the role is told, if the device is stored. -/
theorem postRole_retains {role : Role} {roles : RoleTable} (hr : roles.role d = role)
    (hn : s.node.replica.device? d = none → role = .none) :
    Retains d s ((s.setRoles roles).postRole d role) := by
  have hnode : ((s.setRoles roles).postRole d role).node = (s.setRoles roles).node :=
    postRole_node _ d role
  refine ⟨⟨by rw [hnode]; rfl, [], (s.node.replica.device? d).toList.map (.ofRole · role), ?_,
    fun m hm => ⟨?_, ?_⟩⟩, by simp [stored]⟩
  · exact (setRoles_emits s roles).trans (postRole_emits_role (s.setRoles roles) d role)
  · intro e he
    obtain ⟨device, hd, rfl⟩ := List.mem_map.mp he
    exact hm.filed device (Option.mem_toList.mp hd)
  · exact hm.informed (by rw [applied, hnode]; exact hr) (by rw [hnode]; rfl) hn

theorem relinquish_retains (s : Site) (d : DeviceId) : Retains d s (s.relinquish d) := by
  refine (withdraw_retains s d).trans ?_
  generalize hs : s.withdraw d = s₁
  have hnone : (s₁.node.roles.clear d).1.role d = .none := RoleTable.role_clear _ d
  simp only [Site.relinquish, hs]
  split
  · exact postRole_retains hnone fun _ => rfl
  · next hc =>
    rw [RoleTable.clear_answer, ne_eq, not_not] at hc
    exact .of_silence (setRoles_emits s₁ _) rfl rfl (hnone.trans hc.symm)

/-- A role that is recorded is told if that changes it, provided that the device is stored. -/
theorem settle_ok_retains (hs : s.stored d = true) (role : Role) (epoch : Option Nat) :
    Retains d s (s.settle d role epoch (.ok ())) := by
  have hrole := s.node.roles.role_record d role epoch
  simp only [settle]
  split
  · next hc =>
    rw [if_pos hc] at hrole
    refine postRole_retains hrole fun hn => ?_
    simp [stored, hn] at hs
  · next hc =>
    rw [if_neg hc] at hrole
    exact .of_silence (setRoles_emits s _) rfl rfl hrole

theorem settle_retains {result : Except Failure Unit} (hs : result = .ok () → s.stored d = true)
    (role : Role) (epoch : Option Nat) : Retains d s (s.settle d role epoch result) := by
  cases result with
  | error e => exact relinquish_retains s d
  | ok => exact settle_ok_retains (hs rfl) role epoch

theorem store_stored (s : Site) (provider : ProviderId) (d : DeviceId)
    (description : DeviceDescription) : (s.store provider d description).stored d = true := by
  rw [stored, store_device?]
  rfl

/-- An accepted push that does not store its device must find it stored. -/
theorem conclude_retains {p : Push} {result : Except Failure Unit}
    (hs : result = .ok () → p.sequel = .settle → s.stored p.device = true) :
    Retains p.device s (s.conclude p result) := by
  unfold conclude
  split
  · next hq => exact settle_retains (fun hr => hs hr hq) _ _
  · exact (store_retains s _ p.device _).trans
      (settle_retains (fun _ => store_stored s _ p.device _) _ _)

theorem startPush_retains (s : Site) {role : Role} (hr : role ≠ .none) (epoch : Option Nat)
    (sequel : Push.Sequel) : Retains d s (s.startPush d role epoch sequel).1 := by
  rcases s.startPush_cases d hr epoch sequel with ⟨slot, hp⟩ | ⟨e, hp⟩ <;> rw [hp]
  · exact .of_node ⟨_, rfl, rfl, rfl⟩ rfl
  · exact conclude_retains (p := ⟨0, d, role, epoch, sequel⟩) nofun

theorem reassert_retains (s : Site) (d : DeviceId) (requested : Role) :
    Retains d s (s.reassert d requested).1 := by
  have hi := informed_retains s d requested
  rw [reassert_eq]
  dsimp only
  split
  · refine (hi.trans ?_).trans (startPush_retains _ (targetRole_ne_none _ _) _ _)
    split
    · exact markOnline_retains _ d
    · exact .refl d _
  · exact hi

theorem connected_retains (s : Site) (slot : Nat) (d : DeviceId)
    (description : DeviceDescription) : Retains d s (s.connected slot d description).1 := by
  have hi := informed_retains s d .none
  rw [connected_eq]
  dsimp only
  split
  · exact hi.trans (startPush_retains _ (targetRole_ne_none _ _) _ _)
  · exact hi.trans (store_retains _ _ d _)

theorem suggestedRole_retains (s : Site) (a : Announcement) :
    Retains a.device s (s.suggestedRole a).1 := by
  unfold suggestedRole
  split
  · exact observeTerm_retains s a.device
  · exact .refl a.device s

theorem handle_retains (s : Site) (a : Announcement) : Retains a.device s (s.handle a).1 := by
  unfold handle
  split
  · exact .refl _ s
  · have hs := suggestedRole_retains s a
    unfold followMaster
    generalize s.suggestedRole a = r at hs ⊢
    obtain ⟨s₁, suggested⟩ := r
    dsimp only at hs ⊢
    split
    · exact hs
    · split
      · exact hs
      · exact hs.trans (relinquish_retains s₁ a.device)
    · split
      · exact hs.trans (reassert_retains s₁ a.device suggested)
      · exact hs

theorem check_retains (s : Site) (d : DeviceId) : Retains d s (s.check d).1 := by
  unfold check
  split
  · split
    · exact reassert_retains s d .none
    · exact .refl d s
  · exact .refl d s

theorem markOffline_roles (s : Site) (d : DeviceId) :
    (s.markOffline d).1.node.roles = s.node.roles := by
  simp only [markOffline]
  split
  · rfl
  · rfl
  · rfl
  · split <;> rfl

theorem markDisconnected_roles (s : Site) (d : DeviceId) :
    (s.markDisconnected d).1.node.roles = s.node.roles := by
  have htried : (s.tried d).1.node.roles = s.node.roles := markOffline_roles _ d
  have hagain : ((s.tried d).1.reconsidered d).node.roles = s.node.roles := by
    rw [reconsidered, observeTerm_roles, request_node, htried]
  have ht := markDisconnected_tries s d
  generalize s.attempts d = sites, s.markDisconnected d = r at ht ⊢
  cases ht with
  | once _ => exact htried
  | yields he _ _ => exact he ▸ hagain
  | again he _ _ => exact (markOffline_roles _ d).trans (he ▸ hagain)

/-- Marking a device offline leaves the device as it is, or answers with an event that shows it. -/
theorem markDisconnected_shows (s : Site) (d : DeviceId) :
    match (s.markDisconnected d).2.event? with
    | none => (s.markDisconnected d).1.node.replica.device? d = s.node.replica.device? d
    | some e => ∃ device, (s.markDisconnected d).1.node.replica.device? d = some device ∧
        e.Shows device := by
  have hdark := markDisconnected_darkens s d
  have hsame : (s.disablePorts d).node.replica.device? d = s.node.replica.device? d :=
    (Replica.setPorts_reports _ d _).device
  rw [hdark.event, hdark.device?_eq, Replica.offlineEvent?, hsame]
  cases (s.attempts d).any (·.stamping d) with
  | false => simp
  | true =>
    cases s.node.replica.device? d with
    | none => simp
    | some device =>
      obtain ⟨id, provider, description, available⟩ := device
      cases available <;> simp [DeviceEvent.ofDevice_shows]

/-- A change of the device may be told late, by an event that follows what is told of the rest. -/
theorem Retains.told_late {ps : List (NodeId × DeviceId × Plea)} {e : DeviceEvent}
    (h : Retains d s' s'') (he : Emits s s' ps []) (hid : s'.node.id = s.node.id)
    (hr : s'.applied d = s.applied d) (hf : s.Filed d → s'.Filed d)
    (hshown : ∃ device, s'.node.replica.device? d = some device ∧ e.Shows device)
    (hkept : s''.node.replica = s'.node.replica) : Retains d s (s''.postAll [e]) := by
  obtain ⟨device, hd, hshows⟩ := hshown
  obtain ⟨⟨hid', ps', es, he', ht⟩, _⟩ := h
  have hpost := (he.trans he').trans (postAll_emits s'' [e])
  rw [hid', hid] at hpost
  refine ⟨⟨hid'.trans hid, _, es ++ [e], by simpa using hpost, fun m hm => ?_⟩,
    fun _ => by simp [stored, hkept, hd]⟩
  -- Had the change been told at once, then the device would be tracked all the way.
  let m' : Mirror := { m with devices := m.devices.insert d device }
  have hm' : m'.Tracks d s' :=
    ⟨(Table.get?_insert_self _ _ _).trans hd.symm, hm.role.trans hr.symm, hf hm.filed, by simp [hd]⟩
  obtain ⟨habout, htracks⟩ := ht m' hm'
  have hdevice : device.id = d := hf hm.filed device hd
  have hroles := Mirror.hearAll_roles (show m'.roles = m.roles from rfl) es
  rw [Mirror.hearAll_append, Mirror.hearAll_cons, Mirror.hearAll_nil, Mirror.hear_shows hshows,
    hdevice]
  refine ⟨fun x hx => ?_, ?_, ?_, htracks.filed, htracks.unstored⟩
  · rcases List.mem_append.mp hx with hx | hx
    · exact habout x hx
    · rw [List.mem_singleton.mp hx, hshows.device, hdevice]
  · exact (Table.get?_insert_self _ _ _).trans (by rw [postAll_node, hkept, hd])
  · change ((m.hearAll es).roles.get? d).getD .none = _
    rw [← hroles]
    exact htracks.role

theorem release_retains (s : Site) (d : DeviceId) : Retains d s (s.release d) := by
  refine (relinquish_retains s d).trans (.of_silence (setRoles_emits _ _) rfl rfl ?_)
  rw [relinquish_applied]
  exact RoleTable.role_forget _ d

theorem disconnected_retains (s : Site) (d : DeviceId) : Retains d s (s.disconnected d).1 := by
  obtain ⟨ps, hmark, _⟩ := markDisconnected_emits s d
  obtain ⟨ms, _, hdoes⟩ := markDisconnected_does s d
  have hroles := applied_of_roles (markDisconnected_roles s d) d
  have hshows := markDisconnected_shows s d
  have hrelease := release_retains (s.markDisconnected d).1 d
  rw [disconnected_eq]
  cases he : (s.markDisconnected d).2.event? with
  | none =>
    rw [he] at hshows
    have hpost : Retains d ((s.markDisconnected d).1.release d)
        (((s.markDisconnected d).1.release d).postAll []) := .of_node (postAll_emits _ []) rfl
    exact ((Retains.of_silence hmark hdoes.id hshows hroles).trans hrelease).trans hpost
  | some e =>
    rw [he] at hshows
    refine hrelease.told_late hmark hdoes.id hroles (markDisconnected_discreet s d).filed hshows ?_
    rw [release, setRoles_replica, relinquish_replica]

theorem portsReported_retains (s : Site) (d : DeviceId) (ps : List PortDescription) :
    Retains d s (s.portsReported d ps) := by
  unfold portsReported
  split
  · exact reported_retains (s.node.replica.setPorts_reports d ps)
  · exact .refl d s

theorem portReported_retains (s : Site) (d : DeviceId) (p : PortDescription) :
    Retains d s (s.portReported d p) := by
  unfold portReported
  split
  · exact reported_retains (s.node.replica.setPort_reports d p)
  · exact .refl d s

theorem statisticsReported_retains (s : Site) (d : DeviceId) (ss : List PortStatistics) :
    Retains d s (s.statisticsReported d ss) :=
  reported_retains (s.node.replica.setStatistics_reports d ss)

theorem roleReplied_retains (s : Site) (d : DeviceId) (requested response : Option Role) :
    Retains d s (s.roleReplied d requested response) := by
  rcases roleReplied_eq s d requested response with h | h <;> rw [h]
  · exact relinquish_retains s d
  · exact .refl d s

/-- A removal is told by its event, and takes the role along. -/
theorem remove_recounts (s : Site) (d : DeviceId) : Recounts d s (s.remove d) := by
  simp only [Site.remove, Replica.remove]
  cases hrec : s.node.replica.records.get? d with
  | none => exact (Retains.refl d s).toRecounts
  | some rec =>
    have hd : s.node.replica.device? d = some rec.device := by simp [Replica.device?, hrec]
    refine ⟨rfl, [], [.ofDevice .deviceRemoved rec.device], ⟨_, rfl, rfl, rfl⟩, fun m hm => ?_⟩
    have hid := hm.filed _ hd
    rw [Mirror.hearAll_cons, Mirror.hearAll_nil, Mirror.hear_removed, hid]
    have hnone : (s.node.roles.forget d).role d = .none := RoleTable.role_forget _ d
    refine ⟨by simpa [DeviceEvent.ofDevice] using hid, ?_, ?_, ?_, fun _ => hnone⟩
    · simp [post, note, Replica.device?]
    · exact (by simp [Mirror.role] : _ = Role.none).trans hnone.symm
    · intro device hdevice
      simp [post, note, Replica.device?] at hdevice

theorem guarded_retains (slot : Nat) {f : Site → Site} (h : Retains d s (f s)) :
    Retains d s (s.guarded slot f).1 := by
  unfold guarded
  split
  · exact .refl d s
  · exact h

/-- No task but a removal takes a device out of the store. -/
theorem run_retains (s : Site) {t : Task} (ht : ∀ d, t ≠ .remove d) :
    Retains t.device s (s.run t).1 := by
  cases t with
  | connect slot d description =>
    simp only [run, connect]
    split
    · exact .refl d s
    · exact connected_retains s slot d description
  | disconnect slot d =>
    simp only [run, disconnect]
    split
    · exact .refl d s
    · exact disconnected_retains s d
  | setPorts slot d ps => exact guarded_retains slot (portsReported_retains s d ps)
  | setPort slot d p => exact guarded_retains slot (portReported_retains s d p)
  | setStatistics slot d ss => exact guarded_retains slot (statisticsReported_retains s d ss)
  | roleReply slot d requested response =>
    exact guarded_retains slot (roleReplied_retains s d requested response)
  | reassert d requested => exact reassert_retains s d requested
  | check d => exact check_retains s d
  | handle a => exact handle_retains s a
  | remove d => exact absurd rfl (ht d)

theorem run_recounts (s : Site) (t : Task) : Recounts t.device s (s.run t).1 := by
  by_cases ht : ∃ d, t = .remove d
  · obtain ⟨d, rfl⟩ := ht
    exact remove_recounts s d
  · exact (run_retains s (not_exists.mp ht)).toRecounts

/-- What a provider does towards a device is no news of the controller. -/
theorem called_emits (s : Site) (slot : Nat) (calls : List Call) :
    Emits s (s.note (calls.map (.called s.node.id slot))) [] [] := by
  refine ⟨_, rfl, ?_, ?_⟩ <;>
    simp [pleas, posts, List.filterMap_map, Function.comp_def, Notice.plea?, Notice.event?]

/-- An answer is the provider's doing, which is not told, and then concluding the push. -/
theorem answer_concludes (s : Site) (p : Push) :
    ∃ s₁, Retains p.device s s₁ ∧ s₁.node.replica = s.node.replica ∧
      s.answer p = s₁.conclude p (s.reply p) := by
  simp only [answer, reply]
  generalize s.node.south.finish p.slot p.device p.role = r
  obtain ⟨south, result⟩ := r
  have hsouth : Retains p.device s { s with node := { s.node with south } } :=
    .of_silence (emits_nothing rfl) rfl rfl rfl
  cases result with
  | error e => exact ⟨_, hsouth, rfl, rfl⟩
  | ok calls =>
    have hcalled := called_emits { s with node := { s.node with south } } p.slot calls
    exact ⟨_, hsouth.trans (.of_node hcalled rfl), rfl, rfl⟩

/-- What follows from the answer to a push is told, but for the role of a device that is not stored. -/
theorem answer_retains {p : Push}
    (hs : s.reply p = .ok () → p.sequel = .settle → s.stored p.device = true) :
    Retains p.device s (s.answer p) := by
  obtain ⟨s₁, hr, hreplica, he⟩ := answer_concludes s p
  rw [he]
  refine hr.trans (conclude_retains fun hok hq => ?_)
  rw [stored_of_replica hreplica]
  exact hs hok hq

/-- Of a device that is not stored nothing is told when its role is recorded. -/
theorem conclude_unstored {p : Push} (hq : p.sequel = .settle) (hs : s.stored p.device = false) :
    (s.conclude p (.ok ())).journal = s.journal := by
  have hnone : s.node.replica.device? p.device = none := by simpa [stored] using hs
  simp only [conclude, hq, settle]
  split
  · simp only [postRole, setRoles_replica, hnone]
    rfl
  · rfl

end Site
end Mastership
