import Mastership.Proofs.Concerns
import Mastership.Proofs.Courses

namespace Mastership

/-- Whether an event says that its device is available, if it is about that. -/
def DeviceEvent.availability? (e : DeviceEvent) : Option Bool :=
  match e.kind with
  | .deviceAdded | .deviceUpdated | .availabilityChanged => some e.device.available
  | .deviceRemoved => some false
  | _ => none

/-- The event tells that the member is master of the device. -/
def DeviceEvent.TellsMaster (e : DeviceEvent) : Prop :=
  e.kind = .mastershipChanged ∧ e.role = some .master

/-- Whether a device is available, for who hears these events about it after having had it as `known`. -/
def heardAvailable (known : Bool) (es : List DeviceEvent) : Bool :=
  es.foldl (fun known e => e.availability?.getD known) known

/-- Who hears these events about a device after having had it as `known` is told of MASTER only while it
has the device as available, and by events that show it so. -/
def Heralded : Bool → List DeviceEvent → Prop
  | _, [] => True
  | known, e :: es =>
    (e.TellsMaster → known = true ∧ e.device.available = true) ∧
      Heralded (e.availability?.getD known) es

section Heard

variable {known : Bool} {e : DeviceEvent} {es es' before after : List DeviceEvent}

theorem heardAvailable_append (known : Bool) (es es' : List DeviceEvent) :
    heardAvailable known (es ++ es') = heardAvailable (heardAvailable known es) es' :=
  List.foldl_append

/-- Events that say nothing new of a device leave it as available as it is. -/
theorem heardAvailable_of_same
    (h : ∀ e ∈ es, e.availability? = none ∨ e.availability? = some known) :
    heardAvailable known es = known := by
  induction es with
  | nil => rfl
  | cons e es ih =>
    have hone : e.availability?.getD known = known := by
      rcases h e List.mem_cons_self with he | he <;> rw [he] <;> rfl
    change heardAvailable (e.availability?.getD known) es = known
    rw [hone]
    exact ih fun x hx => h x (List.mem_cons_of_mem e hx)

/-- A device that is available by what was heard has become so by one of the events, and none since
says otherwise, unless it was available all the time. -/
theorem heardAvailable_since (h : heardAvailable known es = true) :
    (known = true ∧ ∀ x ∈ es, x.availability? ≠ some false) ∨
      ∃ before e after, es = before ++ e :: after ∧ heardAvailable known before = false ∧
        e.availability? = some true ∧ ∀ x ∈ after, x.availability? ≠ some false := by
  induction es generalizing known with
  | nil => exact .inl ⟨h, by simp⟩
  | cons e es ih =>
    have hrest : heardAvailable (e.availability?.getD known) es = true := h
    rcases ih hrest with
      ⟨hknown, hkept⟩ | ⟨before, x, after, rfl, hbefore, hx, hkept⟩
    · cases ha : e.availability? with
      | none =>
        refine .inl ⟨by simpa [ha] using hknown, fun x hx => ?_⟩
        rcases List.mem_cons.mp hx with rfl | hx
        · simp [ha]
        · exact hkept x hx
      | some available =>
        obtain rfl : available = true := by simpa [ha] using hknown
        cases known with
        | false => exact .inr ⟨[], e, es, rfl, rfl, ha, hkept⟩
        | true =>
          refine .inl ⟨rfl, fun x hx => ?_⟩
          rcases List.mem_cons.mp hx with rfl | hx
          · simp [ha]
          · exact hkept x hx
    · exact .inr ⟨e :: before, x, after, rfl, hbefore, hx, hkept⟩

theorem heralded_append :
    Heralded known (es ++ es') ↔ Heralded known es ∧ Heralded (heardAvailable known es) es' := by
  induction es generalizing known with
  | nil => exact ⟨fun h => ⟨trivial, h⟩, fun h => h.2⟩
  | cons e es ih =>
    change (_ ∧ Heralded _ (es ++ es')) ↔ (_ ∧ Heralded _ es) ∧ _
    rw [ih, and_assoc]
    rfl

/-- Whatever is heard of availability, there is nothing to herald where nobody is told of MASTER. -/
theorem heralded_of_silence (h : ∀ e ∈ es, ¬ e.TellsMaster) : Heralded known es := by
  induction es generalizing known with
  | nil => trivial
  | cons e es ih =>
    exact ⟨fun he => absurd he (h e List.mem_cons_self),
      ih fun x hx => h x (List.mem_cons_of_mem e hx)⟩

theorem Heralded.of_split (h : Heralded known (before ++ e :: after)) (he : e.TellsMaster) :
    heardAvailable known before = true ∧ e.device.available = true :=
  (heralded_append.mp h).2.1 he

theorem DeviceEvent.availability?_eq_true (h : e.availability? = some true) :
    (e.kind = .deviceAdded ∨ e.kind = .deviceUpdated ∨ e.kind = .availabilityChanged) ∧
      e.device.available = true := by
  unfold DeviceEvent.availability? at h
  split at h
  · next hk => exact ⟨.inl hk, Option.some.inj h⟩
  · next hk => exact ⟨.inr (.inl hk), Option.some.inj h⟩
  · next hk => exact ⟨.inr (.inr hk), Option.some.inj h⟩
  · cases h
  · cases h

/-- An event that shows a device and says whether it is available shows it so. -/
theorem DeviceEvent.Shows.availability? {device : Device} (h : e.Shows device) :
    e.availability? = none ∨ e.availability? = some device.available := by
  obtain ⟨rfl, _, hremoved, _⟩ := h
  unfold DeviceEvent.availability?
  split
  · exact .inr rfl
  · exact .inr rfl
  · exact .inr rfl
  · next hk => exact absurd hk hremoved
  · exact .inl rfl

/-- An event of a stored device makes it available. -/
theorem Replica.put_availability (r : Replica) (provider : ProviderId) (d : DeviceId)
    (description : DeviceDescription) :
    ∀ e ∈ (r.put provider d description).2.toList, e.availability? = some true := by
  intro e he
  simp only [put] at he
  split at he
  · rw [List.mem_singleton.mp he]
    rfl
  · dsimp only at he
    split at he
    · rw [List.mem_singleton.mp he]
      rfl
    · split at he
      · cases he
      · rw [List.mem_singleton.mp he]
        rfl

theorem eventsOf_self {n : NodeId} {d : DeviceId} {ns : List Notice}
    (hposts : posts ns = es.map (n, ·)) (hes : ∀ e ∈ es, e.device.id = d) :
    eventsOf n d ns = es := by
  have habout : posts (about d ns) = (posts ns).filter (·.2.device.id = d) := by
    simp only [posts, about, List.filter_filterMap, List.filterMap_filter]
    congr 1
    funext x
    cases x with
    | posted m e =>
      by_cases he : e.device.id = d <;> simp [Notice.event?, Notice.device, Option.filter, he]
    | _ =>
      simp only [Notice.event?, Option.filter]
      split <;> rfl
  have hall : (es.map (n, ·)).filter (·.2.device.id = d) = es.map (n, ·) :=
    List.filter_eq_self.mpr (by simpa using hes)
  exact postedBy_self (habout.trans (hposts ▸ hall))

end Heard

namespace Site

variable {d : DeviceId} {s s' s'' : Site} {es es' : List DeviceEvent} {ts : List Term}

/-- From `s` to `s'` the controller posted `es`, all of it about the device, and told with it what has
become of the availability of the device. -/
structure Recites (d : DeviceId) (s s' : Site) (es : List DeviceEvent) : Prop where
  id : s'.node.id = s.node.id
  filed : s'.Filed d
  emits : ∃ ps, Emits s s' ps (es.map (s.node.id, ·))
  about : ∀ e ∈ es, e.device.id = d
  heard : heardAvailable (s.node.replica.isAvailable d) es = s'.node.replica.isAvailable d

theorem Recites.trans (h : Recites d s s' es) (h' : Recites d s' s'' es') :
    Recites d s s'' (es ++ es') := by
  obtain ⟨hid, _, ⟨ps, he⟩, habout, hheard⟩ := h
  obtain ⟨hid', hfiled', ⟨ps', he'⟩, habout', hheard'⟩ := h'
  rw [hid] at he'
  refine ⟨hid'.trans hid, hfiled', ⟨ps ++ ps', by simpa using he.trans he'⟩, fun e hmem => ?_, ?_⟩
  · rcases List.mem_append.mp hmem with hmem | hmem
    · exact habout e hmem
    · exact habout' e hmem
  · rw [heardAvailable_append, hheard, hheard']

/-- What leaves the replica alone and posts nothing. -/
theorem recites_nothing (hf : s.Filed d) {ps : List (NodeId × DeviceId × Plea)}
    (he : Emits s s' ps []) (hid : s'.node.id = s.node.id)
    (hr : s'.node.replica = s.node.replica) : Recites d s s' [] :=
  ⟨hid, hf.of_replica hr, ⟨ps, he⟩, by simp, by rw [hr]; rfl⟩

theorem postRole_recites (hf : s.Filed d) (role : Role) :
    Recites d s (s.postRole d role) ((s.node.replica.device? d).toList.map (.ofRole · role)) := by
  have hn := postRole_node s d role
  refine ⟨by rw [hn], hf.of_replica (by rw [hn]), ⟨_, postRole_emits_role s d role⟩, ?_, ?_⟩
  · intro e he
    obtain ⟨device, hdevice, rfl⟩ := List.mem_map.mp he
    exact hf device (Option.mem_toList.mp hdevice)
  · rw [hn]
    refine heardAvailable_of_same fun e he => ?_
    obtain ⟨device, _, rfl⟩ := List.mem_map.mp he
    exact .inl rfl

theorem store_recites (hf : s.Filed d) (provider : ProviderId) (description : DeviceDescription) :
    Recites d s (s.store provider d description)
      (s.node.replica.put provider d description).2.toList := by
  have hshows := s.node.replica.put_shows d provider description
  have havailable := s.node.replica.put_availability provider d description
  have hafter : (s.store provider d description).node.replica.isAvailable d = true := by
    simp [Replica.isAvailable, store_device?]
  refine ⟨rfl, store_filed s provider d description, ⟨_, postAll_emits _ _⟩,
    fun e he => by rw [(hshows e he).device], ?_⟩
  rw [hafter]
  cases hevent : (s.node.replica.put provider d description).2 with
  | none =>
    have hbefore := put_silent s provider d description hevent hf
    simp [heardAvailable, Replica.isAvailable, hbefore]
  | some e => simp [heardAvailable, havailable e (by simp [hevent])]

/-- Reports show the device as it is stored. -/
theorem reported_recites (hf : s.Filed d) {replica : Replica}
    (h : s.node.replica.Reports d replica es) :
    Recites d s ((s.setReplica replica).postAll es) es := by
  have hsame : replica.isAvailable d = s.node.replica.isAvailable d := by
    rw [Replica.isAvailable, h.device, Replica.isAvailable]
  refine ⟨rfl, hf.of_ids (by rw [postAll_node, setReplica_replica, h.device]),
    ⟨_, postAll_emits _ _⟩, fun e he => ?_, ?_⟩
  · obtain ⟨device, hdevice, hshows⟩ := h.events e he
    rw [hshows.device]
    exact hf device hdevice
  · refine (heardAvailable_of_same fun e he => ?_).trans hsame.symm
    obtain ⟨device, hdevice, hshows⟩ := h.events e he
    have hknown : s.node.replica.isAvailable d = device.available := by
      simp [Replica.isAvailable, hdevice]
    rw [hknown]
    exact hshows.availability?

theorem remove_recites (hf : s.Filed d) : ∃ es, Recites d s (s.remove d) es := by
  simp only [Site.remove, Replica.remove]
  cases hrec : s.node.replica.records.get? d with
  | none => exact ⟨[], recites_nothing hf (emits_nothing rfl) rfl rfl⟩
  | some rec =>
    have hdevice : s.node.replica.device? d = some rec.device := by simp [Replica.device?, hrec]
    refine ⟨[.ofDevice .deviceRemoved rec.device], rfl, ?_, ⟨[], _, rfl, rfl, rfl⟩, ?_, ?_⟩
    · intro device hd
      simp [post, note, Replica.device?] at hd
    · simpa [DeviceEvent.ofDevice] using hf _ hdevice
    · simp [heardAvailable, DeviceEvent.availability?, DeviceEvent.ofDevice, post, note,
        Replica.isAvailable, Replica.device?]

/-- All that happens to a device is told, step by step. -/
theorem Course.recites (h : Course d s ts s') (hf : s.Filed d) : ∃ es, Recites d s s' es := by
  induction h with
  | rest he hid _ hr => exact ⟨[], recites_nothing hf he hid hr⟩
  | @hear s t ht =>
    exact ⟨[], recites_nothing hf (emits_nothing (by simp only [observeTerm, ht]))
      (observeTerm_does s d).id (observeTerm_replica s d)⟩
  | tell s role => exact ⟨_, postRole_recites hf role⟩
  | store s provider description => exact ⟨_, store_recites hf provider description⟩
  | @ports s ps ha =>
    simp only [portsReported, ha, if_true]
    exact ⟨_, reported_recites hf (s.node.replica.setPorts_reports d ps)⟩
  | @port s p ha =>
    simp only [portReported, ha, if_true]
    exact ⟨_, reported_recites hf (s.node.replica.setPort_reports d p)⟩
  | statistics s ss => exact ⟨_, reported_recites hf (s.node.replica.setStatistics_reports d ss)⟩
  | remove s => exact remove_recites hf
  | trans _ _ ih ih' =>
    obtain ⟨es, hfirst⟩ := ih hf
    obtain ⟨es', hsecond⟩ := ih' hfirst.filed
    exact ⟨es ++ es', hfirst.trans hsecond⟩

/-- Marking a device offline leaves it as available as it was, or there is an event that says that it
is not available any more. -/
theorem markDisconnected_availability (s : Site) (d : DeviceId) (ht : s.node.replica.Tidy) :
    match (s.markDisconnected d).2.event? with
    | none => (s.disconnected d).1.node.replica.isAvailable d = s.node.replica.isAvailable d
    | some e => e.device.id = d ∧ e.availability? = some false ∧
        (s.disconnected d).1.node.replica.isAvailable d = false := by
  rw [markDisconnected_event? s d ht]
  simp only [Replica.isAvailable, disconnected_device? s d ht, Replica.offlineEvent?]
  cases (s.attempts d).any (·.stamping d) with
  | false => simp
  | true =>
    cases hdevice : s.node.replica.device? d with
    | none => simp
    | some device =>
      obtain ⟨rec, hrec, rfl⟩ := Option.map_eq_some_iff.mp hdevice
      have hid := (ht d rec hrec).id
      cases ha : rec.device.available with
      | false => simp [ha]
      | true => simp [ha, hid, DeviceEvent.ofDevice, DeviceEvent.availability?]

theorem Tidy.filed (ht : s.node.replica.Tidy) (d : DeviceId) : s.Filed d := by
  intro device hd
  obtain ⟨rec, hrec, rfl⟩ := Option.map_eq_some_iff.mp hd
  exact (ht d rec hrec).id

theorem release_recites (hf : s.Filed d) : ∃ es, Recites d s (s.release d) es := by
  obtain ⟨es, hgive⟩ := (relinquish_course s d).recites hf
  have hforget : Recites d (s.relinquish d) (s.release d) [] :=
    recites_nothing hgive.filed (setRoles_emits _ _) rfl rfl
  exact ⟨es ++ [], hgive.trans hforget⟩

/-- That a device went offline is told last. -/
theorem disconnected_recites (ht : s.node.replica.Tidy) (d : DeviceId) :
    ∃ es, Recites d s (s.disconnected d).1 es := by
  have hmarked := markDisconnected_availability s d ht
  obtain ⟨ms, _, hdoes⟩ := markDisconnected_does s d
  obtain ⟨ps, hmark, _⟩ := markDisconnected_emits s d
  obtain ⟨es, hrelease⟩ :=
    release_recites ((markDisconnected_discreet s d).filed (Tidy.filed ht d))
  obtain ⟨ps', hemits⟩ := hrelease.emits
  have hpost := (hmark.trans hemits).trans
    (postAll_emits ((s.markDisconnected d).1.release d) (s.markDisconnected d).2.event?.toList)
  rw [← disconnected_eq, hrelease.id, hdoes.id, List.nil_append, ← List.map_append] at hpost
  have hid : (s.disconnected d).1.node.id = s.node.id := by
    rw [disconnected_eq, postAll_node, hrelease.id, hdoes.id]
  have hkept : (s.disconnected d).1.node.replica = ((s.markDisconnected d).1.release d).node.replica := by
    rw [disconnected_eq, postAll_node]
  refine ⟨_, hid, hrelease.filed.of_replica hkept, ⟨_, hpost⟩, fun e he => ?_, ?_⟩
  · rcases List.mem_append.mp he with he | he
    · exact hrelease.about e he
    · rw [Option.mem_toList.mp he] at hmarked
      exact hmarked.1
  · have hheard := hrelease.heard
    rw [← hkept] at hheard
    rw [heardAvailable_append]
    cases hevent : (s.markDisconnected d).2.event? with
    | none =>
      rw [hevent] at hmarked
      have hsame : (s.disconnected d).1.node.replica.isAvailable d =
          s.node.replica.isAvailable d := hmarked
      rw [disconnected_replica] at hsame hheard ⊢
      rw [← hsame]
      exact hheard
    | some e =>
      rw [hevent] at hmarked
      simp [heardAvailable, hmarked.2.1, hmarked.2.2]

/-- Who tells of no role but NONE does not tell of MASTER. -/
theorem Discreet.silent (h : Discreet d s s') {ps : List (NodeId × DeviceId × Plea)}
    (he : Emits s s' ps (es.map (s.node.id, ·))) : ∀ e ∈ es, ¬ e.TellsMaster := by
  obtain ⟨ns, hj, htold⟩ := h.told
  obtain ⟨ns', hj', _, hposts⟩ := he
  obtain rfl := List.append_cancel_left (hj.symm.trans hj')
  rintro e hmem ⟨hkind, hrole⟩
  have hposted : Notice.posted s.node.id e ∈ ns := by
    refine mem_posts (x := (s.node.id, e)).mp ?_
    rw [hposts]
    exact List.mem_map_of_mem hmem
  have hmaster : (s.node.id, e.device.id, Role.master) ∈ Mastership.told ns :=
    List.mem_filterMap.mpr ⟨_, hposted, by simp [Notice.role?, hkind, hrole]⟩
  cases htold _ hmaster

/-- Whatever a task does to its device is told, and nobody is told of MASTER. -/
theorem run_recites (ht : s.node.replica.Tidy) (t : Task) :
    ∃ es, Recites t.device s (s.run t).1 es ∧ ∀ e ∈ es, ¬ e.TellsMaster := by
  have hrecites : ∃ es, Recites t.device s (s.run t).1 es := by
    by_cases hd : ∃ slot d, t = .disconnect slot d
    · obtain ⟨slot, d, rfl⟩ := hd
      simp only [run, disconnect]
      split
      · exact ⟨[], recites_nothing (Tidy.filed ht d) (emits_nothing rfl) rfl rfl⟩
      · exact disconnected_recites ht d
    · exact (run_course s fun slot d he => hd ⟨slot, d, he⟩).recites (Tidy.filed ht _)
  obtain ⟨es, hr⟩ := hrecites
  obtain ⟨ps, hemits⟩ := hr.emits
  exact ⟨es, hr, (run_discreet s t).silent hemits⟩

/-- The device is available if it is stored. -/
def Lit (d : DeviceId) (s : Site) : Prop :=
  s.stored d = true → s.node.replica.isAvailable d = true

theorem Lit.of_device (h : s.Lit d)
    (hd : s'.node.replica.device? d = s.node.replica.device? d) : s'.Lit d := by
  unfold Lit stored Replica.isAvailable at h ⊢
  rwa [hd]

theorem store_lit (s : Site) (provider : ProviderId) (d : DeviceId)
    (description : DeviceDescription) : (s.store provider d description).Lit d := by
  intro _
  simp [Replica.isAvailable, store_device?]

theorem markOnline_lit (s : Site) (d : DeviceId) : (s.markOnline d).Lit d := by
  unfold markOnline
  split
  · next hnone =>
    intro hs
    simp [stored, hnone] at hs
  · next device hdevice =>
    split
    · next ha =>
      intro _
      simp [Replica.isAvailable, hdevice, ha]
    · exact store_lit s _ d _

theorem remove_stored (s : Site) (d : DeviceId) : (s.remove d).stored d = false := by
  simp only [Site.remove, Replica.remove]
  cases hrec : s.node.replica.records.get? d with
  | none => simp [stored, Replica.device?, hrec]
  | some rec => simp [stored, Replica.device?, post, note]

/-- Only a disconnection makes a stored device unavailable. -/
theorem Course.lit (h : Course d s ts s') (hs : s.Lit d) : s'.Lit d := by
  induction h with
  | rest _ _ _ hr => exact hs.of_device (by rw [hr])
  | hear => exact hs.of_device (by rw [observeTerm_replica])
  | tell s role => exact hs.of_device (by rw [postRole_node])
  | store s provider description => exact store_lit s provider d description
  | @ports s ps ha =>
    simp only [portsReported, ha, if_true]
    exact hs.of_device (s.node.replica.setPorts_reports d ps).device
  | @port s p ha =>
    simp only [portReported, ha, if_true]
    exact hs.of_device (s.node.replica.setPort_reports d p).device
  | statistics s ss => exact hs.of_device (s.node.replica.setStatistics_reports d ss).device
  | remove s =>
    intro hstored
    rw [remove_stored] at hstored
    cases hstored
  | trans _ _ ih ih' => exact ih' (ih hs)

/-- Whoever settles a push tells of MASTER only if it has the device available. -/
theorem settle_recites (hf : s.Filed d) (role : Role) (epoch : Option Nat)
    {result : Except Failure Unit} (hm : result = .ok () → role = .master → s.Lit d) :
    ∃ es, Recites d s (s.settle d role epoch result) es ∧
      Heralded (s.node.replica.isAvailable d) es := by
  cases result with
  | error e =>
    obtain ⟨es, hr⟩ := (relinquish_course s d).recites hf
    obtain ⟨ps, hemits⟩ := hr.emits
    exact ⟨es, hr, heralded_of_silence ((relinquish_discreet s d).silent hemits)⟩
  | ok =>
    have hrecord : Recites d s (s.setRoles (s.node.roles.record d role epoch).1) [] :=
      recites_nothing hf (setRoles_emits _ _) rfl rfl
    simp only [settle]
    split
    · refine ⟨_, hrecord.trans (postRole_recites hrecord.filed role), ?_⟩
      rw [List.nil_append, setRoles_replica]
      cases hdevice : s.node.replica.device? d with
      | none => trivial
      | some device =>
        refine ⟨?_, trivial⟩
        rintro ⟨_, hrole⟩
        have hlit := hm rfl (Option.some.inj hrole) (by simp [stored, hdevice])
        refine ⟨hlit, ?_⟩
        rw [Replica.isAvailable, hdevice] at hlit
        exact hlit
    · exact ⟨[], hrecord, trivial⟩

/-- A device that is stored first is available by then. -/
theorem conclude_recites {p : Push} (result : Except Failure Unit) (hf : s.Filed p.device)
    (hm : result = .ok () → p.role = .master → p.sequel = .settle → s.Lit p.device) :
    ∃ es, Recites p.device s (s.conclude p result) es ∧
      Heralded (s.node.replica.isAvailable p.device) es := by
  unfold conclude
  split
  · next hq => exact settle_recites hf _ _ fun hok hrole => hm hok hrole hq
  · next provider description _ =>
    have hstore := store_recites hf provider description
    have hlit : result = .ok () → p.role = .master →
        (s.store provider p.device description).Lit p.device := fun _ _ => store_lit s _ _ _
    obtain ⟨es, hsettle, hheralded⟩ := settle_recites hstore.filed p.role p.epoch hlit
    refine ⟨_, hstore.trans hsettle, heralded_append.mpr ⟨heralded_of_silence ?_, ?_⟩⟩
    · rintro e he ⟨_, hrole⟩
      rw [(s.node.replica.put_shows p.device provider description e he).role] at hrole
      cases hrole
    · rwa [hstore.heard]

theorem answer_recites {p : Push} (hf : s.Filed p.device)
    (hm : p.role = .master → p.sequel = .settle → s.Lit p.device) :
    ∃ es, Recites p.device s (s.answer p) es ∧
      Heralded (s.node.replica.isAvailable p.device) es := by
  obtain ⟨s₁, hemits, hid, _, _, hreplica, he⟩ := answer_reaches s p
  have hreach := recites_nothing hf hemits hid hreplica
  obtain ⟨es, hr, hheralded⟩ := conclude_recites (s.reply p) hreach.filed
    fun _ hrole hq => (hm hrole hq).of_device (by rw [hreplica])
  rw [he]
  exact ⟨_, hreach.trans hr, hreplica ▸ hheralded⟩

theorem Marks.role_eq {e e' : RoleTable.Entry} {push : Option Push} (h : Marks e e' push)
    (hm : e'.role ≠ .none) : e'.role = e.role := by
  cases h with
  | keeps => rfl
  | clears hn => exact absurd hn hm
  | notes => rfl

/-- After a task whoever has the role MASTER of the device had it before, and has the device available
if it had. -/
theorem run_master_lit {t : Task} (h : s.applied t.device = .master → s.Lit t.device)
    (hm : (s.run t).1.applied t.device = .master) : (s.run t).1.Lit t.device := by
  have hbefore : s.applied t.device = .master := by
    have hrole := (run_marks s t).role_eq (ne_of_eq_of_ne hm (by decide))
    exact hrole.symm.trans hm
  by_cases hd : ∃ slot d, t = .disconnect slot d
  · obtain ⟨slot, d, rfl⟩ := hd
    simp only [run, disconnect] at hm ⊢
    split at hm
    · exact h hbefore
    · have hnone : (s.disconnected d).1.applied d = .none :=
        congrArg RoleTable.Entry.role (disconnected_entry s d)
      exact absurd (hnone.symm.trans hm) (by decide)
  · exact (run_course s fun slot d he => hd ⟨slot, d, he⟩).lit (h hbefore)

/-- A push that is only to be settled comes of a decision to assert a role. -/
theorem run_reasserts {t : Task} {p : Push} (hp : (s.run t).2 = some p) (hq : p.sequel = .settle) :
    ∃ (s₁ : Site) (requested : Role), s.run t = s₁.reassert t.device requested := by
  cases t with
  | connect slot d description =>
    simp only [run, connect] at hp
    split at hp
    · cases hp
    · rw [connected_eq] at hp
      dsimp only at hp
      split at hp
      · obtain ⟨⟨_, rfl⟩, _⟩ := startPush_left (targetRole_ne_none _ _) hp
        cases hq
      · cases hp
  | reassert d requested => exact ⟨s, requested, rfl⟩
  | check d =>
    simp only [run, check] at hp ⊢
    split at hp
    · split at hp
      · next hreach hrole => exact ⟨s, .none, if_pos hrole⟩
      · cases hp
    · cases hp
  | handle a =>
    simp only [run, handle] at hp ⊢
    split at hp
    · cases hp
    · simp only [followMaster] at hp ⊢
      generalize s.suggestedRole a = r at hp ⊢
      obtain ⟨s₁, suggested⟩ := r
      dsimp only at hp ⊢
      split at hp
      · cases hp
      · cases hp
      · split at hp
        · next hstored => exact ⟨s₁, suggested, if_pos hstored⟩
        · cases hp
  | _ => cases hp

/-- MASTER is pushed to devices only that are available or will be stored anew. -/
theorem run_pushes_lit {t : Task} {p : Push} (hp : (s.run t).2 = some p) (hrole : p.role = .master)
    (hq : p.sequel = .settle) : (s.run t).1.Lit t.device := by
  obtain ⟨s₁, requested, he⟩ := run_reasserts hp hq
  rw [he, reassert_eq] at hp ⊢
  dsimp only at hp ⊢
  split at hp
  · next hc =>
    have hne : (s₁.informed t.device requested).target t.device requested ≠ .none :=
      targetRole_ne_none _ _
    obtain ⟨⟨slot, rfl⟩, hstart⟩ := startPush_left hne hp
    rw [if_pos hc, hstart, if_pos hrole]
    exact (markOnline_lit _ _).of_device rfl
  · cases hp

/-- After an answer whoever has the role MASTER of the device has the device available. -/
theorem answer_master_lit {p : Push} (h : s.applied p.device = .master → s.Lit p.device)
    (hpushed : p.role = .master → p.sequel = .settle → s.Lit p.device)
    (hm : (s.answer p).applied p.device = .master) : (s.answer p).Lit p.device := by
  obtain ⟨s₁, _, _, _, _, hreplica, he⟩ := answer_reaches s p
  cases hq : p.sequel with
  | store provider description =>
    rw [he]
    simp only [conclude, hq]
    exact (store_lit s₁ provider p.device description).of_device (by rw [settle_replica])
  | settle =>
    have hentry := congrArg RoleTable.Entry.role (answer_entry s p)
    have hbefore : s.applied p.device = .master ∨ p.role = .master := by
      have hm : ((s.answer p).node.roles.entry p.device).role = .master := hm
      rw [hentry] at hm
      split at hm
      · cases hm
      · have hrecord := s.node.roles.role_record p.device p.role p.epoch
        rw [RoleTable.role, hm] at hrecord
        split at hrecord
        · exact .inr hrecord.symm
        · exact .inl hrecord.symm
    exact (answer_course s p).lit (hbefore.elim h fun hrole => hpushed hrole hq)

end Site
end Mastership
