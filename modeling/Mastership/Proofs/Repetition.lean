import Mastership.Proofs.Calls
import Mastership.Proofs.Guards

namespace Mastership

theorem Clock.setTerm_again (c : Clock) (d : DeviceId) (t : Term) :
    ((c.setTerm d t).1.setTerm d t).1 = (c.setTerm d t).1 := by
  cases h : c.entries.get? d with
  | none => simp [setTerm, h, Table.insert_insert]
  | some e =>
    by_cases he : t.epoch < e.term.epoch
    · simp [setTerm, h, he]
    · simp [setTerm, h, he, Table.insert_insert]

namespace RoleTable

variable {t : RoleTable} {d : DeviceId} {e : Entry}

theorem observe_again (h : t.entries.get? d = some e) : t.observe d e.epoch = (t, true) := by
  simp only [observe, entry, h, Option.getD_some, Nat.lt_irrefl, if_false]
  have hsame : (⟨t.entries.insert d e⟩ : RoleTable) = t :=
    congrArg RoleTable.mk (Table.insert_eq_self h)
  exact congrArg (·, true) hsame

theorem get?_record (role : Role) {epoch : Option Nat}
    (h : ∀ k, epoch = some k → (t.entry d).epoch ≤ k) :
    (t.record d role epoch).1.entries.get? d = some ⟨role, epoch.getD (t.entry d).epoch⟩ := by
  cases epoch with
  | none => exact Table.get?_insert_self _ _ _
  | some k =>
    simp only [record, if_neg (Nat.not_lt.mpr (h k rfl))]
    exact Table.get?_insert_self _ _ _

theorem record_again {epoch : Option Nat} (h : t.entries.get? d = some e)
    (he : ∀ k, epoch = some k → e.epoch = k) : t.record d e.role epoch = (t, false) := by
  have hsame : (⟨t.entries.insert d e⟩ : RoleTable) = t :=
    congrArg RoleTable.mk (Table.insert_eq_self h)
  cases epoch with
  | none =>
    simp only [record, entry, h, Option.getD_some, bne_self_eq_false]
    exact congrArg (·, false) hsame
  | some k =>
    obtain rfl := he k rfl
    simp only [record, entry, h, Option.getD_some, Nat.lt_irrefl, if_false, bne_self_eq_false]
    exact congrArg (·, false) hsame

end RoleTable

theorem Election.request_again (e : Election) (n : NodeId) (d : DeviceId) :
    (e.request n d).1.request n d = ((e.request n d).1, []) := by
  have hseat : (e.request n d).1.seat d = ((e.seat d).request n).1 := e.seat_move_self d (.request n)
  obtain ⟨hmaster, hqueue⟩ := (e.seat d).request_queued n
  obtain ⟨m, hm⟩ := Option.ne_none_iff_exists'.mp hmaster
  apply move_of_quiet (m := .request n)
  rw [hseat, Seat.move, Seat.request_of_mem hm hqueue]

namespace Site

variable {s : Site} {d : DeviceId} {requested : Role}

theorem markOnline_of_available
    (h : ∀ device, s.node.replica.device? d = some device → device.available = true) :
    s.markOnline d = s := by
  unfold markOnline
  cases hd : s.node.replica.device? d with
  | none => rfl
  | some device => exact if_pos (h device hd)

theorem markOnline_available (s : Site) (d : DeviceId) {device : Device}
    (h : (s.markOnline d).node.replica.device? d = some device) : device.available = true := by
  unfold markOnline at h
  split at h
  · next hnone => rw [hnone] at h; cases h
  · next old hold =>
    split at h
    · next ha =>
      obtain rfl := Option.some.inj (hold.symm.trans h)
      exact ha
    · rw [store_device?] at h
      rw [← Option.some.inj h]

theorem markOnline_clock (s : Site) (d : DeviceId) :
    (s.markOnline d).node.clock = s.node.clock := by
  unfold markOnline
  split
  · rfl
  · split <;> rfl

theorem settle_ok_node (s : Site) (d : DeviceId) (role : Role) (epoch : Option Nat) :
    (s.settle d role epoch (.ok ())).node =
      { s.node with roles := (s.node.roles.record d role epoch).1 } := by
  simp only [settle]
  split
  · rw [postRole_node]
    rfl
  · rfl

/-- A role that is recorded already is not told of once more. -/
theorem settle_recorded {role : Role} {epoch : Option Nat}
    (h : s.node.roles.record d role epoch = (s.node.roles, false)) :
    s.settle d role epoch (.ok ()) = s := by
  simp only [settle, h]
  rfl

theorem settle_ok_election (s : Site) (d : DeviceId) (role : Role) (epoch : Option Nat) :
    (s.settle d role epoch (.ok ())).election = s.election :=
  (settle_ok_does s d role epoch).election

/-- A site that is about to push the role that is due. -/
def ready (s : Site) (d : DeviceId) (requested : Role) : Site :=
  let i := s.informed d requested
  if i.target d requested = .master then i.markOnline d else i

/-- The push of the role that is due. -/
def offer (s : Site) (d : DeviceId) (requested : Role) (slot : Nat) : Push :=
  ⟨slot, d, (s.informed d requested).target d requested,
    ((s.informed d requested).term? d).map Term.epoch, .settle⟩

/-- A site once a provider has done what is to be done for a push that its device accepts. -/
def served (s : Site) (p : Push) : Site :=
  (s.setSouth (s.node.south.finish p.slot p.device p.role).1).note
    (.started s.node.id p :: (Provider.callsFor p.device p.role).map (.called s.node.id p.slot))

theorem accepts_line (h : s.accepts d = true) : (s.node.south.lineFor d).isSome := by
  cases hl : s.node.south.lineFor d with
  | none => simp [accepts, hl] at h
  | some line => rfl

theorem answer_served {p : Push} (hfits : s.Fits p) (ha : s.accepts p.device = true) :
    (s.note [.started s.node.id p]).answer p = (s.served p).conclude p (.ok ()) := by
  have hreply := (answer_taken hfits ha).1
  unfold reply at hreply
  unfold answer served
  generalize hr : (s.node.south.finish p.slot p.device p.role) = r at hreply
  obtain ⟨south, result⟩ := r
  cases result with
  | error e => cases hreply
  | ok done =>
    have hdone : done = Provider.callsFor p.device p.role :=
      Southbound.finish_calls (congrArg Prod.snd hr)
    simp only [note_node, hr, hdone]
    congr 1
    simp only [note, setSouth, List.append_assoc, List.singleton_append]

theorem ready_does (s : Site) (d : DeviceId) (requested : Role) :
    Does d (s.asking requested) [] s (s.ready d requested) :=
  (informed_does s d requested).then (markIf_does _ d _)

/-- A reassertion to a device that accepts roles, in three steps: preparing, pushing, recording. -/
theorem Truthful.reassert_carried (ht : s.Truthful) (ha : s.accepts d = true) (requested : Role) :
    ∃ slot, s.node.south.slotFor d = some slot ∧
      answerNow (s.reassert d requested) =
        ((s.ready d requested).served (s.offer d requested slot)).settle d
          (s.offer d requested slot).role (s.offer d requested slot).epoch (.ok ()) := by
  have hready := s.ready_does d requested
  have hne : (s.informed d requested).target d requested ≠ .none := targetRole_ne_none _ _
  have hserved : ((s.ready d requested).node.south.slotFor d).isSome := by
    rw [hready.south.slotFor]
    exact slotFor_of_line (accepts_line ha)
  obtain ⟨slot, hslot, hstart⟩ := start_served hserved hne
  refine ⟨slot, (hready.south.slotFor d).symm.trans hslot, ?_⟩
  have hpush : s.reassert d requested =
      ((s.ready d requested).note
        [.started (s.ready d requested).node.id (s.offer d requested slot)],
        some (s.offer d requested slot)) := by
    rw [ht.reassert_starts]
    change (s.ready d requested).startPush d _ _ _ = _
    rw [Site.startPush, hstart]
    rfl
  rw [hpush]
  exact answer_served (p := s.offer d requested slot) hslot ((hready.accepts_eq d).trans ha)

/-- What a controller notes that is asked for a role. -/
def pleading (s : Site) (d : DeviceId) (requested : Role) : List Notice :=
  if requested = .none then [.asked s.node.id d .request] else []

/-- Of a reassertion nothing is left to be done but to ask once more, in vain, and to push. -/
structure Fulfilled (d : DeviceId) (requested : Role) (s : Site) : Prop where
  truthful : s.Truthful
  asked : s.asked d requested = s.note (s.pleading d requested)
  heard : ∀ t, s.term? d = some t → (s.node.clock.setTerm d t).1 = s.node.clock
  noted : ∀ t, s.term? d = some t → s.node.roles.observe d t.epoch = (s.node.roles, true)
  online : s.target d requested = .master →
    ∀ device, s.node.replica.device? d = some device → device.available = true
  recorded : s.node.roles.record d (s.target d requested) ((s.term? d).map Term.epoch) =
    (s.node.roles, false)

theorem Fulfilled.informed (h : s.Fulfilled d requested) :
    s.informed d requested = s.note (s.pleading d requested) := by
  have hterm : (s.note (s.pleading d requested)).term? d = s.term? d := rfl
  have hheard : ((s.note (s.pleading d requested)).observeTerm d).1 =
      s.note (s.pleading d requested) := by
    unfold observeTerm
    rw [hterm]
    cases ht : s.term? d with
    | none => rfl
    | some t =>
      have hclock := h.heard t ht
      change ({ s with node := { s.node with clock := (s.node.clock.setTerm d t).1 } }.note _) = _
      rw [hclock]
  simp only [Site.informed, h.asked, hheard, hterm]
  cases ht : s.term? d with
  | none => rfl
  | some t =>
    change (s.note _).setRoles (s.node.roles.observe d t.epoch).1 = _
    rw [h.noted t ht]
    rfl

theorem Fulfilled.ready (h : s.Fulfilled d requested) :
    s.ready d requested = s.note (s.pleading d requested) := by
  have htarget : (s.note (s.pleading d requested)).target d requested = s.target d requested := rfl
  simp only [Site.ready, h.informed, htarget]
  split
  · next hm => exact markOnline_of_available (h.online hm)
  · rfl

theorem Fulfilled.offer (h : s.Fulfilled d requested) (slot : Nat) :
    s.offer d requested slot =
      ⟨slot, d, s.target d requested, (s.term? d).map Term.epoch, .settle⟩ := by
  simp only [Site.offer, h.informed]
  rfl

/-- Then a reassertion comes to the push alone. -/
theorem Fulfilled.reassert (h : s.Fulfilled d requested) (ha : s.accepts d = true) :
    ∃ slot, s.node.south.slotFor d = some slot ∧
      answerNow (s.reassert d requested) =
        (s.note (s.pleading d requested)).served (s.offer d requested slot) := by
  obtain ⟨slot, hslot, he⟩ := h.truthful.reassert_carried ha requested
  refine ⟨slot, hslot, ?_⟩
  rw [he, h.ready, h.offer]
  exact settle_recorded h.recorded

/-- What is left of a reassertion that was carried out. -/
structure Carried (d : DeviceId) (requested : Role) (s s' : Site) : Prop where
  truthful : s'.Truthful
  id : s'.node.id = s.node.id
  request : s'.node.faults.request = s.node.faults.request
  election : s'.election = (s.asked d requested).election
  clock : ∀ t, s'.term? d = some t → ∃ c : Clock, s'.node.clock = (c.setTerm d t).1
  entry : ∃ e, s'.node.roles.entries.get? d = some ⟨s'.target d requested, e⟩ ∧
    ∀ t, s'.term? d = some t → e = t.epoch
  online : s'.target d requested = .master →
    ∀ device, s'.node.replica.device? d = some device → device.available = true

theorem informed_clock (s : Site) (d : DeviceId) (requested : Role) {t : Term}
    (h : (s.informed d requested).term? d = some t) :
    ∃ c : Clock, (s.informed d requested).node.clock = (c.setTerm d t).1 := by
  rw [informed_term?] at h
  refine ⟨(s.asked d requested).node.clock, ?_⟩
  simp only [Site.informed, observeTerm, h]
  rfl

theorem ready_clock (s : Site) (d : DeviceId) (requested : Role) :
    (s.ready d requested).node.clock = (s.informed d requested).node.clock := by
  simp only [ready]
  split
  · exact markOnline_clock _ d
  · rfl

theorem ready_roles (s : Site) (d : DeviceId) (requested : Role) :
    (s.ready d requested).node.roles = (s.informed d requested).node.roles := by
  simp only [ready]
  split
  · exact markOnline_roles _ d
  · rfl

/-- A device that is about to become MASTER is available, if it is stored. -/
theorem ready_online (hm : (s.informed d requested).target d requested = .master) {device : Device}
    (h : (s.ready d requested).node.replica.device? d = some device) : device.available = true := by
  have hready : s.ready d requested = (s.informed d requested).markOnline d := by
    rw [ready]
    exact if_pos hm
  rw [hready] at h
  exact markOnline_available _ d h

theorem informed_election (s : Site) (d : DeviceId) (requested : Role) :
    (s.informed d requested).election = (s.asked d requested).election :=
  ((observeEpoch_does _ d ((s.asked d requested).term? d)).after
    (observeTerm_does (s.asked d requested) d)).election

/-- The epoch of the term that a controller has been told is not older than any that it has seen. -/
theorem Truthful.ready_record (ht : s.Truthful) (d : DeviceId) (requested role : Role) :
    ((s.ready d requested).node.roles.record d role
        (((s.informed d requested).term? d).map Term.epoch)).1.entries.get? d =
      some ⟨role, (((s.informed d requested).term? d).map Term.epoch).getD
        ((s.informed d requested).node.roles.entry d).epoch⟩ := by
  have hinformed := ht.informed d requested
  rw [ready_roles]
  refine RoleTable.get?_record role fun k hk => ?_
  obtain ⟨t, hterm, rfl⟩ := Option.map_eq_some_iff.mp hk
  rw [hinformed.term?_eq] at hterm
  rw [term?_epoch hterm]
  exact hinformed.seen d

theorem Truthful.reassert_carries (ht : s.Truthful) (ha : s.accepts d = true) (requested : Role) :
    Carried d requested s (answerNow (s.reassert d requested)) ∧
      (answerNow (s.reassert d requested)).target d requested =
        (s.informed d requested).target d requested := by
  obtain ⟨slot, hslot, he⟩ := ht.reassert_carried ha requested
  have htruthful := (ht.reassert_applies (accepts_line ha) requested).1.truthful
  have hinformed := ht.informed d requested
  have hdoes := s.informed_does d requested
  have hmark := markIf_does (s.informed d requested) d ((s.informed d requested).target d requested)
  generalize answerNow (s.reassert d requested) = s' at he htruthful ⊢
  have hnode := congrArg Site.node he
  rw [settle_ok_node] at hnode
  have hid : s'.node.id = (s.informed d requested).node.id := by
    rw [hnode]
    exact hmark.id
  have helection : s'.election = (s.informed d requested).election := by
    rw [he, settle_ok_election]
    exact hmark.election
  have hterm : s'.term? d = (s.informed d requested).term? d := by
    rw [htruthful.term?_eq, hinformed.term?_eq, helection]
  have htarget : s'.target d requested = (s.informed d requested).target d requested := by
    simp only [target, hterm, owns, hid]
  have hrecord := ht.ready_record d requested ((s.informed d requested).target d requested)
  refine ⟨⟨htruthful, hid.trans hdoes.id, ?_, helection.trans (informed_election s d requested),
    fun t h => ?_, ?_, fun hm device hdevice => ?_⟩, htarget⟩
  · rw [hnode]
    exact hmark.request.trans hdoes.request
  · obtain ⟨c, hc⟩ := s.informed_clock d requested (hterm.symm.trans h)
    refine ⟨c, ?_⟩
    rw [← hc, ← ready_clock, hnode]
    rfl
  · rw [htarget]
    refine ⟨_, (congrArg (·.roles.entries.get? d) hnode).trans hrecord, fun t h => ?_⟩
    rw [← hterm, h]
    rfl
  · rw [hnode] at hdevice
    exact ready_online (htarget.symm.trans hm) hdevice

/-- Asking once more is in vain. -/
theorem Carried.asked {s' : Site} (h : Carried d requested s s') :
    s'.asked d requested = s'.note (s'.pleading d requested) := by
  unfold Site.asked pleading
  split
  · next hr =>
    simp only [Site.request]
    split
    · rfl
    · next hf =>
      have helection : s'.election = (s.election.request s.node.id d).1 := by
        rw [note_node, h.request] at hf
        rw [h.election, Site.asked, if_pos hr, Site.request, note_node, if_neg hf]
        rfl
      have hagain : s'.election.request s'.node.id d = (s'.election, []) := by
        rw [helection, h.id]
        exact Election.request_again _ _ _
      change (s'.note _).moveElection (s'.election.request s'.node.id d) = _
      rw [hagain]
      simp [moveElection, note]
  · simp [note]

/-- Once the device has accepted the role that is due, nothing is left to be done. -/
theorem Carried.fulfilled {s' : Site} (h : Carried d requested s s') : Fulfilled d requested s' := by
  obtain ⟨e, hentry, hepoch⟩ := h.entry
  refine ⟨h.truthful, h.asked, fun t ht => ?_, fun t ht => ?_, h.online, ?_⟩
  · obtain ⟨c, hc⟩ := h.clock t ht
    rw [hc, Clock.setTerm_again]
  · obtain rfl := hepoch t ht
    exact RoleTable.observe_again hentry
  · refine RoleTable.record_again hentry fun k hk => ?_
    obtain ⟨t, ht, rfl⟩ := Option.map_eq_some_iff.mp hk
    exact hepoch t ht

theorem ready_calls (s : Site) (d : DeviceId) (requested : Role) :
    Calls s (s.ready d requested) [] := by
  simp only [ready]
  split
  · exact (s.informed_calls d requested).then (markOnline_calls _ d)
  · exact s.informed_calls d requested

theorem served_calls (s : Site) (p : Push) :
    Calls s (s.served p) ((Provider.callsFor p.device p.role).map (s.node.id, p.slot, ·)) :=
  ⟨_, rfl, calls_called s.node.id p.slot _⟩

/-- A device that accepts the role that is due is called for it once. -/
theorem Truthful.reassert_serves (ht : s.Truthful) (ha : s.accepts d = true) (requested : Role) :
    ∃ slot, s.node.south.slotFor d = some slot ∧
      Calls s (answerNow (s.reassert d requested))
        ((Provider.callsFor d ((s.informed d requested).target d requested)).map
          (s.node.id, slot, ·)) := by
  obtain ⟨slot, hslot, he⟩ := ht.reassert_carried ha requested
  have hcalls := ((s.ready_calls d requested).trans
    ((s.ready d requested).served_calls (s.offer d requested slot))).then
      (settle_calls _ d (s.offer d requested slot).role (s.offer d requested slot).epoch (.ok ()))
  rw [← he, (s.ready_does d requested).id, List.nil_append] at hcalls
  exact ⟨slot, hslot, hcalls⟩

end Site

/-- A member reasserts a role for a device that answers at once. -/
def Cluster.reassert (c : Cluster) (n : NodeId) (d : DeviceId) (requested : Role) : Cluster :=
  c.modify n fun s => Site.answerNow (s.reassert d requested)

/-- Reasserting is idempotent. Let a member reassert a role, whatever it is, for a device that accepts
roles, in any cluster that may come about while the members are told the election's own terms. To do
the same once more leaves the election, the other members and all that the member knows as they are:
its roles, its clock and its replica too. Nothing is announced and nothing posted. The provider is
called for just what it was called for the first time: the same role, MASTER if the member owns the
device and is not asked for STANDBY and else STANDBY, with a probe if it is MASTER. -/
theorem World.reassert_idempotent {w : World} (hw : w.Reachable) {n : NodeId} {s : Site}
    {d : DeviceId} (hs : w.cluster.site? n = some s) (ha : s.accepts d = true) (requested : Role) :
    let once := w.cluster.reassert n d requested
    let twice := once.reassert n d requested
    ∃ node role slot first second,
      once.nodes.get? n = some node ∧
      once.journal = w.cluster.journal ++ first ∧
      role = Site.targetRole requested (decide (once.election.master? d = some n)) ∧
      calls first = (Provider.callsFor d role).map (n, slot, ·) ∧
      twice.election = once.election ∧
      twice.nodes = once.nodes.insert n
        { node with south := (node.south.finish slot d role).1 } ∧
      twice.journal = once.journal ++ second ∧
      announced second = [] ∧ posts second = [] ∧ calls second = calls first := by
  have ht := hw.lawful.truthful n s hs
  have hid := hw.lawful.id n s hs
  obtain ⟨slot, hslot, first, hj, hfirst⟩ := ht.reassert_serves ha requested
  obtain ⟨hcarried, htarget⟩ := ht.reassert_carries ha requested
  obtain ⟨⟨⟨p, hdoes⟩, _, _, _⟩, _⟩ := ht.reassert_applies (Site.accepts_line ha) requested
  obtain ⟨slot', hslot', hagain⟩ := hcarried.fulfilled.reassert ((hdoes.accepts_eq d).trans ha)
  obtain rfl : slot' = slot := by
    rw [hdoes.south.slotFor, hslot] at hslot'
    exact (Option.some.inj hslot').symm
  have honce : w.cluster.reassert n d requested =
      w.cluster.setSite n (Site.answerNow (s.reassert d requested)) :=
    Cluster.modify_of_site hs _
  generalize Site.answerNow (s.reassert d requested) = s₁ at *
  have hs₁ : (w.cluster.setSite n s₁).site? n = some s₁ := Cluster.site?_setSite_self _ _ _
  have htwice : (w.cluster.setSite n s₁).reassert n d requested =
      (w.cluster.setSite n s₁).setSite n
        ((s₁.note (s₁.pleading d requested)).served (s₁.offer d requested slot')) := by
    rw [Cluster.reassert, Cluster.modify_of_site hs₁, hagain]
  have hplea : calls (s₁.pleading d requested) = [] ∧ announced (s₁.pleading d requested) = [] ∧
      posts (s₁.pleading d requested) = [] := by
    unfold Site.pleading
    split <;> exact ⟨rfl, rfl, rfl⟩
  have hrole := hcarried.truthful.target_eq d requested
  rw [hcarried.id, hid] at hrole
  intro once twice
  simp only [once, twice, honce, htwice, hcarried.fulfilled.offer]
  refine ⟨s₁.node, s₁.target d requested, slot', first, _, Table.get?_insert_self _ _ _, ?_, hrole,
    ?_, rfl, rfl, List.append_assoc _ _ _, ?_, ?_, ?_⟩
  · exact hj.trans (by rw [Cluster.site?_journal hs])
  · rw [hfirst, htarget, hid]
  · rw [announced_append, hplea.2.1]
    simp [announced, Rehearsal.announcement?]
  · rw [posts, List.filterMap_append, ← posts, hplea.2.2]
    simp [Notice.event?]
  · rw [calls_append, hplea.1, hfirst, ← htarget, ← hcarried.id]
    exact calls_called _ _ _

namespace Sample

/-- The device has disconnected, so that it is offline, nobody owns it and no role is known of it. -/
def partedActs : List World.Act := joins east ++ [.task east (.disconnect 0 lamp)]

def parted : World := partedActs.foldl World.step ⟨pair, []⟩

theorem parted_reachable : parted.Reachable := by
  apply (World.Reachable.fresh pair_fresh).run
  rw [partedActs, List.forall_mem_append]
  exact ⟨joins_honest east, by simp [World.Act.Honest]⟩

theorem parted_site : ∃ s, parted.cluster.site? east = some s ∧ s.accepts lamp = true ∧
    s.electedRole lamp = .none ∧ s.node.replica.isAvailable lamp = false := by
  have h : (parted.cluster.site? east).any (fun s => s.accepts lamp &&
      s.electedRole lamp == .none && !s.node.replica.isAvailable lamp) = true := by
    decide +kernel
  simpa [Option.any_eq_true, and_assoc] using h

/-- To reassert its role makes the member the owner. -/
theorem parted_retaken :
    (parted.cluster.reassert east lamp .none).election.master? lamp = some east := by
  decide +kernel

end Sample

/-- Who comes to own a device again, and is asked for its role once more, pushes MASTER and probes the
device once more, and does nothing else. -/
theorem World.retaken_idempotent :
    ((Sample.parted.cluster.reassert Sample.east Sample.lamp .none).reassert Sample.east
        Sample.lamp .none).election =
      (Sample.parted.cluster.reassert Sample.east Sample.lamp .none).election ∧
    ∃ slot ns,
      ((Sample.parted.cluster.reassert Sample.east Sample.lamp .none).reassert Sample.east
          Sample.lamp .none).journal =
        (Sample.parted.cluster.reassert Sample.east Sample.lamp .none).journal ++ ns ∧
      announced ns = [] ∧ posts ns = [] ∧
      calls ns = [(Sample.east, slot, .role Sample.lamp .master),
        (Sample.east, slot, .probe Sample.lamp)] := by
  obtain ⟨s, hs, ha, _⟩ := Sample.parted_site
  obtain ⟨node, role, slot, first, second, _, _, hrole, hfirst, helection, _, hj, hannounced, hposts,
    hcalls⟩ := reassert_idempotent Sample.parted_reachable hs ha .none
  rw [Sample.parted_retaken] at hrole
  obtain rfl : role = .master := hrole
  exact ⟨helection, slot, second, hj, hannounced, hposts, hcalls.trans hfirst⟩

end Mastership
