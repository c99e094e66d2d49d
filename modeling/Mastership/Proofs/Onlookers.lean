import Mastership.Proofs.Concerns
import Mastership.Proofs.Courses
import Mastership.Proofs.LastConnection

namespace Mastership

/-- The event is not about ports, nor does it say that the device went away. -/
structure DeviceEvent.Plain (e : DeviceEvent) : Prop where
  added : e.kind ≠ .portAdded
  updated : e.kind ≠ .portUpdated
  removed : e.kind ≠ .portRemoved
  online : e.isOffline = false

theorem DeviceEvent.ofDevice_plain {kind : Kind} {device : Device}
    (hk : kind ≠ .portAdded ∧ kind ≠ .portUpdated ∧ kind ≠ .portRemoved)
    (ha : kind = .availabilityChanged → device.available = true) : (ofDevice kind device).Plain := by
  obtain ⟨hadded, hupdated, hremoved⟩ := hk
  refine ⟨hadded, hupdated, hremoved, ?_⟩
  simp only [isOffline, ofDevice, Bool.and_eq_false_imp, beq_iff_eq, Bool.not_eq_false']
  exact ha

theorem DeviceEvent.ofRole_plain (device : Device) (role : Role) : (ofRole device role).Plain := by
  constructor <;> simp [ofRole, isOffline]

namespace Replica

theorem put_plain (r : Replica) (provider : ProviderId) (d : DeviceId)
    (description : DeviceDescription) : ∀ e ∈ (r.put provider d description).2.toList, e.Plain := by
  intro e he
  simp only [put] at he
  split at he
  · rw [List.mem_singleton.mp he]
    exact DeviceEvent.ofDevice_plain (by decide) fun _ => rfl
  · dsimp only at he
    split at he
    · rw [List.mem_singleton.mp he]
      exact DeviceEvent.ofDevice_plain (by decide) fun _ => rfl
    · split at he
      · cases he
      · rw [List.mem_singleton.mp he]
        exact DeviceEvent.ofDevice_plain (by decide) fun _ => rfl

/-- A device that is stored anew has the ports that it had. -/
theorem put_record {r : Replica} {d : DeviceId} {provider : ProviderId}
    {description : DeviceDescription} {rec : Record}
    (h : (r.put provider d description).1.records.get? d = some rec) :
    rec.device.available = true ∧
      (rec.ports = ∅ ∨ ∃ old, r.records.get? d = some old ∧ rec.ports = old.ports) := by
  simp only [put] at h
  split at h
  · simp only [Table.get?_insert_self, Option.some.injEq] at h
    exact ⟨h ▸ rfl, .inl (h ▸ rfl)⟩
  · next old hold =>
    simp only [Table.get?_insert_self, Option.some.injEq] at h
    exact ⟨h ▸ rfl, .inr ⟨old, hold, h ▸ rfl⟩⟩

/-- There is nothing to be taken down of a device without ports. -/
theorem disablePorts_of_none {r : Replica} {d : DeviceId}
    (h : ∀ rec, r.records.get? d = some rec → rec.ports = ∅) :
    (r.setPorts d ((r.ports d).map Port.disabled)).1 = r := by
  cases hrec : r.records.get? d with
  | none => simp [setPorts, hrec]
  | some rec =>
    have hnone := h rec hrec
    have hports : r.ports d = [] := by
      simp only [ports, hrec, hnone]
      rfl
    have hsame : (rec.setPorts []).1 = rec := by
      have hkeys : rec.ports.keys = [] := by
        rw [hnone]
        rfl
      simp [Record.setPorts, Record.setEach, hkeys, Record.removeEach]
    rw [hports, List.map_nil]
    simp only [setPorts, hrec, hsame, Table.insert_eq_self hrec]

end Replica

namespace Site

variable {d : DeviceId} {s s' s'' : Site} {ts : List Term}

/-- The controller has heard of no term of the device that names it as owner, and accordingly has the
device without ports and available, if it has it: ports count and devices go offline only for a member
whose clock names it as owner. -/
structure Onlooks (d : DeviceId) (s : Site) : Prop where
  own : s.node.clock.node = s.node.id
  clock : ∀ t, s.node.clock.term? d = some t → t.owner ≠ s.node.id
  ports : ∀ rec, s.node.replica.records.get? d = some rec → rec.ports = ∅
  available : ∀ rec, s.node.replica.records.get? d = some rec → rec.device.available = true

/-- The controller goes on to look on, and posts accordingly. -/
structure OnlooksOn (d : DeviceId) (s s' : Site) : Prop where
  id : s'.node.id = s.node.id
  after : Onlooks d s'
  told : ∃ ns, s'.journal = s.journal ++ ns ∧ ∀ x ∈ posts ns, x.2.Plain

namespace Onlooks

theorem not_available (h : Onlooks d s) : s.node.clock.available d = false := by
  simp only [Clock.available]
  cases he : s.node.clock.entries.get? d with
  | none => rfl
  | some e => simpa [h.own] using h.clock e.term (by simp [Clock.term?, he])

theorem next_eq_none (h : Onlooks d s) : (s.node.clock.next d).2 = none := by
  rw [← Option.not_isSome_iff_eq_none, Clock.next_isSome_iff]
  rintro ⟨t, ht, howner⟩
  exact h.clock t ht (howner.trans h.own)

theorem of_unmoved (h : Onlooks d s) (hu : s.Unmoved d s') : Onlooks d s' where
  own := by rw [hu.stamper, hu.id, h.own]
  clock t ht := by
    rw [Clock.term?, hu.clock] at ht
    rw [hu.id]
    exact h.clock t ht
  ports rec hrec := h.ports rec (hu.record ▸ hrec)
  available rec hrec := h.available rec (hu.record ▸ hrec)

/-- If neither the clock nor the replica is touched, it takes plain events to go on. -/
theorem on_of_same (h : Onlooks d s) (hid : s'.node.id = s.node.id)
    (hc : s'.node.clock = s.node.clock) (hr : s'.node.replica = s.node.replica)
    {ns : List Notice} (hj : s'.journal = s.journal ++ ns) (hp : ∀ x ∈ posts ns, x.2.Plain) :
    OnlooksOn d s s' :=
  ⟨hid, ⟨by rw [hc, hid, h.own], by rw [hc, hid]; exact h.clock, by rw [hr]; exact h.ports,
    by rw [hr]; exact h.available⟩, ns, hj, hp⟩

/-- What a controller is told does not make it the owner unless it says so. -/
theorem hear (h : Onlooks d s) {t : Term} (ht : s.term? d = some t) (ho : t.owner ≠ s.node.id) :
    OnlooksOn d s (s.observeTerm d).1 := by
  have he : (s.observeTerm d).1 =
      { s with node := { s.node with clock := (s.node.clock.setTerm d t).1 } } := by
    simp only [observeTerm, ht]
  rw [he]
  refine ⟨rfl, ⟨(Clock.node_setTerm _ d t).trans h.own, ?_, h.ports, h.available⟩, [],
    (List.append_nil _).symm, by simp [posts]⟩
  intro u hu
  rcases Clock.term?_setTerm_cases _ d hu with hu | ⟨_, rfl⟩
  · exact h.clock u hu
  · exact ho

theorem store (h : Onlooks d s) (provider : ProviderId) (description : DeviceDescription) :
    OnlooksOn d s (s.store provider d description) := by
  obtain ⟨ns, hj, _, hposts⟩ := postAll_emits
    (s.setReplica (s.node.replica.put provider d description).1)
    (s.node.replica.put provider d description).2.toList
  refine ⟨rfl, ⟨h.own, h.clock, fun rec hrec => ?_, fun rec hrec => ?_⟩, ns, hj, fun x hx => ?_⟩
  · obtain ⟨_, hnone | ⟨old, hold, hsame⟩⟩ := Replica.put_record hrec
    · exact hnone
    · exact hsame.trans (h.ports old hold)
  · exact (Replica.put_record hrec).1
  · rw [hposts] at hx
    obtain ⟨e, he, rfl⟩ := List.mem_map.mp hx
    exact Replica.put_plain _ provider d description e he

theorem statistics (h : Onlooks d s) (ss : List PortStatistics) :
    OnlooksOn d s (s.statisticsReported d ss) := by
  obtain ⟨ns, hj, _, hposts⟩ := postAll_emits
    (s.setReplica (s.node.replica.setStatistics d ss).1)
    (s.node.replica.setStatistics d ss).2.toList
  have hrecord : ∀ rec, (s.node.replica.setStatistics d ss).1.records.get? d = some rec →
      ∃ old, s.node.replica.records.get? d = some old ∧ rec = old.setStatistics ss := by
    intro rec hrec
    simp only [Replica.setStatistics] at hrec
    split at hrec
    · next hnone =>
      rw [hnone] at hrec
      cases hrec
    · next old hold =>
      simp only [Table.get?_insert_self, Option.some.injEq] at hrec
      exact ⟨old, hold, hrec.symm⟩
  refine ⟨rfl, ⟨h.own, h.clock, fun rec hrec => ?_, fun rec hrec => ?_⟩, ns, hj, fun x hx => ?_⟩
  · obtain ⟨old, hold, rfl⟩ := hrecord rec hrec
    exact h.ports old hold
  · obtain ⟨old, hold, rfl⟩ := hrecord rec hrec
    exact h.available old hold
  · rw [hposts] at hx
    obtain ⟨e, he, rfl⟩ := List.mem_map.mp hx
    simp only [Replica.setStatistics] at he
    split at he
    · cases he
    · rw [List.mem_singleton.mp he]
      exact DeviceEvent.ofDevice_plain (by decide) (by simp)

theorem remove (h : Onlooks d s) : OnlooksOn d s (s.remove d) := by
  simp only [Site.remove, Replica.remove]
  cases hrec : s.node.replica.records.get? d with
  | none => exact h.on_of_same rfl rfl rfl (List.append_nil _).symm (by simp [posts])
  | some rec =>
    refine ⟨rfl, ⟨h.own, h.clock, ?_, ?_⟩, _, rfl, ?_⟩
    · simp [post, note]
    · simp [post, note]
    · intro x hx
      obtain rfl : x = (s.node.id, .ofDevice .deviceRemoved rec.device) := by
        simpa [posts, Notice.event?] using hx
      exact DeviceEvent.ofDevice_plain (by decide) (by simp)

end Onlooks

theorem OnlooksOn.trans (h : OnlooksOn d s s') (h' : OnlooksOn d s' s'') : OnlooksOn d s s'' := by
  obtain ⟨ns, hj, hp⟩ := h.told
  obtain ⟨ns', hj', hp'⟩ := h'.told
  refine ⟨h'.id.trans h.id, h'.after, ns ++ ns', by rw [hj', hj, List.append_assoc], ?_⟩
  intro x hx
  rw [posts, List.filterMap_append] at hx
  exact (List.mem_append.mp hx).elim (hp x) (hp' x)

/-- Whoever looks on goes on to do so while it is told of other owners only. -/
theorem Course.onlooks (h : Course d s ts s') (hs : Onlooks d s)
    (hts : ∀ t ∈ ts, t.owner ≠ s.node.id) : OnlooksOn d s s' := by
  induction h with
  | rest he hid hc hr =>
    obtain ⟨ns, hj, _, hposts⟩ := he
    exact hs.on_of_same hid hc hr hj (by simp [hposts])
  | hear ht => exact hs.hear ht (hts _ (by simp))
  | tell s role =>
    obtain ⟨ns, hj, _, hposts⟩ := postRole_emits_role s d role
    have hn := postRole_node s d role
    refine hs.on_of_same (by rw [hn]) (by rw [hn]) (by rw [hn]) hj fun x hx => ?_
    rw [hposts] at hx
    obtain ⟨e, he, rfl⟩ := List.mem_map.mp hx
    obtain ⟨device, _, rfl⟩ := List.mem_map.mp he
    exact DeviceEvent.ofRole_plain device role
  | store s provider description => exact hs.store provider description
  | ports ps ha =>
    rw [hs.not_available] at ha
    cases ha
  | port p ha =>
    rw [hs.not_available] at ha
    cases ha
  | statistics s ss => exact hs.statistics ss
  | remove s => exact hs.remove
  | trans _ _ ih ih' =>
    have hfirst := ih hs fun t ht => hts t (List.mem_append_left _ ht)
    refine hfirst.trans (ih' hfirst.after fun t ht => ?_)
    rw [hfirst.id]
    exact hts t (List.mem_append_right _ ht)

theorem facing_course (s : Site) (d : DeviceId) (faults : List (Option OfflineFault)) :
    Course d s [] (s.facing faults) :=
  .rest (emits_nothing rfl) rfl rfl rfl

/-- Who looks on cannot mark the device offline, whatever fault meets the attempt. -/
theorem Onlooks.markOffline (h : Onlooks d s) :
    (s.markOffline d).1 = s.facing s.node.faults.offline.tail ∧ (s.markOffline d).2.event? = none := by
  cases hf : s.node.faults.offline.head?.join with
  | some fault =>
    obtain ⟨m, hm, hstrikes⟩ := markOffline_strikes fault d
    rw [hstrikes s hf]
    refine ⟨rfl, ?_⟩
    cases m with
    | marked event => exact absurd rfl (hm event)
    | refused e => rfl
    | crashed => rfl
  | none =>
    have hwrite : (s.node.replica.markOffline s.node.clock d).1 = s.node.replica ∧
        (s.node.replica.markOffline s.node.clock d).2.1 = s.node.clock := by
      have hn := h.next_eq_none
      unfold Replica.markOffline
      split
      · exact ⟨rfl, rfl⟩
      · split
        · exact ⟨rfl, rfl⟩
        · next hnext =>
          rw [hnext] at hn
          cases hn
    rw [markOffline_unstruck hf, hwrite.1, hwrite.2]
    refine ⟨rfl, ?_⟩
    rw [Replica.markOffline_result]
    split
    · rfl
    · next hstored =>
      have hnone : s.node.replica.device? d = none := by
        simpa [h.next_eq_none] using hstored
      simp [Marking.of, Marking.event?, Replica.offlineEvent?, hnone]

/-- For who looks on, marking a device offline comes to asking for it and hearing its term. -/
theorem Onlooks.markDisconnected (h : Onlooks d s)
    (hts : (s.tried d).2.isStale = true →
      ∀ t, ((s.tried d).1.request d).term? d = some t → t.owner ≠ s.node.id) :
    Course d s (if (s.tried d).2.isStale then (((s.tried d).1.request d).term? d).toList else [])
        (s.markDisconnected d).1 ∧ (s.markDisconnected d).2.event? = none := by
  have hports : s.disablePorts d = s := by
    simp only [disablePorts, Replica.disablePorts_of_none h.ports]
    rfl
  obtain ⟨hsite, hevent⟩ := h.markOffline
  have htried : s.tried d = s.markOffline d := by rw [tried, hports]
  have hfirst : Course d s [] (s.tried d).1 := by
    rw [htried, hsite]
    exact facing_course s d _
  have hid : (s.tried d).1.node.id = s.node.id := (tried_does s d).id
  have hsecond : Course d s (((s.tried d).1.request d).term? d).toList
      ((s.tried d).1.reconsidered d) :=
    (observeTerm_course _ d).after (hfirst.then (request_course _ d))
  have ht := markDisconnected_tries s d
  generalize s.attempts d = sites, s.markDisconnected d = r at ht ⊢
  cases ht with
  | once hs =>
    rw [if_neg (by simp [hs])]
    exact ⟨hfirst, htried ▸ hevent⟩
  | yields he hs _ =>
    rw [if_pos hs, he]
    exact ⟨hsecond, rfl⟩
  | @again s₁ he hs ho =>
    -- A controller that reads that it is the owner has been told so.
    rw [he, reconsidered, (observeTerm_does _ d).term?_eq, owns, Option.any_eq_true] at ho
    obtain ⟨t, hterm, howner⟩ := ho
    have hother := hts hs t hterm
    rw [beq_iff_eq.mp howner, (observeTerm_does _ d).id, request_node, hid] at hother
    exact absurd rfl hother

theorem Onlooks.disconnect (h : Onlooks d s) (slot : Nat)
    (hts : ∀ t ∈ s.reads (.disconnect slot d), t.owner ≠ s.node.id) :
    Course d s (s.reads (.disconnect slot d)) (s.disconnect slot d).1 := by
  simp only [Site.disconnect, reads] at hts ⊢
  cases hr : s.refusal? slot with
  | some e => exact .refl d s
  | none =>
    simp only [hr, true_and] at hts ⊢
    obtain ⟨hmark, hevent⟩ := h.markDisconnected fun hs t ht => hts t (by simp [hs, ht])
    rw [disconnected_eq, hevent]
    have hrelease := (relinquish_course (s.markDisconnected d).1 d).then
      (setRoles_course _ d (((s.markDisconnected d).1.relinquish d).node.roles.forget d))
    exact (hmark.then hrelease).then (.of_node (postAll_emits _ []) rfl)

/-- All tasks take a course at who looks on, disconnections too. -/
theorem Onlooks.run {t : Task} (h : Onlooks t.device s)
    (hts : ∀ x ∈ s.reads t, x.owner ≠ s.node.id) : OnlooksOn t.device s (s.run t).1 := by
  by_cases ht : ∃ slot d, t = .disconnect slot d
  · obtain ⟨slot, d, rfl⟩ := ht
    exact (h.disconnect slot hts).onlooks h hts
  · exact (run_course s fun slot d he => ht ⟨slot, d, he⟩).onlooks h hts

end Site

namespace World

variable {n : NodeId} {d : DeviceId} {w : World} {a : Act}

/-- The terms of a device that a member is told in an act, in this order. -/
def termsTold (w : World) (n : NodeId) (d : DeviceId) : Act → List Term
  | .task m t =>
    if m = n ∧ t.device = d then ((w.cluster.site? n).map (·.reads t)).getD [] else []
  | _ => []

/-- All terms of a device that a member is told while the acts are done, in this order. -/
def readings (n : NodeId) (d : DeviceId) : World → List Act → List Term :=
  gather fun w => w.termsTold n d

/-- The member looks on at the device, and has posted accordingly. -/
structure Looking (n : NodeId) (d : DeviceId) (w : World) : Prop where
  kept : w.Kept
  site : ∀ s, w.cluster.site? n = some s → s.Onlooks d
  events : ∀ e ∈ eventsOf n d w.cluster.journal, e.Plain

theorem looking_of_fresh {c : Cluster} (h : c.Fresh) (n : NodeId) (d : DeviceId) :
    Looking n d ⟨c, []⟩ := by
  refine ⟨kept_of_fresh h, fun s hs => ?_, by simp [h.journal, mem_eventsOf]⟩
  obtain ⟨node, hn, rfl⟩ := Option.map_eq_some_iff.mp hs
  have hf := h.nodes n node hn
  refine ⟨?_, ?_, ?_, ?_⟩ <;> simp [hf.id, hf.clock, hf.replica, Clock.term?]

theorem Looking.setSite (h : w.Looking n d) {s s' : Site} {pending : List (NodeId × Push)}
    (hs : w.cluster.site? n = some s) (hon : s.OnlooksOn d s')
    (hkept : Kept ⟨w.cluster.setSite n s', pending⟩) :
    Looking n d ⟨w.cluster.setSite n s', pending⟩ := by
  refine ⟨hkept, fun x hx => ?_, fun e he => ?_⟩
  · rw [Cluster.site?_setSite_self] at hx
    exact Option.some.inj hx ▸ hon.after
  · obtain ⟨ns, hj, hplain⟩ := hon.told
    change e ∈ eventsOf n d s'.journal at he
    rw [hj, eventsOf_append, List.mem_append, Cluster.site?_journal hs] at he
    rcases he with he | he
    · exact h.events e he
    · exact hplain (n, e) (mem_posts.mpr (mem_eventsOf.mp he).1)

theorem Looking.step (h : w.Looking n d) (ha : ∀ t ∈ w.termsTold n d a, t.owner ≠ n) :
    (w.step a).Looking n d := by
  have hkept := h.kept.step a
  by_cases hc : w.Concerns n d a
  · have hstep := hc.step
    generalize w.step a = w' at hstep hkept ⊢
    cases hstep with
    | absent => exact ⟨hkept, h.site, h.events⟩
    | @task s t hs hd =>
      subst hd
      refine h.setSite hs ((h.site s hs).run fun x hx => ?_) hkept
      rw [h.kept.id n s hs]
      exact ha x (by simpa [termsTold, hs] using hx)
    | @answer s i p hs hi hd =>
      subst hd
      exact h.setSite hs ((Site.answer_course s p).onlooks (h.site s hs) (by simp)) hkept
  · obtain ⟨hsite, hevents, _⟩ := h.kept.step_spares hc
    refine ⟨hkept, fun s' hs' => ?_, hevents ▸ h.events⟩
    obtain ⟨s, hs, hu⟩ := hsite s' hs'
    exact (h.site s hs).of_unmoved hu

theorem Looking.run (h : w.Looking n d) {as : List Act}
    (ha : ∀ t ∈ readings n d w as, t.owner ≠ n) : (as.foldl World.step w).Looking n d := by
  induction as generalizing w with
  | nil => exact h
  | cons a as ih =>
    refine ih (h.step fun t ht => ha t ?_) fun t ht => ha t ?_
    · exact List.mem_append_left _ ht
    · exact List.mem_append_right _ ht

/-- To who looks on, a report of ports is nothing. -/
theorem Looking.ignores (h : w.Looking n d) {t : Site.Task}
    (ht : (∃ slot ps, t = .setPorts slot d ps) ∨ ∃ slot p, t = .setPort slot d p) :
    w.step (.task n t) = w := by
  cases hs : w.cluster.site? n with
  | none => exact step_task_of_none hs t
  | some s =>
    have ha := (h.site s hs).not_available
    have hrun : s.run t = (s, none) := by
      obtain ⟨slot, ps, rfl⟩ | ⟨slot, p, rfl⟩ := ht
      · simp only [Site.run, Site.setPorts, Site.guarded]
        split
        · rfl
        · simp [Site.portsReported, ha]
      · simp only [Site.run, Site.setPort, Site.guarded]
        split
        · rfl
        · simp [Site.portReported, ha]
    rw [step_task hs, hrun, Cluster.setSite_site hs]
    simp

/-- Whoever never owned a device is silent about it. Whatever goes on in a cluster, dishonest answers
and faults included: if none of the terms of a device that a member has read names it as owner, then
the member holds no ports of the device, has posted no event about its ports and none that it went
offline, has never had it stored as unavailable, and does nothing when ports of it are reported. -/
theorem silent_unless_owner {c : Cluster} (hc : c.Fresh) {n : NodeId} {d : DeviceId} {as : List Act}
    (h : ∀ t ∈ readings n d ⟨c, []⟩ as, t.owner ≠ n) (hw : w = as.foldl World.step ⟨c, []⟩) :
    (∀ s, w.cluster.site? n = some s → s.node.replica.ports d = []) ∧
      (∀ e ∈ eventsOf n d w.cluster.journal,
        e.kind ≠ .portAdded ∧ e.kind ≠ .portUpdated ∧ e.kind ≠ .portRemoved ∧
          e.isOffline = false) ∧
      (∀ before after, as = before ++ after →
        ∀ s, (before.foldl World.step ⟨c, []⟩).cluster.site? n = some s →
          s.stored d = true → s.node.replica.isAvailable d = true) ∧
      (∀ slot ps, w.step (.task n (.setPorts slot d ps)) = w) ∧
      ∀ slot p, w.step (.task n (.setPort slot d p)) = w := by
  have hlooks : w.Looking n d := hw ▸ (looking_of_fresh hc n d).run h
  refine ⟨fun s hs => ?_, fun e he => ?_, ?_, fun slot ps => hlooks.ignores (.inl ⟨slot, ps, rfl⟩),
    fun slot p => hlooks.ignores (.inr ⟨slot, p, rfl⟩)⟩
  · have hports := (hlooks.site s hs).ports
    rw [Replica.ports]
    split
    · rfl
    · next rec hrec => rw [hports rec hrec]; rfl
  · have hplain := hlooks.events e he
    exact ⟨hplain.added, hplain.updated, hplain.removed, hplain.online⟩
  · rintro before after rfl s hs hstored
    have hbefore : ∀ t ∈ readings n d ⟨c, []⟩ before, t.owner ≠ n := by
      rw [readings, gather_append] at h
      exact fun t ht => h t (List.mem_append_left _ ht)
    have hlooks := (looking_of_fresh hc n d).run hbefore
    obtain ⟨rec, hrec⟩ : ∃ rec, s.node.replica.records.get? d = some rec := by
      simpa [Site.stored, Replica.device?, Option.isSome_iff_exists] using hstored
    have havailable := (hlooks.site s hs).available rec hrec
    simp [Replica.isAvailable, Replica.device?, hrec, havailable]

end World

namespace Sample

/-- The device belongs to the first member. The second one hears of a port of it, and loses it. -/
def standbyActs : List World.Act :=
  joins east ++ joins west ++
    [.task west (.setPorts 0 lamp [default]), .task west (.disconnect 0 lamp)]

def standby : World := standbyActs.foldl World.step ⟨pair, []⟩

/-- Both when it connects the device and when the device disconnects, the member reads that the other
one owns it. -/
theorem standby_readings :
    World.readings west lamp ⟨pair, []⟩ standbyActs = [⟨east, 1⟩, ⟨east, 1⟩] := by
  decide +kernel

theorem standby_never_owns :
    ∀ t ∈ World.readings west lamp ⟨pair, []⟩ standbyActs, t.owner ≠ west := by
  rw [standby_readings]
  simp [east, west]

theorem standby_stored :
    ∃ s, standby.cluster.site? west = some s ∧ s.stored lamp = true := by
  have h : (standby.cluster.site? west).any (·.stored lamp) = true := by decide +kernel
  simpa [Option.any_eq_true] using h

end Sample

/-- The member that waits has the device available and without ports after the device is gone, and
has told nobody that it is gone. -/
theorem World.standby_silent :
    (∃ s, Sample.standby.cluster.site? Sample.west = some s ∧
        s.node.replica.ports Sample.lamp = [] ∧ s.node.replica.isAvailable Sample.lamp = true) ∧
      ∀ e ∈ eventsOf Sample.west Sample.lamp Sample.standby.cluster.journal,
        e.isOffline = false := by
  obtain ⟨s, hs, hstored⟩ := Sample.standby_stored
  obtain ⟨hports, hevents, havailable, _⟩ :=
    silent_unless_owner Sample.pair_fresh Sample.standby_never_owns (rfl : Sample.standby = _)
  exact ⟨⟨s, hs, hports s hs, havailable _ [] (List.append_nil _).symm s hs hstored⟩,
    fun e he => (hevents e he).2.2.2⟩

end Mastership
