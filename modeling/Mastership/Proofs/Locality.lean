import Mastership.Proofs.Stamps
import Mastership.Proofs.Partings

namespace Mastership

/-- The device that a notice is about. -/
def Notice.device : Notice → DeviceId
  | .announced a => a.device
  | .asked _ d _ => d
  | .started _ p => p.device
  | .called _ _ c => c.device
  | .posted _ e => e.device.id

/-- The notices about a device, oldest first. -/
def about (d : DeviceId) (ns : List Notice) : List Notice := ns.filter (·.device = d)

/-- What a provider has to do with a device: its own id, the line, and what it did so far. -/
def Provider.at (p : Provider) (d : DeviceId) : ProviderId × Option Line × List Call :=
  (p.id, p.lines.get? d, p.calls.filter (·.device = d))

/-- The same in all that concerns a device, and in all that concerns none. -/
structure Controller.Agree (d : DeviceId) (c c' : Controller) : Prop where
  id : c'.id = c.id
  audit : c'.audit = c.audit
  active : c'.active = c.active
  stamper : c'.clock.node = c.clock.node
  clock : c'.clock.entries.get? d = c.clock.entries.get? d
  record : c'.replica.records.get? d = c.replica.records.get? d
  role : c'.roles.entries.get? d = c.roles.entries.get? d
  registry : c'.south.registry = c.south.registry
  providers : ∀ slot, (c'.south.providers.get? slot).map (·.at d) =
    (c.south.providers.get? slot).map (·.at d)
  request : c'.faults.request = c.faults.request
  relinquish : c'.faults.relinquish = c.faults.relinquish
  term : c'.faults.terms.get? d = c.faults.terms.get? d
  offline : c'.faults.offline = c.faults.offline

theorem Controller.Agree.refl (d : DeviceId) (c : Controller) : c.Agree d c :=
  ⟨rfl, rfl, rfl, rfl, rfl, rfl, rfl, rfl, fun _ => rfl, rfl, rfl, rfl, rfl⟩

theorem Controller.Agree.symm {d : DeviceId} {c c' : Controller} (h : c.Agree d c') :
    c'.Agree d c :=
  ⟨h.id.symm, h.audit.symm, h.active.symm, h.stamper.symm, h.clock.symm, h.record.symm,
    h.role.symm, h.registry.symm, fun slot => (h.providers slot).symm, h.request.symm,
    h.relinquish.symm, h.term.symm, h.offline.symm⟩

theorem Controller.Agree.trans {d : DeviceId} {c c' c'' : Controller} (h : c.Agree d c')
    (h' : c'.Agree d c'') : c.Agree d c'' :=
  ⟨h'.id.trans h.id, h'.audit.trans h.audit, h'.active.trans h.active,
    h'.stamper.trans h.stamper, h'.clock.trans h.clock, h'.record.trans h.record,
    h'.role.trans h.role, h'.registry.trans h.registry,
    fun slot => (h'.providers slot).trans (h.providers slot), h'.request.trans h.request,
    h'.relinquish.trans h.relinquish, h'.term.trans h.term, h'.offline.trans h.offline⟩

@[simp] theorem about_append (d : DeviceId) (ns ns' : List Notice) :
    about d (ns ++ ns') = about d ns ++ about d ns' :=
  List.filter_append ..

theorem about_of_ne {d : DeviceId} {ns : List Notice} (h : ∀ x ∈ ns, x.device ≠ d) :
    about d ns = [] := by
  rw [about, List.filter_eq_nil_iff]
  intro x hx
  simpa using h x hx

theorem Election.seat_of_get? {e e' : Election} {d : DeviceId}
    (h : e'.seats.get? d = e.seats.get? d) : e'.seat d = e.seat d := by
  simp only [seat, h]

/-- A move about a device reads and writes the seat of the device alone, and announces nothing but
it. -/
theorem Election.move_congr {e e' : Election} {d : DeviceId} (h : e'.seats.get? d = e.seats.get? d)
    (m : Seat.Move) : (e'.move d m).1.seats.get? d = (e.move d m).1.seats.get? d ∧
      (e'.move d m).2 = (e.move d m).2 := by
  simp only [move, seat_of_get? h]
  generalize (e.seat d).move m = r
  obtain ⟨s, kind⟩ := r
  cases kind with
  | none => exact ⟨h, rfl⟩
  | some kind => simp [settle]

theorem Election.get?_move_of_ne (e : Election) {d d' : DeviceId} (h : d' ≠ d) (m : Seat.Move) :
    (e.move d m).1.seats.get? d' = e.seats.get? d' := by
  simp only [move]
  generalize (e.seat d).move m = r
  obtain ⟨s, kind⟩ := r
  cases kind with
  | none => rfl
  | some kind => exact Table.get?_insert_of_ne _ _ h.symm

theorem Clock.setTerm_congr {c c' : Clock} {d : DeviceId}
    (h : c'.entries.get? d = c.entries.get? d) (t : Term) :
    (c'.setTerm d t).1.entries.get? d = (c.setTerm d t).1.entries.get? d := by
  simp only [setTerm, h]
  cases hc : c.entries.get? d with
  | none => simp
  | some e =>
    dsimp only
    split
    · rw [h, hc]
    · simp

theorem Clock.next_congr {c c' : Clock} {d : DeviceId} (hn : c'.node = c.node)
    (h : c'.entries.get? d = c.entries.get? d) :
    (c'.next d).1.entries.get? d = (c.next d).1.entries.get? d ∧ (c'.next d).2 = (c.next d).2 := by
  simp only [next, h, hn]
  cases hc : c.entries.get? d with
  | none => exact ⟨h.trans hc |>.trans hc.symm, rfl⟩
  | some e =>
    dsimp only
    split
    · simp
    · exact ⟨h, rfl⟩

namespace Replica

variable {r r' : Replica} {d : DeviceId}

/-- The device, if it is stored, is stored under its id. -/
def Filed (r : Replica) (d : DeviceId) : Prop := ∀ device, r.device? d = some device → device.id = d

/-- A write of a replica that is about one device: it reads and writes the record of the device
alone, and answers with events about it. -/
structure Local (d : DeviceId) (f : Replica → Replica × List DeviceEvent) : Prop where
  congr : ∀ {r r' : Replica}, r'.records.get? d = r.records.get? d →
    (f r').1.records.get? d = (f r).1.records.get? d ∧ (f r').2 = (f r).2
  spares : ∀ (r : Replica) {d'}, d' ≠ d → (f r).1.records.get? d' = r.records.get? d'
  filed : ∀ {r : Replica}, r.Filed d → (f r).1.Filed d ∧ ∀ e ∈ (f r).2, e.device.id = d

/-- What is told of a device that is left as it is, is told of a device under its id. -/
theorem Filed.reports {es : List DeviceEvent} (h : r.Filed d) (hr : r.Reports d r' es) :
    r'.Filed d ∧ ∀ e ∈ es, e.device.id = d := by
  refine ⟨fun device hd => h device (hr.device ▸ hd), fun e he => ?_⟩
  obtain ⟨device, hd, hshows⟩ := hr.events e he
  rw [hshows.device]
  exact h device hd

theorem put_local (d : DeviceId) (provider : ProviderId) (description : DeviceDescription) :
    Local d fun r => ((r.put provider d description).1, (r.put provider d description).2.toList) where
  congr h := by
    simp only [put, h]
    split <;> simp
  spares r _ h := r.get?_put_of_ne h provider description
  filed {r} _ := by
    refine ⟨fun device hd => ?_, fun e he => ?_⟩
    · rw [device?_put] at hd
      rw [← Option.some.inj hd]
    · rw [(r.put_shows d provider description e he).device]

theorem setPorts_local (d : DeviceId) (ps : List PortDescription) : Local d (·.setPorts d ps) where
  congr {r _} h := by
    simp only [setPorts, h]
    cases hr : r.records.get? d with
    | none => exact ⟨h.trans hr |>.trans hr.symm, rfl⟩
    | some rec => simp
  spares r _ h := r.get?_setPorts_of_ne h ps
  filed {r} h := h.reports (r.setPorts_reports d ps)

theorem disablePorts_local (d : DeviceId) :
    Local d fun r => ((r.setPorts d ((r.ports d).map Port.disabled)).1, []) where
  congr {r r'} h := by
    have hports : r'.ports d = r.ports d := by simp only [ports, h]
    rw [hports]
    exact ⟨((setPorts_local d _).congr h).1, rfl⟩
  spares r _ h := r.get?_setPorts_of_ne h _
  filed {r} h := ⟨(h.reports (r.setPorts_reports d _)).1, by simp⟩

theorem setPort_local (d : DeviceId) (p : PortDescription) :
    Local d fun r => ((r.setPort d p).1, (r.setPort d p).2.toList) where
  congr {r _} h := by
    simp only [setPort, h]
    cases hr : r.records.get? d with
    | none => exact ⟨h.trans hr |>.trans hr.symm, rfl⟩
    | some rec => simp
  spares r _ h := r.get?_setPort_of_ne h p
  filed {r} h := h.reports (r.setPort_reports d p)

theorem setStatistics_local (d : DeviceId) (ss : List PortStatistics) :
    Local d fun r => ((r.setStatistics d ss).1, (r.setStatistics d ss).2.toList) where
  congr {r _} h := by
    simp only [setStatistics, h]
    cases hr : r.records.get? d with
    | none => exact ⟨h.trans hr |>.trans hr.symm, rfl⟩
    | some rec => simp
  spares r _ h := r.get?_setStatistics_of_ne h ss
  filed {r} h := h.reports (r.setStatistics_reports d ss)

theorem remove_local (d : DeviceId) : Local d fun r => ((r.remove d).1, (r.remove d).2.toList) where
  congr {r _} h := by
    simp only [remove, h]
    cases hr : r.records.get? d with
    | none => exact ⟨h.trans hr |>.trans hr.symm, rfl⟩
    | some rec => simp
  spares r _ h := r.get?_remove_of_ne h
  filed {r} h := by
    refine ⟨fun device hd => ?_, fun e he => ?_⟩
    · rw [remove_device?] at hd
      cases hd
    simp only [remove] at he
    split at he
    · cases he
    · next rec hrec =>
      obtain rfl := List.mem_singleton.mp he
      exact h rec.device (by simp [device?, hrec])

theorem markOffline_congr {c c' : Clock} (hr : r'.records.get? d = r.records.get? d)
    (hn : c'.node = c.node) (hc : c'.entries.get? d = c.entries.get? d) :
    (r'.markOffline c' d).1.records.get? d = (r.markOffline c d).1.records.get? d ∧
      (r'.markOffline c' d).2.1.entries.get? d = (r.markOffline c d).2.1.entries.get? d ∧
      (r'.markOffline c' d).2.2 = (r.markOffline c d).2.2 := by
  obtain ⟨hclock, hstamp⟩ := Clock.next_congr hn hc
  have hd : r'.device? d = r.device? d := by simp only [device?, hr]
  refine ⟨?_, ?_, ?_⟩
  · rw [get?_markOffline, get?_markOffline, hr, hstamp]
  · rw [clock_markOffline, clock_markOffline, hd]
    split
    · exact hclock
    · exact hc
  · simp only [markOffline_result, hstamp, offlineEvent?, hd]

theorem stamper_markOffline (r : Replica) (c : Clock) (d : DeviceId) :
    (r.markOffline c d).2.1.node = c.node := by
  rw [clock_markOffline]
  split
  · exact c.node_next d
  · rfl

theorem Filed.markOffline (h : r.Filed d) (c : Clock) : (r.markOffline c d).1.Filed d ∧
    ∀ event, (r.markOffline c d).2.2 = .ok event → ∀ e ∈ event.toList, e.device.id = d := by
  have hid := r.markOffline_id d c
  refine ⟨fun device hd => ?_, fun event he e hmem => ?_⟩
  · rw [hd] at hid
    obtain ⟨old, hold, hsame⟩ := Option.map_eq_some_iff.mp hid.symm
    exact hsame.symm.trans (h old hold)
  · rw [markOffline_result] at he
    split at he
    · cases he
    · obtain rfl := Except.ok.inj he
      obtain ⟨device, hd, hone⟩ := Option.bind_eq_some_iff.mp (Option.mem_toList.mp hmem)
      split at hone
      · obtain rfl := Option.some.inj hone
        exact h device hd
      · cases hone

end Replica

theorem Provider.callsFor_device {d : DeviceId} {role : Role} :
    ∀ c ∈ Provider.callsFor d role, c.device = d := by
  unfold callsFor
  split <;> simp [Call.device]

theorem Southbound.finish_calls {s : Southbound} {slot : Nat} {d : DeviceId} {role : Role}
    {calls : List Call} (h : (s.finish slot d role).2 = .ok calls) :
    calls = Provider.callsFor d role := by
  simp only [finish] at h
  split at h
  · cases h
  · split at h
    · cases h
    · exact (Except.ok.inj h).symm

end Mastership
