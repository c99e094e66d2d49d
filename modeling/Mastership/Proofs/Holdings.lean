import Mastership.Proofs.Writes
import Mastership.Proofs.Tidings
import Mastership.Proofs.Operations

namespace Mastership

/-- The same port, not enabled. -/
def Port.down (p : Port) : Port := { p with enabled := false }

theorem Port.disabled_on {p : Port} {d : DeviceId} (h : p.device = d) : p.disabled.on d = p.down := by
  rw [← h]
  rfl

namespace Replica

/-- The record is one of this device, and each of its ports is under its number. -/
structure Record.Tidy (d : DeviceId) (rec : Record) : Prop where
  id : rec.device.id = d
  ports : ∀ k p, rec.ports.get? k = some p → p.number = k ∧ p.device = d

def Tidy (r : Replica) : Prop := ∀ d rec, r.records.get? d = some rec → rec.Tidy d

namespace Record

variable {d : DeviceId} {rec : Record}

theorem get?_setPort (rec : Record) (p : PortDescription) (k : Nat) :
    (rec.setPort p).1.ports.get? k =
      if p.number = k then some (p.on rec.device.id) else rec.ports.get? k := by
  simp only [setPort]
  split
  · exact Table.get?_insert _ _ _ _
  · next old hold =>
    split
    · next he =>
      split
      · next hk => rw [← hk, hold, he]
      · rfl
    · exact Table.get?_insert _ _ _ _

theorem get?_removePort (rec : Record) (number k : Nat) :
    (rec.removePort number).1.ports.get? k =
      if number = k then none else rec.ports.get? k := by
  simp only [removePort]
  split
  · next h =>
    split
    · next hk => rw [← hk, h]
    · rfl
  · exact Table.get?_erase _ _ _

theorem setEach_statistics (rec : Record) (ps : List PortDescription) :
    (rec.setEach ps).1.statistics = rec.statistics := by
  induction ps generalizing rec with
  | nil => rfl
  | cons p ps ih =>
    have hone : (rec.setPort p).1.statistics = rec.statistics := by
      simp only [setPort]
      split
      · rfl
      · split <;> rfl
    exact (ih _).trans hone

theorem Tidy.setPort (h : rec.Tidy d) (p : PortDescription) : (rec.setPort p).1.Tidy d := by
  refine ⟨by rw [rec.setPort_device, h.id], ?_⟩
  intro k q hq
  rw [get?_setPort] at hq
  split at hq
  · next hk =>
    cases hq
    exact ⟨hk, h.id⟩
  · exact h.ports k q hq

theorem Tidy.setEach (h : rec.Tidy d) (ps : List PortDescription) : (rec.setEach ps).1.Tidy d := by
  induction ps generalizing rec with
  | nil => exact h
  | cons p ps ih => exact ih (h.setPort p)

theorem Tidy.removePort (h : rec.Tidy d) (number : Nat) : (rec.removePort number).1.Tidy d := by
  refine ⟨by rw [rec.removePort_device, h.id], ?_⟩
  intro k q hq
  rw [get?_removePort] at hq
  split at hq
  · cases hq
  · exact h.ports k q hq

theorem Tidy.removeEach (h : rec.Tidy d) (ns : List Nat) : (rec.removeEach ns).1.Tidy d := by
  induction ns generalizing rec with
  | nil => exact h
  | cons n ns ih => exact ih (h.removePort n)

theorem Tidy.setPorts (h : rec.Tidy d) (ps : List PortDescription) : (rec.setPorts ps).1.Tidy d :=
  (h.setEach ps).removeEach _

/-- A port that is not among those written stays as it is. -/
theorem get?_setEach_of_not_mem {ps : List PortDescription} {k : Nat}
    (h : k ∉ ps.map PortDescription.number) (rec : Record) :
    (rec.setEach ps).1.ports.get? k = rec.ports.get? k := by
  induction ps generalizing rec with
  | nil => rfl
  | cons p ps ih =>
    rw [List.map_cons, List.mem_cons, not_or] at h
    refine (ih h.2 (rec.setPort p).1).trans ?_
    rw [get?_setPort, if_neg (Ne.symm h.1)]

/-- A port is written as described if no other description has its number. -/
theorem get?_setEach_of_mem {ps : List PortDescription} {q : PortDescription} (hq : q ∈ ps)
    (h : ∀ p ∈ ps, p.number = q.number → p = q) (rec : Record) :
    (rec.setEach ps).1.ports.get? q.number = some (q.on rec.device.id) := by
  induction ps generalizing rec with
  | nil => cases hq
  | cons p ps ih =>
    have hrest := fun p' hp' => h p' (List.mem_cons_of_mem p hp')
    by_cases hmem : q ∈ ps
    · refine (ih hmem hrest (rec.setPort p).1).trans ?_
      rw [rec.setPort_device]
    · obtain rfl : q = p := (List.mem_cons.mp hq).resolve_right hmem
      have hnot : q.number ∉ ps.map PortDescription.number := by
        intro hn
        obtain ⟨p', hp', he⟩ := List.mem_map.mp hn
        exact hmem (hrest p' hp' he ▸ hp')
      refine (get?_setEach_of_not_mem hnot (rec.setPort q).1).trans ?_
      rw [get?_setPort, if_pos rfl]

/-- If all ports are described anew, none is dropped. -/
theorem setPorts_of_covered {ps : List PortDescription}
    (h : ∀ k p, rec.ports.get? k = some p → k ∈ ps.map PortDescription.number) :
    (rec.setPorts ps).1 = (rec.setEach ps).1 := by
  have hnone : (rec.setEach ps).1.ports.keys.filter
      (fun k => decide (k ∉ ps.map PortDescription.number)) = [] := by
    rw [List.filter_eq_nil_iff]
    intro k hk hnot
    have hnot : k ∉ ps.map PortDescription.number := of_decide_eq_true hnot
    rw [Table.mem_keys, get?_setEach_of_not_mem hnot] at hk
    obtain ⟨p, hp⟩ := Option.isSome_iff_exists.mp hk
    exact hnot (h k p hp)
  simp only [setPorts, hnone]
  rfl

/-- Taking down all ports of a device does just that. -/
theorem Tidy.setPorts_down (h : rec.Tidy d) :
    let rec' := (rec.setPorts (rec.ports.values.map Port.disabled)).1
    rec'.device = rec.device ∧ rec'.statistics = rec.statistics ∧
      ∀ k, rec'.ports.get? k = (rec.ports.get? k).map Port.down := by
  have hmem : ∀ {k p}, rec.ports.get? k = some p →
      p.disabled ∈ rec.ports.values.map Port.disabled := fun hp =>
    List.mem_map_of_mem (Table.mem_values.mpr ⟨_, hp⟩)
  have hcovered : ∀ k p, rec.ports.get? k = some p →
      k ∈ (rec.ports.values.map Port.disabled).map PortDescription.number := by
    intro k p hp
    rw [← (h.ports k p hp).1]
    exact List.mem_map_of_mem (hmem hp)
  intro rec'
  refine ⟨(rec.setPorts_device _).1, ?_, ?_⟩
  · rw [show rec' = _ from setPorts_of_covered hcovered, setEach_statistics]
  · intro k
    rw [show rec' = _ from setPorts_of_covered hcovered]
    cases hk : rec.ports.get? k with
    | none =>
      refine (get?_setEach_of_not_mem ?_ rec).trans hk
      intro hn
      simp only [List.mem_map, Table.mem_values] at hn
      obtain ⟨_, ⟨p, ⟨k', hp⟩, rfl⟩, hnumber⟩ := hn
      obtain rfl : k' = k := (h.ports k' p hp).1.symm.trans hnumber
      rw [hk] at hp
      cases hp
    | some p =>
      obtain ⟨rfl, hdevice⟩ := h.ports k p hk
      rw [Option.map_some, ← Port.disabled_on (hdevice.trans h.id.symm)]
      refine get?_setEach_of_mem (hmem hk) ?_ rec
      intro p' hp' hnumber
      simp only [List.mem_map, Table.mem_values] at hp'
      obtain ⟨q, ⟨k', hq⟩, rfl⟩ := hp'
      obtain rfl : k' = p.number := (h.ports k' q hq).1.symm.trans hnumber
      rw [Option.some.inj (hq.symm.trans hk)]

/-- A record whose device is not available. -/
def offline (rec : Record) : Record := { rec with device := { rec.device with available := false } }

theorem offline_eq_self (h : rec.device.available = false) : rec.offline = rec := by
  obtain ⟨⟨id, provider, description, available⟩, ports, statistics⟩ := rec
  obtain rfl : available = false := h
  rfl

end Record

variable {r r' : Replica} {d : DeviceId}

/-- The event that tells of a device that has gone offline, if it was available. -/
def offlineEvent? (r : Replica) (d : DeviceId) : Option DeviceEvent :=
  (r.device? d).bind fun device =>
    if device.available then
      some (.ofDevice .availabilityChanged { device with available := false })
    else none

theorem offlineEvent?_kind {event : DeviceEvent} (h : r.offlineEvent? d = some event) :
    event.kind = .availabilityChanged := by
  obtain ⟨device, _, he⟩ := Option.bind_eq_some_iff.mp h
  split at he
  · cases he
    rfl
  · cases he

/-- A device is marked offline exactly if a stamp can be taken of it. -/
theorem get?_markOffline (r : Replica) (c : Clock) (d : DeviceId) :
    (r.markOffline c d).1.records.get? d =
      (r.records.get? d).map fun rec => if (c.next d).2.isSome then rec.offline else rec := by
  unfold markOffline
  cases hrec : r.records.get? d with
  | none => simp [hrec]
  | some rec =>
    dsimp only
    generalize c.next d = x
    obtain ⟨c', _ | x⟩ := x
    · simp [hrec]
    · dsimp only
      split
      · simp [Record.offline]
      · next ha =>
        rw [Option.map_some, Option.isSome_some, if_pos rfl,
          Record.offline_eq_self (Bool.eq_false_iff.mpr ha)]
        exact hrec

theorem markOffline_result (r : Replica) (c : Clock) (d : DeviceId) :
    (r.markOffline c d).2.2 =
      if (r.device? d).isSome ∧ (c.next d).2 = none then .error (.staleMastership d)
      else .ok (r.offlineEvent? d) := by
  unfold markOffline offlineEvent? device?
  cases r.records.get? d with
  | none => simp
  | some rec =>
    dsimp only [Option.map_some, Option.bind_some]
    generalize c.next d = x
    obtain ⟨c', _ | x⟩ := x
    · simp
    · dsimp only
      split <;> simp

theorem Tidy.insert (h : r.Tidy) {rec : Record} (hrec : rec.Tidy d) :
    Tidy ⟨r.records.insert d rec⟩ := by
  intro d' rec' hrec'
  rw [Table.get?_insert] at hrec'
  split at hrec'
  · next hd =>
    cases hrec'
    exact hd ▸ hrec
  · exact h d' rec' hrec'

theorem Tidy.edit (h : r.Tidy) (he : r.Edit d r') : r'.Tidy := by
  cases he with
  | put provider description =>
    simp only [put]
    split
    · refine h.insert ⟨rfl, ?_⟩
      intro k p hp
      rw [Table.get?_emptyCollection] at hp
      cases hp
    · next old hold => exact h.insert ⟨rfl, (h d old hold).ports⟩
  | setPorts ps =>
    simp only [setPorts]
    split
    · exact h
    · next old hold => exact h.insert ((h d old hold).setPorts ps)
  | setPort p =>
    simp only [setPort]
    split
    · exact h
    · next old hold => exact h.insert ((h d old hold).setPort p)
  | setStatistics ss =>
    simp only [setStatistics]
    split
    · exact h
    · next old hold => exact h.insert ⟨(h d old hold).id, (h d old hold).ports⟩
  | remove =>
    simp only [remove]
    split
    · exact h
    · intro d' rec hrec
      rw [Table.get?_erase] at hrec
      split at hrec
      · cases hrec
      · exact h d' rec hrec

theorem Tidy.markOffline (h : r.Tidy) (c : Clock) (d : DeviceId) : (r.markOffline c d).1.Tidy := by
  unfold Replica.markOffline
  split
  · exact h
  · next old hold =>
    split
    · exact h
    · split
      · exact h.insert ⟨(h d old hold).id, (h d old hold).ports⟩
      · exact h

/-- Taking down the ports of a device leaves the device and its counters as they are. -/
theorem Tidy.disablePorts (h : r.Tidy) (d : DeviceId) :
    let r' := (r.setPorts d ((r.ports d).map Port.disabled)).1
    r'.device? d = r.device? d ∧ r'.statistics d = r.statistics d ∧
      ∀ k, r'.port? d k = (r.port? d k).map Port.down := by
  simp only [setPorts, ports, device?, statistics, port?]
  cases hrec : r.records.get? d with
  | none => simp [hrec]
  | some rec =>
    obtain ⟨hdevice, hstatistics, hports⟩ := (h d rec hrec).setPorts_down
    simp only [Table.get?_insert_self, Option.map_some, Option.bind_some]
    exact ⟨congrArg some hdevice, congrArg Table.values hstatistics, hports⟩

end Replica

namespace Site

variable {d : DeviceId} {s s' : Site} {xs : List Timestamp}

theorem Writes.tidy (h : Writes d s xs s') (ht : s.node.replica.Tidy) : s'.node.replica.Tidy := by
  induction h with
  | rest _ _ hr => exact hr ▸ ht
  | edit _ _ he => exact ht.edit he
  | hear s => rwa [observeTerm_replica]
  | attempt s =>
    unfold Site.markOffline
    dsimp only
    split
    · exact ht
    · exact ht
    · exact ht
    · split <;> exact ht.markOffline _ _
  | trans _ _ ih ih' => exact ih' (ih ht)

end Site

namespace World

/-- What each operation preserves of the controller that does it, an act preserves of all. -/
theorem step_nodes {P : NodeId → Controller → Prop}
    (hrun : ∀ n (s : Site) t, P n s.node → P n (s.run t).1.node)
    (hchange : ∀ n (s : Site) c, P n s.node → P n (s.change c).node)
    (hanswer : ∀ n (s : Site) p, P n s.node → P n (s.answer p).node)
    {w : World} (h : ∀ n s, w.cluster.site? n = some s → P n s.node) (a : Act) :
    ∀ n s, (w.step a).cluster.site? n = some s → P n s.node := by
  have hset : ∀ {n s'}, P n s'.node →
      ∀ m y, (w.cluster.setSite n s').site? m = some y → P m y.node := by
    intro n s' hs' m y hy
    rcases Cluster.site?_setSite hy with ⟨rfl, rfl⟩ | ⟨_, z, hz, rfl⟩
    · exact hs'
    · exact h m z hz
  have hsteps := w.steps a
  generalize w.step a = w' at hsteps ⊢
  cases hsteps with
  | idle => exact h
  | task t hs => exact hset (hrun _ _ t (h _ _ hs))
  | change c hs => exact hset (hchange _ _ c (h _ _ hs))
  | answer _ hs => exact hset (hanswer _ _ _ (h _ _ hs))
  | lost => exact h
  | moved =>
    intro n s hs
    obtain ⟨s₀, hs₀, hn⟩ := site?_moveElection hs
    exact hn ▸ h n s₀ hs₀

/-- Every act, also a dishonest one, moves the election about one device, if it does. -/
theorem step_moves (w : World) (a : Act) :
    ∃ d ms, (w.step a).cluster.election = (w.cluster.election.moves d ms).1 := by
  have hset : ∀ {n s s' d ms}, w.cluster.site? n = some s →
      s'.election = (s.election.moves d ms).1 →
      (w.cluster.setSite n s').election = (w.cluster.election.moves d ms).1 := by
    intro n s s' d ms hs he
    rw [← Cluster.site?_election hs]
    exact he
  cases a with
  | request n d => exact ⟨d, _, congrArg Prod.fst (Election.request_eq_moves _ n d)⟩
  | relinquish n d => exact ⟨d, _, congrArg Prod.fst (Election.relinquish_eq_moves _ n d)⟩
  | setRole n d role => exact ⟨d, _, congrArg Prod.fst (Election.setRole_eq_moves _ n d role)⟩
  | task n t =>
    cases hs : w.cluster.site? n with
    | none => exact ⟨t.device, [], by rw [step_task_of_none hs]; rfl⟩
    | some s =>
      obtain ⟨ms, hd⟩ := s.run_decides t
      exact ⟨_, ms, by rw [step_task hs]; exact hset hs hd.does.election⟩
  | change n c =>
    cases hs : w.cluster.site? n with
    | none => exact ⟨default, [], by simp [World.step, Cluster.modify_of_none hs]⟩
    | some s =>
      refine ⟨default, [], ?_⟩
      simp only [World.step, Cluster.modify_of_site hs]
      exact hset hs (s.change_keeps c).1
  | answer i =>
    cases hi : w.pending[i]? with
    | none => exact ⟨default, [], by simp [World.step, hi]⟩
    | some x =>
      cases hs : w.cluster.site? x.1 with
      | none => exact ⟨default, [], by rw [step_answer_of_none hi hs]; rfl⟩
      | some s =>
        refine ⟨x.2.device, s.givesUp (s.reply x.2), ?_⟩
        rw [step_answer hi hs]
        exact hset hs (s.answer_does x.2).election

/-- Every member knows its name and keeps its devices tidy, and nobody queues twice for one. -/
structure Kept (w : World) : Prop where
  id : ∀ n s, w.cluster.site? n = some s → s.node.id = n
  tidy : ∀ n s, w.cluster.site? n = some s → s.node.replica.Tidy
  orderly : ∀ d, (w.cluster.election.seat d).Orderly

theorem kept_of_fresh {c : Cluster} (h : c.Fresh) : Kept ⟨c, []⟩ := by
  refine ⟨?_, ?_, ?_⟩
  · intro n s hs
    obtain ⟨node, hn, rfl⟩ := Option.map_eq_some_iff.mp hs
    exact (h.nodes n node hn).id
  · intro n s hs
    obtain ⟨node, hn, rfl⟩ := Option.map_eq_some_iff.mp hs
    intro d rec hrec
    simp [(h.nodes n node hn).replica] at hrec
  · intro d
    simp only [h.election]
    exact Election.empty_orderly d

/-- No act breaks what is kept, however dishonest it is. -/
theorem Kept.step {w : World} (h : w.Kept) (a : Act) : (w.step a).Kept := by
  refine ⟨?_, ?_, ?_⟩
  · refine step_nodes (P := fun n node => node.id = n) ?_ ?_ ?_ h.id a
    · intro n s t hs
      obtain ⟨ms, hd⟩ := s.run_decides t
      exact hd.does.id.trans hs
    · exact fun n s c hs => (s.change_keeps c).2.2.1.trans hs
    · exact fun n s p hs => (s.answer_does p).id.trans hs
  · refine step_nodes (P := fun _ node => node.replica.Tidy) ?_ ?_ ?_ h.tidy a
    · exact fun _ s t hs => (s.run_writes t).tidy hs
    · exact fun _ s c hs => (s.change_replica c).symm ▸ hs
    · exact fun _ s p hs => (s.answer_writes p).tidy hs
  · intro d
    obtain ⟨d', ms, he⟩ := w.step_moves a
    rw [he]
    exact Election.moves_orderly h.orderly d' ms d

theorem Kept.run {w : World} (h : w.Kept) (as : List Act) : (as.foldl World.step w).Kept := by
  induction as generalizing w with
  | nil => exact h
  | cons a as ih => exact ih (h.step a)

theorem Reachable.kept {w : World} (h : w.Reachable) : w.Kept := by
  induction h with
  | fresh hc => exact kept_of_fresh hc
  | step _ _ ih => exact ih.step _

end World
end Mastership
