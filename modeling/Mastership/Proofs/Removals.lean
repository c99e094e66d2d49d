import Mastership.Proofs.Calls
import Mastership.Proofs.Guards

namespace Mastership

/-- The notice is of what the member does for the device: it starts a push, its provider does
something, or it posts an event. -/
def Notice.Serves (n : NodeId) (d : DeviceId) : Notice → Prop
  | .started m p => m = n ∧ p.device = d
  | .called m _ c => m = n ∧ c.device = d
  | .posted m e => m = n ∧ e.device.id = d
  | _ => False

theorem Notice.Serves.device {n : NodeId} {d : DeviceId} {x : Notice} (h : x.Serves n d) :
    x.device = d := by
  cases x with
  | started | called | posted => exact h.2
  | _ => exact h.elim

namespace Replica

variable {r : Replica} {d : DeviceId}

theorem setPorts_of_none (h : r.records.get? d = none) (ps : List PortDescription) :
    r.setPorts d ps = (r, []) := by
  simp only [setPorts, h]

theorem setPort_of_none (h : r.records.get? d = none) (p : PortDescription) :
    r.setPort d p = (r, none) := by
  simp only [setPort, h]

theorem setStatistics_of_none (h : r.records.get? d = none) (ss : List PortStatistics) :
    r.setStatistics d ss = (r, none) := by
  simp only [setStatistics, h]

theorem remove_of_none (h : r.records.get? d = none) : r.remove d = (r, none) := by
  simp only [remove, h]

end Replica

namespace Site

variable {n : NodeId} {d : DeviceId} {s s' s'' : Site}

/-- Nothing that has left from `s` to `s'` is of what the member does for the device. -/
def Idles (n : NodeId) (d : DeviceId) (s s' : Site) : Prop :=
  ∃ ns, s'.journal = s.journal ++ ns ∧ ∀ x ∈ ns, ¬ x.Serves n d

theorem idles_of_journal (h : s'.journal = s.journal) : Idles n d s s' :=
  ⟨[], by rw [h, List.append_nil], by simp⟩

/-- What is posted, called for and started by others is not the member's. -/
theorem idles_of_other {posted : List (NodeId × DeviceEvent)} {cs : List (NodeId × Nat × Call)}
    {pushes : List (NodeId × Push)}
    (hp : ∃ ns, s'.journal = s.journal ++ ns ∧ posts ns = posted) (hc : Calls s s' cs)
    (hs : ∃ ns, s'.journal = s.journal ++ ns ∧ started ns = pushes)
    (hpn : ∀ x ∈ posted, x.1 ≠ n) (hcn : ∀ x ∈ cs, x.1 ≠ n) (hsn : ∀ x ∈ pushes, x.1 ≠ n) :
    Idles n d s s' := by
  obtain ⟨ns, hj, rfl⟩ := hp
  obtain ⟨ns', hj', rfl⟩ := hc
  obtain ⟨ns'', hj'', rfl⟩ := hs
  obtain rfl : ns' = ns := List.append_cancel_left (hj'.symm.trans hj)
  obtain rfl : ns'' = ns' := List.append_cancel_left (hj''.symm.trans hj)
  refine ⟨ns'', hj, fun x hx hserves => ?_⟩
  cases x with
  | started m p => exact hsn (m, p) (mem_started.mpr hx) hserves.1
  | called m slot c => exact hcn (m, slot, c) (mem_calls.mpr hx) hserves.1
  | posted m e => exact hpn (m, e) (mem_posts.mpr hx) hserves.1
  | _ => exact hserves

/-- The controller has neither the device nor a role of it. -/
structure Lacks (d : DeviceId) (s : Site) : Prop where
  record : s.node.replica.records.get? d = none
  role : s.node.roles.entries.get? d = none

theorem Unmoved.lacks (hu : s.Unmoved d s') (h : Lacks d s) : Lacks d s' :=
  ⟨hu.record.trans h.record, hu.role.trans h.role⟩

theorem Lacks.not_stored (h : Lacks d s) : s.stored d = false := by
  simp [stored, Replica.device?, h.record]

/-- Whether a task may let in its device, which is lacking: it connects, or its role is decided by
hand. An audit checks what is stored. -/
def readmits (s : Site) : Task → Bool
  | .connect slot _ _ => (s.refusal? slot).isNone
  | .check d => !s.stored d
  | .reassert .. => true
  | _ => false

/-- The device is lacking as before, and no event was posted. -/
structure Passes (d : DeviceId) (s s' : Site) : Prop where
  lacks : Lacks d s'
  quiet : ∃ ns, s'.journal = s.journal ++ ns ∧ posts ns = []

theorem Lacks.passes_refl (h : Lacks d s) : Passes d s s := ⟨h, [], by simp, rfl⟩

theorem Passes.trans (h : Passes d s s') (h' : Passes d s' s'') : Passes d s s'' := by
  obtain ⟨_, ns, hj, hposts⟩ := h
  obtain ⟨hlacks, ns', hj', hposts'⟩ := h'
  refine ⟨hlacks, ns ++ ns', by rw [hj', hj, List.append_assoc], ?_⟩
  rw [posts] at hposts hposts' ⊢
  rw [List.filterMap_append, hposts, hposts']
  rfl

/-- Without a role of the device, to give it up is a word to the election. -/
theorem Lacks.relinquish (h : Lacks d s) : Passes d s (s.relinquish d) := by
  have hclear : (s.withdraw d).node.roles.clear d = (s.node.roles, false) := by
    simp only [withdraw_node, RoleTable.clear, h.role]
  obtain ⟨ns, hj, _, hposts⟩ := withdraw_emits s d
  have heq : s.relinquish d = (s.withdraw d).setRoles s.node.roles := by
    simp only [Site.relinquish, hclear]
    rfl
  rw [heq]
  refine ⟨⟨?_, h.role⟩, ns, hj, hposts⟩
  rw [setRoles_replica, withdraw_node]
  exact h.record

theorem Lacks.disconnected (h : Lacks d s) : Passes d s (s.disconnected d).1 := by
  obtain ⟨ps, ⟨ns, hj, _, hposts⟩, _⟩ := markDisconnected_emits s d
  have hports : (s.disablePorts d).node.replica.records.get? d = none := by
    rw [disablePorts, setReplica_replica, Replica.setPorts_of_none h.record]
    exact h.record
  have hdark := markDisconnected_darkens s d
  have hmarked : Passes d s (s.markDisconnected d).1 :=
    ⟨⟨by rw [hdark.record, hports]; rfl, by rw [markDisconnected_roles]; exact h.role⟩, ns, hj,
      hposts⟩
  have hevent : (s.markDisconnected d).2.event? = none := by
    rw [hdark.event]
    simp [Replica.offlineEvent?, Replica.device?, hports]
  have hgiven := hmarked.trans hmarked.lacks.relinquish
  obtain ⟨hlacks, ns', hj', hposts'⟩ := hgiven
  rw [disconnected_eq, hevent]
  refine ⟨⟨hlacks.record, ?_⟩, ns', ?_, hposts'⟩
  · simp [release, RoleTable.forget]
  · simpa [postAll, note, release, setRoles] using hj'

theorem Lacks.guarded (h : Lacks d s) (slot : Nat) {f : Site → Site} (hf : Passes d s (f s)) :
    Passes d s (s.guarded slot f).1 := by
  unfold Site.guarded
  split
  · exact h.passes_refl
  · exact hf

theorem Lacks.passes_of_eq (h : Lacks d s) (he : s' = s) : Passes d s s' := he ▸ h.passes_refl

theorem reported_nothing (s : Site) : (s.setReplica s.node.replica).postAll [] = s := by
  simp [postAll, note, setReplica]

theorem Lacks.portsReported (h : Lacks d s) (ps : List PortDescription) :
    s.portsReported d ps = s := by
  simp only [Site.portsReported, Replica.setPorts_of_none h.record, reported_nothing, ite_self]

theorem Lacks.portReported (h : Lacks d s) (p : PortDescription) : s.portReported d p = s := by
  simp only [Site.portReported, Replica.setPort_of_none h.record, Option.toList_none,
    reported_nothing, ite_self]

theorem Lacks.statisticsReported (h : Lacks d s) (ss : List PortStatistics) :
    s.statisticsReported d ss = s := by
  simp only [Site.statisticsReported, Replica.setStatistics_of_none h.record, Option.toList_none,
    reported_nothing]

theorem Lacks.remove (h : Lacks d s) : s.remove d = s := by
  simp only [Site.remove, Replica.remove_of_none h.record]

theorem suggestedRole_replica (s : Site) (a : Announcement) :
    (s.suggestedRole a).1.node.replica = s.node.replica := by
  unfold suggestedRole
  split
  · exact observeTerm_replica s a.device
  · rfl

/-- A change of master is a word to the election at most. -/
theorem Lacks.handle {a : Announcement} (h : Lacks a.device s) :
    Passes a.device s (s.handle a).1 ∧ (s.handle a).2 = none := by
  have hkept : Passes a.device s (s.suggestedRole a).1 := by
    refine ⟨⟨?_, ?_⟩, [], by rw [suggestedRole_journal, List.append_nil], rfl⟩
    · rw [suggestedRole_replica]
      exact h.record
    · rw [suggestedRole_roles]
      exact h.role
  simp only [Site.handle]
  split
  · exact ⟨h.passes_refl, rfl⟩
  · simp only [followMaster]
    generalize s.suggestedRole a = r at hkept ⊢
    obtain ⟨s₁, suggested⟩ := r
    dsimp only at hkept ⊢
    split
    · exact ⟨hkept, rfl⟩
    · split
      · exact ⟨hkept, rfl⟩
      · exact ⟨hkept.trans hkept.lacks.relinquish, rfl⟩
    · split
      · next hs =>
        have hnone : (s₁.node.replica.device? a.device).isSome = false := hkept.lacks.not_stored
        rw [hnone] at hs
        cases hs
      · exact ⟨hkept, rfl⟩

/-- A task that lets in no device passes over one that is lacking, and pushes nothing. -/
theorem Lacks.run {t : Task} (h : Lacks t.device s) (ht : s.readmits t = false) :
    Passes t.device s (s.run t).1 ∧ (s.run t).2 = none := by
  cases t with
  | connect slot d description =>
    simp only [Site.run, connect]
    split
    · exact ⟨h.passes_refl, rfl⟩
    · next hr => simp [readmits, hr] at ht
  | disconnect slot d =>
    refine ⟨?_, rfl⟩
    simp only [Site.run, disconnect]
    split
    · exact h.passes_refl
    · exact h.disconnected
  | setPorts slot d ps =>
    have hsame : s.portsReported d ps = s := Lacks.portsReported h ps
    exact ⟨h.guarded slot (f := (·.portsReported d ps)) (h.passes_of_eq hsame), rfl⟩
  | setPort slot d p =>
    have hsame : s.portReported d p = s := Lacks.portReported h p
    exact ⟨h.guarded slot (f := (·.portReported d p)) (h.passes_of_eq hsame), rfl⟩
  | setStatistics slot d ss =>
    have hsame : s.statisticsReported d ss = s := Lacks.statisticsReported h ss
    exact ⟨h.guarded slot (f := (·.statisticsReported d ss)) (h.passes_of_eq hsame), rfl⟩
  | roleReply slot d requested response =>
    refine ⟨h.guarded slot (f := (·.roleReplied d requested response)) ?_, rfl⟩
    rcases roleReplied_eq s d requested response with hr | hr <;> rw [hr]
    · exact h.relinquish
    · exact h.passes_refl
  | reassert d requested => cases ht
  | check d =>
    have hd : s.stored d = false := Lacks.not_stored h
    simp [readmits, hd] at ht
  | handle a => exact h.handle
  | remove d =>
    have hsame : s.remove d = s := Lacks.remove h
    exact ⟨h.passes_of_eq hsame, rfl⟩

theorem remove_lacks (s : Site) (hd : s.stored d = true) : Lacks d (s.remove d) := by
  obtain ⟨rec, hrec⟩ : ∃ rec, s.node.replica.records.get? d = some rec := by
    simpa [stored, Replica.device?, Option.isSome_iff_exists] using hd
  simp only [remove, Replica.remove, hrec]
  exact ⟨Table.get?_erase_self _ _, Table.get?_erase_self _ _⟩

theorem run_idles_other (s : Site) (t : Task) (h : s.node.id ≠ n) : Idles n d s (s.run t).1 := by
  obtain ⟨⟨_, ns, hj, hposts⟩, _⟩ := s.run_follows t
  obtain ⟨ms, hdecides⟩ := s.run_decides t
  obtain ⟨ns', hj', _, hstarted⟩ := hdecides.does.journal
  refine idles_of_other ⟨ns, hj, rfl⟩ (s.run_calls t) ⟨ns', hj', hstarted⟩ ?_ (by simp) ?_
  · exact fun x hx => hposts x hx ▸ h
  · intro x hx
    obtain ⟨p, _, rfl⟩ := List.mem_map.mp hx
    exact h

theorem answer_idles_other (s : Site) (p : Push) (h : s.node.id ≠ n) :
    Idles n d s (s.answer p) := by
  obtain ⟨_, ns, hj, hposts⟩ := s.answer_speaks p
  obtain ⟨ns', hj', _, hstarted⟩ := (s.answer_does p).journal
  refine idles_of_other ⟨ns, hj, rfl⟩ (s.answer_calls p) ⟨ns', hj', hstarted⟩ ?_ ?_ (by simp)
  · exact fun x hx => hposts x hx ▸ h
  · intro x hx
    obtain ⟨c, _, rfl⟩ := List.mem_map.mp hx
    exact h

/-- Nothing that has left is about the device. -/
theorem idles_of_about {ns : List Notice} (hj : s'.journal = s.journal ++ ns)
    (ha : about d s'.journal = about d s.journal) : Idles n d s s' := by
  refine ⟨ns, hj, fun x hx hserves => ?_⟩
  rw [hj, about_append] at ha
  have hnone : about d ns = [] := List.append_right_eq_self.mp ha
  rw [about, List.filter_eq_nil_iff] at hnone
  exact hnone x hx (by simpa using hserves.device)

/-- A device that is lacking is served with nothing. -/
theorem Lacks.run_idles {t : Task} (h : Lacks t.device s) (ht : s.readmits t = false) :
    Idles n t.device s (s.run t).1 := by
  obtain ⟨⟨_, hquiet⟩, hpush⟩ := h.run ht
  obtain ⟨ms, hdecides⟩ := s.run_decides t
  obtain ⟨ns, hj, _, hstarted⟩ := hdecides.does.journal
  rw [hpush] at hstarted
  exact idles_of_other hquiet (s.run_calls t) ⟨ns, hj, hstarted⟩ (by simp) (by simp) (by simp)

end Site
namespace World

variable {n m : NodeId} {d : DeviceId} {w w₀ w' : World} {a : Act} {s s' : Site}
  {pending : List (NodeId × Push)}

/-- The act may let in the device, which the member lacks. -/
def Readmits (w : World) (n : NodeId) (d : DeviceId) : Act → Prop
  | .task m t => m = n ∧ t.device = d ∧ (w.cluster.site? n).any (·.readmits t) = true
  | _ => False

instance (w : World) (n : NodeId) (d : DeviceId) : (a : Act) → Decidable (w.Readmits n d a)
  | .task m t => inferInstanceAs
      (Decidable (m = n ∧ t.device = d ∧ (w.cluster.site? n).any (·.readmits t) = true))
  | .change .. | .answer .. | .request .. | .relinquish .. | .setRole .. => .isFalse id

/-- The member lacks the device, waits for nothing of it, and has done nothing for it since `w₀`. -/
structure Lacking (n : NodeId) (d : DeviceId) (w₀ w : World) : Prop where
  kept : w.Kept
  lacks : ∃ s, w.cluster.site? n = some s ∧ s.Lacks d
  pending : ∀ p, (n, p) ∈ w.pending → p.device ≠ d
  idle : ∃ ns, w.cluster.journal = w₀.cluster.journal ++ ns ∧ ∀ x ∈ ns, ¬ x.Serves n d

/-- Whatever becomes of a member's site, what has left with that is no more than before. -/
theorem Lacking.journal (h : Lacking n d w₀ w) (hs : w.cluster.site? m = some s)
    (hi : Site.Idles n d s s') :
    ∃ ns, s'.journal = w₀.cluster.journal ++ ns ∧ ∀ x ∈ ns, ¬ x.Serves n d := by
  obtain ⟨ns, hj, hidle⟩ := h.idle
  obtain ⟨ns', hj', hidle'⟩ := hi
  refine ⟨ns ++ ns', ?_, fun x hx => (List.mem_append.mp hx).elim (hidle x) (hidle' x)⟩
  rw [hj', Cluster.site?_journal hs, hj, List.append_assoc]

theorem Lacking.setSite (h : Lacking n d w₀ w) (hs : w.cluster.site? m = some s)
    (hi : Site.Idles n d s s') (hl : m = n → s.Lacks d → s'.Lacks d)
    (hp : ∀ p, (n, p) ∈ pending → p.device = d → (n, p) ∈ w.pending)
    (hkept : Kept ⟨w.cluster.setSite m s', pending⟩) :
    Lacking n d w₀ ⟨w.cluster.setSite m s', pending⟩ := by
  refine ⟨hkept, ?_, fun p hp' hd => h.pending p (hp p hp' hd) hd, h.journal hs hi⟩
  obtain ⟨x, hx, hlacks⟩ := h.lacks
  obtain ⟨y, hy, ⟨rfl, rfl⟩ | ⟨_, rfl⟩⟩ := Cluster.exists_site?_setSite hx m s'
  · obtain rfl := Option.some.inj (hx.symm.trans hs)
    exact ⟨_, hy, hl rfl hlacks⟩
  · exact ⟨_, hy, hlacks.record, hlacks.role⟩

/-- A task leaves the device lacking, if it does not let it in. -/
theorem Lacking.task (h : Lacking n d w₀ w) (hs : w.cluster.site? m = some s) {t : Site.Task}
    (ha : ¬ w.Readmits n d (.task m t))
    (hkept : Kept ⟨w.cluster.setSite m (s.run t).1,
      w.pending ++ ((s.run t).2.map (m, ·)).toList⟩) :
    Lacking n d w₀ ⟨w.cluster.setSite m (s.run t).1,
      w.pending ++ ((s.run t).2.map (m, ·)).toList⟩ := by
  by_cases hc : m = n ∧ t.device = d
  · obtain ⟨rfl, rfl⟩ := hc
    have hadmits : s.readmits t = false := by
      rw [Bool.eq_false_iff]
      intro ht
      exact ha ⟨rfl, rfl, by simp [hs, ht]⟩
    obtain ⟨x, hx, hlacks⟩ := h.lacks
    obtain rfl := Option.some.inj (hx.symm.trans hs)
    obtain ⟨hpasses, hpush⟩ := hlacks.run hadmits
    refine h.setSite hs (hlacks.run_idles hadmits) (fun _ _ => hpasses.lacks) ?_ hkept
    intro p hp _
    simpa [hpush] using hp
  · have hp : ∀ p, (n, p) ∈ w.pending ++ ((s.run t).2.map (m, ·)).toList → p.device = d →
        (n, p) ∈ w.pending := by
      intro p hp hd
      rcases List.mem_append.mp hp with hp | hp
      · exact hp
      · obtain ⟨q, hq, he⟩ := Option.map_eq_some_iff.mp (Option.mem_toList.mp hp)
        cases he
        obtain ⟨ms, hdecides⟩ := s.run_decides t
        exact absurd ⟨rfl, (hdecides.device p hq).symm.trans hd⟩ hc
    by_cases hm : m = n
    · subst hm
      have hdevice : d ≠ t.device := fun hd => hc ⟨rfl, hd.symm⟩
      obtain ⟨hu, habout⟩ := Site.run_spares (h.kept.replica_filed hs _) hdevice
      obtain ⟨ns, hj, _⟩ := s.run_calls t
      exact h.setSite hs (Site.idles_of_about hj habout) (fun _ => hu.lacks) hp hkept
    · have hid : s.node.id ≠ n := h.kept.id m s hs ▸ hm
      exact h.setSite hs (s.run_idles_other t hid) (fun he => absurd he hm) hp hkept

/-- The device of an answer is not the one that is lacking, or the answer is another member's. -/
theorem Lacking.answer (h : Lacking n d w₀ w) (hs : w.cluster.site? m = some s) {i : Nat} {p : Push}
    (hi : w.pending[i]? = some (m, p))
    (hkept : Kept ⟨w.cluster.setSite m (s.answer p), w.pending.eraseIdx i⟩) :
    Lacking n d w₀ ⟨w.cluster.setSite m (s.answer p), w.pending.eraseIdx i⟩ := by
  have hp : ∀ q, (n, q) ∈ w.pending.eraseIdx i → q.device = d → (n, q) ∈ w.pending :=
    fun q hq _ => List.mem_of_mem_eraseIdx hq
  by_cases hm : m = n
  · subst hm
    have hdevice : d ≠ p.device := (h.pending p (List.mem_of_getElem? hi)).symm
    obtain ⟨hu, habout⟩ := Site.answer_spares (h.kept.replica_filed hs _) hdevice
    obtain ⟨ns, hj, _⟩ := s.answer_calls p
    exact h.setSite hs (Site.idles_of_about hj habout) (fun _ => hu.lacks) hp hkept
  · have hid : s.node.id ≠ n := h.kept.id m s hs ▸ hm
    exact h.setSite hs (s.answer_idles_other p hid) (fun he => absurd he hm) hp hkept

/-- No act brings the device back but one that lets it in. -/
theorem Lacking.step (h : Lacking n d w₀ w) (ha : ¬ w.Readmits n d a) : Lacking n d w₀ (w.step a) := by
  have hkept := h.kept.step a
  have hsteps := w.steps a
  generalize w.step a = w' at hsteps hkept ⊢
  cases hsteps with
  | idle => exact h
  | task t hs => exact h.task hs ha hkept
  | @change m s c hs =>
    refine h.setSite hs (Site.idles_of_journal (s.change_keeps c).2.1) (fun _ hl => ?_)
      (fun _ hp _ => hp) hkept
    exact (s.change_unmoved c).lacks hl
  | answer hi hs => exact h.answer hs hi hkept
  | lost => exact ⟨hkept, h.lacks, fun p hp => h.pending p (List.mem_of_mem_eraseIdx hp), h.idle⟩
  | moved a move =>
    obtain ⟨s, hs, hlacks⟩ := h.lacks
    obtain ⟨node, hn, rfl⟩ := Option.map_eq_some_iff.mp hs
    obtain ⟨ns, hj, hidle⟩ := h.idle
    refine ⟨hkept, ⟨_, Option.map_eq_some_iff.mpr ⟨node, hn, rfl⟩, hlacks.record, hlacks.role⟩,
      h.pending, ns ++ (move w.cluster.election).2.map .announced, ?_, fun x hx => ?_⟩
    · simp only [Cluster.moveElection, hj, List.append_assoc]
    · rcases List.mem_append.mp hx with hx | hx
      · exact hidle x hx
      · obtain ⟨announcement, _, rfl⟩ := List.mem_map.mp hx
        exact id

theorem Lacking.run (h : Lacking n d w₀ w) {as : List Act}
    (ha : Throughout (fun w a => ¬ w.Readmits n d a) w as) :
    Lacking n d w₀ (as.foldl World.step w) :=
  ha.run (I := Lacking n d w₀) (fun _ _ hw ha => hw.step ha) h

/-- A stored device that is removed while the member waits for nothing of it is lacking. -/
theorem Kept.lacking (h : w.Kept) (hs : w.cluster.site? n = some s) (hd : s.stored d = true)
    (hp : ∀ p, (n, p) ∈ w.pending → p.device ≠ d) :
    Lacking n d (w.step (.task n (.remove d))) (w.step (.task n (.remove d))) := by
  refine ⟨h.step _, ?_, ?_, [], (List.append_nil _).symm, by simp⟩
  · rw [step_task hs]
    exact ⟨_, Cluster.site?_setSite_self _ _ _, s.remove_lacks hd⟩
  · rw [step_task hs]
    intro p hp'
    exact hp p (by simpa [Site.run] using hp')

/-- A removed device stays removed. Let anything happen in a cluster, let a member remove a device that
it has stored and of which it does not wait for an answer, and let anything happen again: changes of
master, reports, replies, disconnections, faults and what others do, in which the member may be and
stay the owner of the device and reach it. As long as no connection of the device is accepted, no role
is asked for by hand, and only stored devices are audited, the member has neither the device nor a role
of it, starts no push to it, does not make its provider do anything for it, and posts no event about
it. An audit does not find the device among those that are stored. -/
theorem removed_stays_removed {c : Cluster} (hc : c.Fresh) {before as : List Act}
    (hw : w = before.foldl World.step ⟨c, []⟩) (hs : w.cluster.site? n = some s)
    (hd : s.stored d = true) (hp : ∀ p, (n, p) ∈ w.pending → p.device ≠ d)
    (hw₀ : w₀ = w.step (.task n (.remove d)))
    (ha : Throughout (fun w a => ¬ w.Readmits n d a) w₀ as) (hw' : w' = as.foldl World.step w₀) :
    (∃ s', w'.cluster.site? n = some s' ∧ s'.node.replica.records.get? d = none ∧
      s'.node.roles.entries.get? d = none ∧ ∀ device ∈ s'.node.replica.devices, device.id ≠ d) ∧
    ∃ ns, w'.cluster.journal = w₀.cluster.journal ++ ns ∧
      (∀ p, .started n p ∈ ns → p.device ≠ d) ∧
      (∀ slot call, .called n slot call ∈ ns → call.device ≠ d) ∧
      ∀ e, .posted n e ∈ ns → e.device.id ≠ d := by
  have hkept : w.Kept := hw ▸ (kept_of_fresh hc).run before
  have hstart : Lacking n d w₀ w₀ := hw₀ ▸ hkept.lacking hs hd hp
  obtain ⟨hkept', ⟨s', hs', hlacks⟩, _, ns, hj, hidle⟩ : Lacking n d w₀ w' := hw' ▸ hstart.run ha
  refine ⟨⟨s', hs', hlacks.record, hlacks.role, ?_⟩, ns, hj, ?_, ?_, ?_⟩
  · intro device hdevice hid
    obtain ⟨rec, hrec, rfl⟩ := List.mem_map.mp hdevice
    obtain ⟨k, hk⟩ := Table.mem_values.mp hrec
    obtain rfl : k = d := (hkept'.tidy n s' hs' k rec hk).id.symm.trans hid
    rw [hlacks.record] at hk
    cases hk
  · exact fun p hp hd => hidle _ hp ⟨rfl, hd⟩
  · exact fun slot call hc hd => hidle _ hc ⟨rfl, hd⟩
  · exact fun e he hd => hidle _ he ⟨rfl, hd⟩

end World

namespace Sample

/-- The member that has removed the device is told that it is the master, hears of ports and counters
of the device and of its replies, is out of service when the device connects again, and sees it
disconnect in the end. The other member comes to wait for the device. -/
def aftermathActs : List World.Act :=
  [.task east (.handle ⟨.master, lamp, ⟨some east, []⟩⟩), .task east (.setPorts 0 lamp [default]),
    .task east (.setStatistics 0 lamp [default]), .task west (.reassert lamp .none),
    .change east (.setActive false), .task east (.connect 0 lamp default),
    .change east (.setActive true), .task east (.disconnect 0 lamp),
    .task east (.roleReply 0 lamp none none)]

def keeping : World := (joins east).foldl World.step ⟨pair, []⟩

def removing : World := keeping.step (.task east (.remove lamp))

theorem keeping_stored : ∃ s, keeping.cluster.site? east = some s ∧ s.stored lamp = true := by
  have h : (keeping.cluster.site? east).any (·.stored lamp) = true := by decide +kernel
  simpa [Option.any_eq_true] using h

theorem keeping_settled : ∀ p, (east, p) ∈ keeping.pending → p.device ≠ lamp := by
  have h : keeping.pending = [] := by decide +kernel
  simp [h]

/-- The member that has removed the device owns and reaches it. -/
theorem removing_owns : ∃ s, removing.cluster.site? east = some s ∧
    s.election.master? lamp = some east ∧ s.reachable? lamp = some true := by
  have h : (removing.cluster.site? east).any (fun s =>
      s.election.master? lamp == some east && s.reachable? lamp == some true) = true := by
    decide +kernel
  simpa [Option.any_eq_true] using h

theorem aftermath_readmits_nothing :
    World.Throughout (fun w a => ¬ w.Readmits east lamp a) removing aftermathActs := by
  decide +kernel

end Sample

/-- The owner that has removed its device goes on without it, whatever it is told of the device. -/
theorem World.removing_stays :
    (∃ s, Sample.removing.cluster.site? Sample.east = some s ∧
      s.election.master? Sample.lamp = some Sample.east ∧ s.reachable? Sample.lamp = some true) ∧
    (∃ s, (Sample.aftermathActs.foldl World.step Sample.removing).cluster.site? Sample.east = some s ∧
      s.node.replica.records.get? Sample.lamp = none ∧
      s.node.roles.entries.get? Sample.lamp = none) ∧
    ∃ ns, (Sample.aftermathActs.foldl World.step Sample.removing).cluster.journal =
        Sample.removing.cluster.journal ++ ns ∧
      ∀ e, .posted Sample.east e ∈ ns → e.device.id ≠ Sample.lamp := by
  obtain ⟨s, hs, hd⟩ := Sample.keeping_stored
  obtain ⟨⟨s', hs', hrecord, hrole, _⟩, ns, hj, _, _, hposted⟩ :=
    removed_stays_removed Sample.pair_fresh (rfl : Sample.keeping = _) hs hd
      Sample.keeping_settled (rfl : Sample.removing = _) Sample.aftermath_readmits_nothing rfl
  exact ⟨Sample.removing_owns, ⟨s', hs', hrecord, hrole⟩, ns, hj, hposted⟩

end Mastership
