import Mastership.Proofs.Tidings

namespace Mastership

/-- Tasks that come to a decision about a role, which may be pushed. -/
def Site.Task.decides : Site.Task → Bool
  | .connect .. | .reassert .. | .check _ | .handle _ => true
  | _ => false

namespace Site

variable {d : DeviceId}

theorem guarded_entry {s : Site} (slot : Nat) {f : Site → Site}
    (hs : s.node.roles.entry d = {}) (hf : (f s).node.roles.entry d = {}) :
    (s.guarded slot f).1.node.roles.entry d = {} := by
  unfold guarded
  split
  · exact hs
  · exact hf

/-- A device of which nothing is known stays so in a task that comes to no decision. -/
theorem run_unknown {s : Site} {t : Task} (ht : t.decides = false)
    (hs : s.node.roles.entry t.device = {}) :
    (s.run t).1.node.roles.entry t.device = {} ∧ (s.run t).2 = none := by
  cases t with
  | connect | reassert | check | handle => cases ht
  | disconnect slot d =>
    refine ⟨?_, rfl⟩
    simp only [run, disconnect]
    split
    · exact hs
    · exact disconnected_entry s d
  | setPorts slot d ps =>
    exact ⟨guarded_entry slot hs (by rw [portsReported_roles]; exact hs), rfl⟩
  | setPort slot d p =>
    exact ⟨guarded_entry slot hs (by rw [portReported_roles]; exact hs), rfl⟩
  | setStatistics slot d ss => exact ⟨guarded_entry slot hs hs, rfl⟩
  | roleReply slot d requested response =>
    dsimp only [Task.device] at hs ⊢
    refine ⟨guarded_entry slot hs ?_, rfl⟩
    rcases roleReplied_eq s d requested response with h | h
    · rw [h, relinquish_roles, RoleTable.entry_clear, hs]
    · rw [h, hs]
  | remove d =>
    dsimp only [Task.device, run] at hs ⊢
    refine ⟨?_, rfl⟩
    rcases remove_roles s d with h | h
    · rw [h, hs]
    · rw [h, RoleTable.entry_forget]

/-- A stored device that is removed is forgotten. -/
theorem remove_entry {s : Site} (h : s.stored d) : (s.remove d).node.roles.entry d = {} := by
  obtain ⟨rec, hrec⟩ : ∃ rec, s.node.replica.records.get? d = some rec := by
    simpa [stored, Replica.device?, Option.isSome_iff_exists] using h
  simp [Site.remove, Replica.remove, hrec, post, note, RoleTable.entry_forget]

/-- No answer but an accepted push's makes anything known of a device. -/
theorem answer_unknown {s : Site} {p : Push} (hs : s.node.roles.entry d = {})
    (ha : p.device = d → s.reply p ≠ .ok ()) : (s.answer p).node.roles.entry d = {} := by
  by_cases hd : p.device = d
  · subst hd
    rw [answer_entry]
    cases hr : s.reply p with
    | error e => rw [hs]
    | ok => exact absurd hr (ha rfl)
  · rw [(s.answer_does p).role_ne (Ne.symm hd), hs]

/-- The role of a push is new to who knows of none. -/
theorem record_unknown {roles : RoleTable} (h : roles.entry d = {}) {role : Role}
    (hr : role ≠ .none) (epoch : Option Nat) :
    (roles.record d role epoch).2 = true ∧ ((roles.record d role epoch).1.entry d).role = role := by
  have he : ∀ n, epoch = some n → (roles.entry d).epoch ≤ n := by simp [h]
  refine ⟨?_, by rw [RoleTable.entry_record _ _ _ he]⟩
  cases epoch <;> simp [RoleTable.record, h, hr.symm]

end Site

namespace World

variable {w w' w'' : World} {n m : NodeId} {d : DeviceId} {a : Act} {i : Nat} {p : Push}

/-- Nobody decides about the device for the member. -/
def Act.Leaves (n : NodeId) (d : DeviceId) : Act → Prop
  | .task m t => m = n → t.device = d → t.decides = false
  | _ => True

/-- The member forgets a device that disconnects, unless the callback is refused, and a stored
device that is removed. -/
inductive Forgets (w : World) (n : NodeId) (d : DeviceId) : Act → Prop
  | disconnect {s : Site} {slot : Nat} : w.cluster.site? n = some s → s.refusal? slot = none →
      Forgets w n d (.task n (.disconnect slot d))
  | remove {s : Site} : w.cluster.site? n = some s → s.stored d →
      Forgets w n d (.task n (.remove d))

theorem Forgets.honest (h : w.Forgets n d a) : a.Honest := by
  cases h <;> trivial

/-- Devices are stored under their ids, and NONE is never pushed. -/
structure Filed (w : World) : Prop where
  devices : ∀ n s, w.cluster.site? n = some s → ∀ d, s.Filed d
  roles : ∀ x ∈ w.pending, x.2.role ≠ .none

theorem filed_of_fresh {c : Cluster} (h : c.Fresh) : Filed ⟨c, []⟩ := by
  refine ⟨fun n s hs d device hd => ?_, by simp⟩
  obtain ⟨node, hn, rfl⟩ := Option.map_eq_some_iff.mp hs
  simp [(h.nodes n node hn).replica, Replica.device?] at hd

/-- A member's site may be exchanged for one that keeps its devices filed. -/
theorem Filed.setSite (h : w.Filed) {s s' : Site} (hs : w.cluster.site? n = some s) {ms ps}
    (hd : Site.Does d ms ps s s') (hf : s.Filed d → s'.Filed d) {pending : List (NodeId × Push)}
    (hp : ∀ x ∈ pending, x.2.role ≠ .none) : Filed ⟨w.cluster.setSite n s', pending⟩ := by
  refine ⟨fun m x hx d' => ?_, hp⟩
  rcases Cluster.site?_setSite hx with ⟨rfl, rfl⟩ | ⟨_, y, hy, rfl⟩
  · by_cases hdev : d' = d
    · subst hdev
      exact hf (h.devices _ s hs d')
    · intro device hdevice
      rw [hd.device?_ne hdev] at hdevice
      exact h.devices _ s hs d' device hdevice
  · exact h.devices m y hy d'

theorem Filed.step (h : w.Filed) (a : Act) : (w.step a).Filed := by
  have hsteps := w.steps a
  generalize w.step a = w' at hsteps ⊢
  cases hsteps with
  | idle => exact h
  | @task n s t hs =>
    obtain ⟨ms, hd⟩ := s.run_decides t
    refine h.setSite hs hd.does (s.run_discreet t).filed fun x hx => ?_
    rcases List.mem_append.mp hx with hx | hx
    · exact h.roles x hx
    · obtain ⟨p, hp, rfl⟩ := Option.map_eq_some_iff.mp (Option.mem_toList.mp hx)
      exact (s.run_marks t).role_ne_none hp
  | @change n s c hs =>
    refine ⟨fun m x hx d => ?_, h.roles⟩
    rcases Cluster.site?_setSite hx with ⟨rfl, rfl⟩ | ⟨_, y, hy, rfl⟩
    · exact (h.devices _ s hs d).of_replica (s.change_replica c)
    · exact h.devices m y hy d
  | @answer n s i p hi hs =>
    exact h.setSite hs (s.answer_does p) Site.answer_filed fun x hx =>
      h.roles x (List.mem_of_mem_eraseIdx hx)
  | lost => exact ⟨h.devices, fun x hx => h.roles x (List.mem_of_mem_eraseIdx hx)⟩
  | moved =>
    refine ⟨fun n s hs d => ?_, h.roles⟩
    obtain ⟨s₀, hs₀, hn⟩ := site?_moveElection hs
    exact (h.devices n s₀ hs₀ d).of_replica (by rw [hn])

theorem Reachable.filed (h : w.Reachable) : w.Filed := by
  induction h with
  | fresh hc => exact filed_of_fresh hc
  | step _ _ ih => exact ih.step _

/-- On the way nothing but NONE was made known as the role of the device at the member. -/
def Untold (n : NodeId) (d : DeviceId) (w w' : World) : Prop :=
  ∃ ns, w'.cluster.journal = w.cluster.journal ++ ns ∧ ∀ r, (n, d, r) ∈ told ns → r = .none

theorem Untold.trans (h : Untold n d w w') (h' : Untold n d w' w'') : Untold n d w w'' := by
  obtain ⟨ns, hj, ht⟩ := h
  obtain ⟨ns', hj', ht'⟩ := h'
  refine ⟨ns ++ ns', by rw [hj', hj, List.append_assoc], fun r hr => ?_⟩
  rw [told_append] at hr
  exact (List.mem_append.mp hr).elim (ht r) (ht' r)

theorem untold_of_journal (h : w'.cluster.journal = w.cluster.journal) : Untold n d w w' :=
  ⟨[], by simp [h]⟩

/-- No role but NONE is made known by a task. -/
theorem task_untold {s : Site} (hs : w.cluster.site? m = some s) (t : Site.Task)
    (pending : List (NodeId × Push)) :
    Untold n d w ⟨w.cluster.setSite m (s.run t).1, pending⟩ := by
  obtain ⟨ns, hj, ht⟩ := (s.run_discreet t).told
  exact ⟨ns, Cluster.site?_journal hs ▸ hj, fun r hr => ht _ hr⟩

/-- An answer makes no role known of a device, but for the role that the device has accepted. -/
theorem answer_untold (hf : w.Filed) {s : Site} (hs : w.cluster.site? m = some s)
    (hid : s.node.id = m) (ha : s.reply p = .ok () → m = n → p.device ≠ d)
    (pending : List (NodeId × Push)) :
    Untold n d w ⟨w.cluster.setSite m (s.answer p), pending⟩ := by
  have hj := Cluster.site?_journal hs
  cases hr : s.reply p with
  | error e =>
    obtain ⟨ns, hns, ht⟩ := Site.answer_error_told hr
    exact ⟨ns, hj ▸ hns, fun r h => ht _ h⟩
  | ok =>
    obtain ⟨ns, hns, ht⟩ := Site.answer_ok_told (hf.devices m s hs p.device) hr
    refine ⟨ns, hj ▸ hns, fun r h => ?_⟩
    rw [ht, hid] at h
    split at h
    · obtain ⟨rfl, rfl, -⟩ : n = m ∧ d = p.device ∧ r = p.role := by simpa using h
      exact absurd rfl (ha hr rfl)
    · cases h

/-- Since the world `w` the member has told of no role of the device, of which it knows nothing, and
whatever it still waits for from the device, it waited for then. -/
structure Forgotten (n : NodeId) (d : DeviceId) (w w' : World) : Prop where
  unknown : ∃ s, w'.cluster.site? n = some s ∧ s.node.roles.entry d = {}
  pending : ∀ p, (n, p) ∈ w'.pending → p.device = d → (n, p) ∈ w.pending
  untold : Untold n d w w'

/-- The device accepts a push of MASTER or STANDBY, which the member applies, and tells of if it has
stored the device. Nothing that the member still knows tells it that it has forgotten the device since
it decided. -/
structure Revives (w : World) (i : Nat) (n : NodeId) (p : Push) : Prop where
  pending : w.pending[i]? = some (n, p)
  role : p.role ≠ .none
  accepted : ∃ s, w.cluster.site? n = some s ∧ s.reply p = .ok ()
  applied : ∃ s, (w.step (.answer i)).cluster.site? n = some s ∧ s.applied p.device = p.role ∧
    ∃ ns, (w.step (.answer i)).cluster.journal = w.cluster.journal ++ ns ∧
      told ns = if s.stored p.device then [(n, p.device, p.role)] else []

theorem Forgets.forgotten (h : w.Forgets n d a) : Forgotten n d w (w.step a) := by
  cases h with
  | @disconnect s slot hs hr =>
    rw [step_task hs]
    refine ⟨⟨_, Cluster.site?_setSite_self _ _ _, ?_⟩, ?_, task_untold hs _ _⟩
    · simp only [Site.run, Site.disconnect, hr]
      exact Site.disconnected_entry s d
    · intro p hp _
      simpa [Site.run] using hp
  | @remove s hs hd =>
    rw [step_task hs]
    refine ⟨⟨_, Cluster.site?_setSite_self _ _ _, Site.remove_entry hd⟩, ?_, task_untold hs _ _⟩
    intro p hp _
    simpa [Site.run] using hp

/-- A step of another member, or one that leaves the entry as it is, makes nothing known. -/
theorem Forgotten.unknown_setSite (h : Forgotten n d w w') {s s' : Site}
    (hs : w'.cluster.site? m = some s)
    (he : m = n → s.node.roles.entry d = {} → s'.node.roles.entry d = {}) :
    ∃ x, (w'.cluster.setSite m s').site? n = some x ∧ x.node.roles.entry d = {} := by
  obtain ⟨y, hy, hentry⟩ := h.unknown
  obtain ⟨x, hx, ⟨rfl, rfl⟩ | ⟨_, rfl⟩⟩ := Cluster.exists_site?_setSite hy m s'
  · obtain rfl := Option.some.inj (hy.symm.trans hs)
    exact ⟨_, hx, he rfl hentry⟩
  · exact ⟨_, hx, hentry⟩

/-- What is forgotten stays so where nothing is known, made known or started. -/
theorem Forgotten.stays (h : Forgotten n d w w') (hu : Untold n d w' w'')
    (hn : ∃ s, w''.cluster.site? n = some s ∧ s.node.roles.entry d = {})
    (hp : ∀ x ∈ w''.pending, x ∈ w'.pending) : Forgotten n d w w'' :=
  ⟨hn, fun p hp' hd => h.pending p (hp _ hp') hd, h.untold.trans hu⟩

theorem Forgotten.task (h : Forgotten n d w w') {s : Site} (hs : w'.cluster.site? m = some s)
    {t : Site.Task} (hl : Act.Leaves n d (.task m t)) :
    Forgotten n d w ⟨w'.cluster.setSite m (s.run t).1,
      w'.pending ++ ((s.run t).2.map (m, ·)).toList⟩ := by
  obtain ⟨ms, hd⟩ := s.run_decides t
  refine ⟨h.unknown_setSite hs fun hm he => ?_, ?_, h.untold.trans (task_untold hs t _)⟩
  · by_cases hdev : t.device = d
    · subst hdev
      exact (Site.run_unknown (hl hm rfl) he).1
    · rw [hd.does.role_ne (Ne.symm hdev), he]
  · intro p hp hpd
    rcases List.mem_append.mp hp with hp | hp
    · exact h.pending p hp hpd
    · obtain ⟨q, hq, heq⟩ := Option.map_eq_some_iff.mp (Option.mem_toList.mp hp)
      obtain ⟨rfl, rfl⟩ := Prod.mk.inj heq
      obtain ⟨x, hx, he⟩ := h.unknown
      obtain rfl := Option.some.inj (hx.symm.trans hs)
      -- The push comes of a decision about the device, and there is none.
      have hdev := (hd.device q hq).symm.trans hpd
      rw [(Site.run_unknown (hl rfl hdev) (hdev ▸ he)).2] at hq
      cases hq

/-- Who knows nothing of a device gets to know the role that the device accepts. -/
theorem revives_of_unknown (hf : w.Filed) {s : Site} (hi : w.pending[i]? = some (n, p))
    (hs : w.cluster.site? n = some s) (hid : s.node.id = n)
    (he : s.node.roles.entry p.device = {}) (hr : s.reply p = .ok ()) : w.Revives i n p := by
  have hne := hf.roles _ (List.mem_of_getElem? hi)
  obtain ⟨hchanged, hrole⟩ := Site.record_unknown he hne p.epoch
  obtain ⟨ns, hj, ht⟩ := Site.answer_ok_told (hf.devices n s hs p.device) hr
  refine ⟨hi, hne, ⟨s, hs, hr⟩, s.answer p, ?_, ?_, ns, ?_, ?_⟩
  · rw [step_answer hi hs, Cluster.site?_setSite_self]
  · rw [Site.applied, RoleTable.role, Site.answer_entry, hr]
    exact hrole
  · rw [step_answer hi hs, ← Cluster.site?_journal hs]
    exact hj
  · simpa [hchanged, hid] using ht

/-- An answer brings back a role of the device, or what was forgotten stays forgotten. -/
theorem Forgotten.answer (h : Forgotten n d w w') (hl : w'.Lawful) (hf : w'.Filed) {s : Site}
    (hi : w'.pending[i]? = some (m, p)) (hs : w'.cluster.site? m = some s) :
    Forgotten n d w ⟨w'.cluster.setSite m (s.answer p), w'.pending.eraseIdx i⟩ ∨
      p.device = d ∧ w'.Revives i n p := by
  have hid := hl.id m s hs
  by_cases hx : m = n ∧ p.device = d ∧ s.reply p = .ok ()
  · obtain ⟨rfl, rfl, hr⟩ := hx
    obtain ⟨x, hx, he⟩ := h.unknown
    obtain rfl := Option.some.inj (hx.symm.trans hs)
    exact .inr ⟨rfl, revives_of_unknown hf hi hs hid he hr⟩
  · have hne : s.reply p = .ok () → m = n → p.device ≠ d := fun hr hm hd => hx ⟨hm, hd, hr⟩
    refine .inl (h.stays (answer_untold hf hs hid hne _) ?_ fun x => List.mem_of_mem_eraseIdx)
    exact h.unknown_setSite hs fun hm he =>
      Site.answer_unknown he fun hd hr => hne hr hm hd

theorem Forgotten.step (h : Forgotten n d w w') (hr : w'.Reachable) (hl : a.Leaves n d) :
    Forgotten n d w (w'.step a) ∨ ∃ i p, a = .answer i ∧ p.device = d ∧ w'.Revives i n p := by
  have hsteps := w'.steps a
  generalize w'.step a = w'' at hsteps ⊢
  cases hsteps with
  | idle => exact .inl h
  | task t hs => exact .inl (h.task hs hl)
  | @change m s c hs =>
    obtain ⟨_, hj, _, hroles⟩ := s.change_keeps c
    refine .inl (h.stays (untold_of_journal (hj.trans (Cluster.site?_journal hs))) ?_ fun _ => id)
    exact h.unknown_setSite hs fun _ he => by rw [hroles, he]
  | answer hi hs =>
    refine (h.answer hr.lawful hr.filed hi hs).imp_right ?_
    rintro ⟨hd, hrev⟩
    exact ⟨_, _, rfl, hd, hrev⟩
  | lost =>
    exact .inl (h.stays (untold_of_journal rfl) h.unknown fun x => List.mem_of_mem_eraseIdx)
  | moved _ move =>
    obtain ⟨s, hs, he⟩ := h.unknown
    obtain ⟨node, hn, rfl⟩ := Option.map_eq_some_iff.mp hs
    have hsite : ∃ s, (w'.cluster.moveElection move).site? n = some s ∧
        s.node.roles.entry d = {} := ⟨_, Option.map_eq_some_iff.mpr ⟨node, hn, rfl⟩, he⟩
    exact .inl (h.stays ⟨_, rfl, by simp⟩ hsite fun _ => id)

/-- Among the acts since the world `w₁` one has brought the role back: the device accepted a push
that it had not answered yet in the world `w`. Until then the device stayed forgotten. -/
inductive Revived (n : NodeId) (d : DeviceId) (w w₁ : World) (as : List Act) : Prop
  | intro (before : List Act) {after : List Act} {i : Nat} {p : Push} :
      as = before ++ .answer i :: after → p.device = d → (n, p) ∈ w.pending →
      Forgotten n d w (before.foldl World.step w₁) → (before.foldl World.step w₁).Revives i n p →
      Revived n d w w₁ as

theorem Forgotten.run (h : Forgotten n d w w') (hr : w'.Reachable) {as : List Act}
    (ha : ∀ a ∈ as, a.Honest) (hl : ∀ a ∈ as, a.Leaves n d) :
    Forgotten n d w (as.foldl World.step w') ∨ Revived n d w w' as := by
  induction as generalizing w' with
  | nil => exact .inl h
  | cons a as ih =>
    rcases h.step hr (hl a List.mem_cons_self) with hs | ⟨i, p, rfl, hp, hrev⟩
    · have hr' := hr.step (ha a List.mem_cons_self)
      refine (ih hs hr' (fun b hb => ha b (List.mem_cons_of_mem a hb))
        fun b hb => hl b (List.mem_cons_of_mem a hb)).imp_right ?_
      rintro ⟨before, rfl, hp, hpending, hf, hrev⟩
      exact .intro (a :: before) rfl hp hpending hf hrev
    · exact .inr (.intro [] rfl hp (h.pending p (List.mem_of_getElem? hrev.pending) hp) h hrev)

/-- A device that is forgotten stays so, as long as the member does not decide about it anew and the
device accepts none of the pushes that it had not answered then. If it does accept one, its role is
back, and told of if the device is stored. -/
theorem forgotten_until_accepted (h : w.Reachable) (hf : w.Forgets n d a) (as : List Act)
    (ha : ∀ b ∈ as, b.Honest) (hl : ∀ b ∈ as, b.Leaves n d) :
    Forgotten n d w (as.foldl World.step (w.step a)) ∨ Revived n d w (w.step a) as :=
  hf.forgotten.run (h.step hf.honest) ha hl

end World

namespace Sample

def dismissedActs : List World.Act := joins east ++ [.relinquish east lamp]

/-- The member has got the device, and was made to give it up. -/
def dismissed : World := dismissedActs.foldl World.step ⟨pair, []⟩

theorem dismissed_reachable : dismissed.Reachable := by
  apply (World.Reachable.fresh pair_fresh).run
  rw [dismissedActs, List.forall_mem_append]
  exact ⟨joins_honest east, by simp [World.Act.Honest]⟩

/-- An audit claims the device anew, which has not answered yet to be MASTER. -/
def claimed : World := dismissed.step (.task east (.check lamp))

theorem claimed_reachable : claimed.Reachable := dismissed_reachable.step trivial

theorem claimed_forgets : claimed.Forgets east lamp (.task east (.disconnect 0 lamp)) := by
  have h : (claimed.cluster.site? east).any (·.refusal? 0 == none) = true := by decide +kernel
  obtain ⟨s, hs, hr⟩ := (Option.any_eq_true _ _).mp h
  exact .disconnect hs (by simpa using hr)

/-- The push that the audit has left. -/
def claim : Push := ⟨0, lamp, .master, some 2, .settle⟩

theorem dismissed_claims :
    ∃ s, dismissed.cluster.site? east = some s ∧ (s.check lamp).2 = some claim := by
  have h : (dismissed.cluster.site? east).any
      (fun s => (s.check lamp).2 == some claim) = true := by decide +kernel
  simpa [Option.any_eq_true] using h

/-- The device has disconnected, and the audit's push gets to it all the same. -/
def departed : World := claimed.step (.task east (.disconnect 0 lamp))

theorem departed_pending : departed.pending = [(east, claim)] := by decide +kernel

theorem departed_accepts :
    ∃ s, departed.cluster.site? east = some s ∧ s.reply claim = .ok () := by
  have h : (departed.cluster.site? east).any (fun s => s.reply claim == .ok ()) = true := by
    decide +kernel
  simpa [Option.any_eq_true] using h

theorem departed_returns : ∃ s, (departed.step (.answer 0)).cluster.site? east = some s ∧
    s.applied lamp = .master := by
  have h : ((departed.step (.answer 0)).cluster.site? east).any
      (fun s => s.applied lamp == .master) = true := by decide +kernel
  simpa [Option.any_eq_true] using h

end Sample

/-- The role of a device that has disconnected comes back with the answer to an audit. -/
theorem World.departed_revived :
    Revived Sample.east Sample.lamp Sample.claimed Sample.departed [.answer 0] := by
  have h := forgotten_until_accepted Sample.claimed_reachable Sample.claimed_forgets [.answer 0]
    (by simp [Act.Honest]) (by simp [Act.Leaves])
  refine h.resolve_left fun hf => ?_
  obtain ⟨s, hs, he⟩ := hf.unknown
  obtain ⟨t, ht, hm⟩ := Sample.departed_returns
  obtain rfl := Option.some.inj (hs.symm.trans ht)
  rw [Site.applied, RoleTable.role, he] at hm
  cases hm

/-- A role that is forgotten while an audit waits for the device does not always stay forgotten. -/
theorem World.forgotten_role_returns : ¬ ∀ w₀ : World, w₀.Reachable →
    ∀ n d s p, w₀.cluster.site? n = some s → (s.check d).2 = some p →
    ∀ (w : World) (before : List Act), (∀ b ∈ before, b.Honest) →
      w = before.foldl World.step (w₀.step (.task n (.check d))) → (n, p) ∈ w.pending →
    ∀ (v : World) (a : Act) (after : List Act), w.Forgets n d a →
      (∀ b ∈ after, b.Honest) → (∀ b ∈ after, b.Leaves n d) →
      v = after.foldl World.step (w.step a) →
    ∀ i x y, v.pending[i]? = some (n, p) → v.cluster.site? n = some x → x.reply p = .ok () →
      (v.step (.answer i)).cluster.site? n = some y →
      y.applied d = .none ∧ Untold n d w (v.step (.answer i)) := by
  intro h
  obtain ⟨s, hs, hp⟩ := Sample.dismissed_claims
  obtain ⟨x, hx, hr⟩ := Sample.departed_accepts
  obtain ⟨y, hy, hm⟩ := Sample.departed_returns
  have hpending : (Sample.east, Sample.claim) ∈ Sample.claimed.pending := by decide +kernel
  have hnone := (h Sample.dismissed Sample.dismissed_reachable _ _ s _ hs hp Sample.claimed []
    (by simp) rfl hpending Sample.departed _ [] Sample.claimed_forgets (by simp) (by simp) rfl
    0 x y (by rw [Sample.departed_pending]; rfl) hx hr hy).1
  rw [hm] at hnone
  cases hnone

end Mastership
