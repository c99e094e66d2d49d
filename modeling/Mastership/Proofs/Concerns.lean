import Mastership.Proofs.Abreast
import Mastership.Proofs.EventLog

namespace Mastership

/-- The events about a device that a member posted, in this order. -/
def eventsOf (n : NodeId) (d : DeviceId) (ns : List Notice) : List DeviceEvent :=
  postedBy n (about d ns)

variable {n m : NodeId} {d : DeviceId} {ns : List Notice}

theorem mem_posts {x : NodeId × DeviceEvent} : x ∈ posts ns ↔ .posted x.1 x.2 ∈ ns := by
  simp only [posts, List.mem_filterMap]
  constructor
  · rintro ⟨notice, hmem, hx⟩
    cases notice <;> simp_all [Notice.event?]
    rw [← hx]
    exact hmem
  · exact fun h => ⟨_, h, rfl⟩

theorem mem_eventsOf {e : DeviceEvent} :
    e ∈ eventsOf n d ns ↔ .posted n e ∈ ns ∧ e.device.id = d := by
  simp only [eventsOf, postedBy, List.mem_map, List.mem_filter, mem_posts, about,
    decide_eq_true_eq]
  constructor
  · rintro ⟨⟨k, e'⟩, ⟨⟨hmem, habout⟩, rfl⟩, rfl⟩
    exact ⟨hmem, habout⟩
  · rintro ⟨hmem, habout⟩
    exact ⟨(n, e), ⟨⟨hmem, habout⟩, rfl⟩, rfl⟩

theorem eventsOf_append (n : NodeId) (d : DeviceId) (ns ns' : List Notice) :
    eventsOf n d (ns ++ ns') = eventsOf n d ns ++ eventsOf n d ns' := by
  rw [eventsOf, about_append, postedBy_append]
  rfl

theorem eventsOf_of_ne (h : ∀ x ∈ posts ns, x.1 = m) (hne : m ≠ n) : eventsOf n d ns = [] := by
  refine postedBy_of_ne (fun x hx => h x ?_) hne
  rw [mem_posts] at hx ⊢
  exact List.mem_of_mem_filter hx

theorem eventsOf_announced (as : List Announcement) : eventsOf n d (as.map .announced) = [] := by
  rw [List.eq_nil_iff_forall_not_mem]
  intro e he
  simp [mem_eventsOf] at he

namespace Site

/-- The controller knows the same of the device as before. -/
structure Unmoved (d : DeviceId) (s s' : Site) : Prop where
  id : s'.node.id = s.node.id
  stamper : s'.node.clock.node = s.node.clock.node
  clock : s'.node.clock.entries.get? d = s.node.clock.entries.get? d
  record : s'.node.replica.records.get? d = s.node.replica.records.get? d
  role : s'.node.roles.entries.get? d = s.node.roles.entries.get? d

variable {s s' : Site}

theorem unmoved_of_node (h : s'.node = s.node) : s.Unmoved d s' :=
  ⟨by rw [h], by rw [h], by rw [h], by rw [h], by rw [h]⟩

theorem Agree.unmoved (h : Agree d (s.facing []) (s'.facing [])) : s.Unmoved d s' :=
  ⟨h.node.id, h.node.stamper, h.node.clock, h.node.record, h.node.role⟩

theorem Unmoved.device? (h : s.Unmoved d s') :
    s'.node.replica.device? d = s.node.replica.device? d := by
  rw [Replica.device?, h.record, Replica.device?]

theorem Unmoved.entry (h : s.Unmoved d s') : s'.node.roles.entry d = s.node.roles.entry d := by
  rw [RoleTable.entry, h.role, RoleTable.entry]

theorem change_unmoved (s : Site) (c : Change) : s.Unmoved d (s.change c) := by
  obtain ⟨_, _, hid, hroles⟩ := s.change_keeps c
  exact ⟨hid, by rw [change_clock], by rw [change_clock], by rw [change_replica], by rw [hroles]⟩

/-- A task leaves all devices alone but its own. -/
theorem run_spares {t : Task} (hf : s.node.replica.Filed t.device) (hd : d ≠ t.device) :
    s.Unmoved d (s.run t).1 ∧ about d (s.run t).1.journal = about d s.journal := by
  have h := (Abreast.start (.refl t.device s) hf).run.1.spares d hd
  exact ⟨h.unmoved, h.journal⟩

theorem answer_spares {p : Push} (hf : s.node.replica.Filed p.device) (hd : d ≠ p.device) :
    s.Unmoved d (s.answer p) ∧ about d (s.answer p).journal = about d s.journal := by
  have h := (Abreast.start (.refl p.device s) hf).answer.spares d hd
  exact ⟨h.unmoved, h.journal⟩

end Site

namespace World

variable {w : World} {s s' : Site} {pending : List (NodeId × Push)}

/-- The act is the member's, and about the device. -/
def Concerns (w : World) (n : NodeId) (d : DeviceId) : Act → Prop
  | .task m t => m = n ∧ t.device = d
  | .answer i => ∃ p, w.pending[i]? = some (n, p) ∧ p.device = d
  | _ => False

/-- What the member knows of the device and has posted about it stays as it is, and no push to it is
under way that was not before. -/
structure Spares (n : NodeId) (d : DeviceId) (w w' : World) : Prop where
  site : ∀ s', w'.cluster.site? n = some s' →
    ∃ s, w.cluster.site? n = some s ∧ s.Unmoved d s'
  events : eventsOf n d w'.cluster.journal = eventsOf n d w.cluster.journal
  pending : ∀ p, (n, p) ∈ w'.pending → p.device = d → (n, p) ∈ w.pending

theorem Spares.refl (n : NodeId) (d : DeviceId) (w : World) : w.Spares n d w :=
  ⟨fun s hs => ⟨s, hs, Site.unmoved_of_node rfl⟩, rfl, fun _ hp _ => hp⟩

theorem Kept.replica_filed (h : w.Kept) (hs : w.cluster.site? n = some s) (d : DeviceId) :
    s.node.replica.Filed d := by
  intro device hd
  obtain ⟨rec, hrec, rfl⟩ := Option.map_eq_some_iff.mp hd
  exact (h.tidy n s hs d rec hrec).id

/-- The site of another member may be exchanged. -/
theorem spares_of_other (hs : w.cluster.site? m = some s) (hm : m ≠ n) (hid : s.node.id = m)
    (hspeaks : s.Speaks s')
    (hp : ∀ p, (n, p) ∈ pending → p.device = d → (n, p) ∈ w.pending) :
    w.Spares n d ⟨w.cluster.setSite m s', pending⟩ := by
  obtain ⟨_, ns, hj, hposts⟩ := hspeaks
  refine ⟨fun x hx => ?_, ?_, hp⟩
  · rcases Cluster.site?_setSite hx with ⟨rfl, _⟩ | ⟨_, y, hy, rfl⟩
    · exact absurd rfl hm
    · exact ⟨y, hy, Site.unmoved_of_node rfl⟩
  · have hnone : eventsOf n d ns = [] := eventsOf_of_ne (hid ▸ hposts) hm
    change eventsOf n d s'.journal = _
    rw [hj, eventsOf_append, hnone, List.append_nil, Cluster.site?_journal hs]

/-- The member's own site may be exchanged for one at which nothing has become of the device. -/
theorem spares_of_unmoved (hs : w.cluster.site? n = some s) (hu : s.Unmoved d s')
    (hj : about d s'.journal = about d s.journal)
    (hp : ∀ p, (n, p) ∈ pending → p.device = d → (n, p) ∈ w.pending) :
    w.Spares n d ⟨w.cluster.setSite n s', pending⟩ := by
  refine ⟨fun x hx => ?_, ?_, hp⟩
  · rw [Cluster.site?_setSite_self] at hx
    obtain rfl := Option.some.inj hx
    exact ⟨s, hs, hu⟩
  · change postedBy n (about d s'.journal) = _
    rw [hj, Cluster.site?_journal hs]
    rfl

/-- What concerns neither the member nor the device leaves both alone. -/
theorem Kept.step_spares (h : w.Kept) {a : Act} (ha : ¬ w.Concerns n d a) :
    w.Spares n d (w.step a) := by
  have hsteps := w.steps a
  generalize w.step a = w' at hsteps ⊢
  cases hsteps with
  | idle => exact .refl n d w
  | @task m s t hs =>
    have hp : ∀ p, (n, p) ∈ w.pending ++ ((s.run t).2.map (m, ·)).toList → p.device = d →
        (n, p) ∈ w.pending := by
      intro p hp hd
      rcases List.mem_append.mp hp with hp | hp
      · exact hp
      · obtain ⟨q, hq, he⟩ := Option.map_eq_some_iff.mp (Option.mem_toList.mp hp)
        cases he
        obtain ⟨ms, hdecides⟩ := s.run_decides t
        exact absurd ⟨rfl, (hdecides.device p hq).symm.trans hd⟩ ha
    by_cases hm : m = n
    · subst hm
      obtain ⟨hu, hj⟩ := Site.run_spares (h.replica_filed hs _) fun hd => ha ⟨rfl, hd.symm⟩
      exact spares_of_unmoved hs hu hj hp
    · exact spares_of_other hs hm (h.id m s hs) (s.run_follows t).1 hp
  | @change m s c hs =>
    by_cases hm : m = n
    · subst hm
      exact spares_of_unmoved hs (s.change_unmoved c) (by rw [(s.change_keeps c).2.1])
        fun p hp _ => hp
    · exact spares_of_other hs hm (h.id m s hs) (s.change_follows c).1 fun p hp _ => hp
  | @answer m s i p hi hs =>
    have hp : ∀ q, (n, q) ∈ w.pending.eraseIdx i → q.device = d → (n, q) ∈ w.pending :=
      fun q hq _ => List.mem_of_mem_eraseIdx hq
    by_cases hm : m = n
    · subst hm
      obtain ⟨hu, hj⟩ := Site.answer_spares (h.replica_filed hs _) fun hd => ha ⟨p, hi, hd.symm⟩
      exact spares_of_unmoved hs hu hj hp
    · exact spares_of_other hs hm (h.id m s hs) (s.answer_speaks p) hp
  | lost hi hs =>
    exact ⟨fun s hs => ⟨s, hs, Site.unmoved_of_node rfl⟩, rfl,
      fun q hq _ => List.mem_of_mem_eraseIdx hq⟩
  | moved a move =>
    refine ⟨fun s hs => ?_, ?_, fun _ hp _ => hp⟩
    · obtain ⟨s₀, hs₀, hn⟩ := site?_moveElection hs
      exact ⟨s₀, hs₀, Site.unmoved_of_node hn⟩
    · simp only [Cluster.moveElection, eventsOf_append, eventsOf_announced, List.append_nil]

/-- What comes of an act that concerns the member and the device: a task or an answer at the member,
if there is such a member, or else at most a push whose answer is lost. -/
inductive Concerned (w : World) (n : NodeId) (d : DeviceId) : Act → World → Prop
  | absent {a : Act} {pending : List (NodeId × Push)} : w.cluster.site? n = none →
      (∀ x ∈ pending, x ∈ w.pending) → Concerned w n d a ⟨w.cluster, pending⟩
  | task {s : Site} {t : Site.Task} : w.cluster.site? n = some s → t.device = d →
      Concerned w n d (.task n t)
        ⟨w.cluster.setSite n (s.run t).1, w.pending ++ ((s.run t).2.map (n, ·)).toList⟩
  | answer {s : Site} {i : Nat} {p : Push} : w.cluster.site? n = some s →
      w.pending[i]? = some (n, p) → p.device = d →
      Concerned w n d (.answer i) ⟨w.cluster.setSite n (s.answer p), w.pending.eraseIdx i⟩

theorem Concerns.step {a : Act} (h : w.Concerns n d a) : w.Concerned n d a (w.step a) := by
  cases a with
  | task m t =>
    obtain ⟨rfl, hd⟩ := h
    cases hs : w.cluster.site? m with
    | none =>
      rw [step_task_of_none hs]
      exact .absent hs fun _ => id
    | some s =>
      rw [step_task hs]
      exact .task hs hd
  | answer i =>
    obtain ⟨p, hi, hd⟩ := h
    cases hs : w.cluster.site? n with
    | none =>
      rw [step_answer_of_none hi hs]
      exact .absent hs fun _ => List.mem_of_mem_eraseIdx
    | some s =>
      rw [step_answer hi hs]
      exact .answer hs hi hd
  | _ => exact h.elim

/-- Each of the acts satisfies `P` in the world in which it is done. -/
def Throughout (P : World → Act → Prop) : World → List Act → Prop
  | _, [] => True
  | w, a :: as => P w a ∧ Throughout P (w.step a) as

instance decidableThroughout (P : World → Act → Prop) [∀ w a, Decidable (P w a)] :
    ∀ (w : World) (as : List Act), Decidable (Throughout P w as)
  | _, [] => .isTrue trivial
  | w, a :: as =>
    have := decidableThroughout P (w.step a) as
    inferInstanceAs (Decidable (P w a ∧ Throughout P (w.step a) as))

section Throughout

variable {P Q : World → Act → Prop} {as : List Act}

theorem Throughout.imp (hi : ∀ w a, P w a → Q w a) (h : Throughout P w as) :
    Throughout Q w as := by
  induction as generalizing w with
  | nil => trivial
  | cons a as ih => exact ⟨hi w a h.1, ih h.2⟩

/-- What each of the acts preserves, all of them preserve. -/
theorem Throughout.run {I : World → Prop} (hs : ∀ w a, I w → P w a → I (w.step a)) (hw : I w)
    (h : Throughout P w as) : I (as.foldl World.step w) := by
  induction as generalizing w with
  | nil => exact hw
  | cons a as ih => exact ih (hs w a hw h.1) h.2

end Throughout

/-- What is found of each act in the world in which it is done, in this order. -/
def gather {α : Type} (f : World → Act → List α) : World → List Act → List α
  | _, [] => []
  | w, a :: as => f w a ++ gather f (w.step a) as

theorem gather_append {α : Type} (f : World → Act → List α) (w : World) (as bs : List Act) :
    gather f w (as ++ bs) = gather f w as ++ gather f (as.foldl World.step w) bs := by
  induction as generalizing w with
  | nil => rfl
  | cons a as ih => simp only [List.cons_append, gather, List.foldl_cons, ih, List.append_assoc]

end World
end Mastership
