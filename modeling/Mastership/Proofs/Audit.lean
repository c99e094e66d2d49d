import Mastership.Proofs.Outcomes
import Mastership.Proofs.World

namespace Mastership
namespace Site

variable {d : DeviceId} {ms : List Seat.Move} {ps : List Push} {s s' s'' : Site}

/-- The role that the term of a device gives to this controller. -/
def due (s : Site) (d : DeviceId) : Role :=
  if s.owns (s.election.term? d) then .master else .standby

/-- The role last applied to a device is the one that is due. -/
def InRole (s : Site) (d : DeviceId) : Prop := s.applied d = s.due d

instance (s : Site) (d : DeviceId) : Decidable (s.InRole d) :=
  inferInstanceAs (Decidable (s.applied d = s.due d))

theorem targetRole_asked (owned : Bool) :
    targetRole .none owned = if owned then .master else .standby := by
  simp [targetRole]

theorem electedRole_eq_none_iff : s.electedRole d = .none ↔ s.node.id ∉ (s.election.seat d).queue :=
  Seat.roleOf_eq_none_iff

/-- Nothing has happened about a device that concerns its controller: at most, others have come to
wait for it. -/
structure Undisturbed (d : DeviceId) (s s' : Site) : Prop where
  id : s'.node.id = s.node.id
  request : s'.node.faults.request = s.node.faults.request
  reachable : s'.reachable? d = s.reachable? d
  applied : s'.applied d = s.applied d
  elected : s'.electedRole d = .none ↔ s.electedRole d = .none
  term : s.electedRole d ≠ .none → s'.election.term? d = s.election.term? d

theorem Undisturbed.refl (d : DeviceId) (s : Site) : Undisturbed d s s :=
  ⟨rfl, rfl, rfl, rfl, .rfl, fun _ => rfl⟩

theorem Undisturbed.trans (h : Undisturbed d s s') (h' : Undisturbed d s' s'') :
    Undisturbed d s s'' where
  id := h'.id.trans h.id
  request := h'.request.trans h.request
  reachable := h'.reachable.trans h.reachable
  applied := h'.applied.trans h.applied
  elected := h'.elected.trans h.elected
  term he := (h'.term (mt h.elected.mp he)).trans (h.term he)

theorem Undisturbed.due_eq (h : Undisturbed d s s') (he : s.electedRole d ≠ .none) :
    s'.due d = s.due d := by
  have ho : s'.owns (s'.election.term? d) = s.owns (s.election.term? d) := by
    simp only [owns, h.term he, h.id]
  rw [due, due, ho]

theorem Undisturbed.inRole_iff (h : Undisturbed d s s') (he : s.electedRole d ≠ .none) :
    s'.InRole d ↔ s.InRole d := by
  rw [InRole, InRole, h.due_eq he, h.applied]

theorem Does.undisturbed (h : Does d ms ps s s') {d' : DeviceId} (hd : d' ≠ d) :
    Undisturbed d' s s' := by
  have hseat := h.seat_ne hd
  refine ⟨h.id, h.request, h.reachable? d', h.applied_ne hd, ?_, ?_⟩
  · rw [electedRole_eq_none_iff, electedRole_eq_none_iff, hseat, h.id]
  · intro _
    rw [Election.term?, Election.term?, hseat]

theorem undisturbed_of_election {e : Election} (he : e = s.election) (journal : List Notice) :
    Undisturbed d s { s with election := e, journal } := by
  subst he
  exact ⟨rfl, rfl, rfl, rfl, .rfl, fun _ => rfl⟩

theorem requests_node (s : Site) : ∀ m ∈ s.requests, m.node = s.node.id := by
  intro m hm
  simp only [requests] at hm
  split at hm
  · cases hm
  · rw [List.mem_singleton.mp hm]
    rfl

/-- Another controller asks for this device or for another one. -/
theorem undisturbed_of_requests {t : Site} {e : Election} (ho : (t.election.seat d).Orderly)
    {d' : DeviceId} (he : e = (t.election.moves d' s.requests).1) (hid : t.node.id ≠ s.node.id)
    (journal : List Notice) : Undisturbed d t { t with election := e, journal } := by
  subst he
  have hqueue := Election.mem_queue_moves_of_ne (e := t.election) (d := d') s.requests_node hid d
  refine ⟨rfl, rfl, rfl, rfl, ?_, ?_⟩
  · rw [electedRole_eq_none_iff, electedRole_eq_none_iff]
    exact not_congr hqueue
  · intro hq
    rw [ne_eq, electedRole_eq_none_iff, not_not] at hq
    by_cases hd : d = d'
    · subst hd
      simp only [requests, Election.term?]
      split
      · rfl
      · rw [Election.moves_singleton, Election.seat_move_self]
        exact Seat.term?_request _ (ho.master_ne_none hq)
    · simp only [Election.term?, Election.seat_moves_ne _ hd]

theorem check_skips (h : s.reachable? d ≠ some true ∨ s.electedRole d ≠ .none) :
    s.check d = (s, none) := by
  unfold check
  split
  · next hr => exact if_neg (h.resolve_left (not_not.mpr hr))
  · rfl

theorem Truthful.check_pushes (ht : s.Truthful) (hr : s.reachable? d = some true)
    (he : s.electedRole d = .none) :
    ∃ s' p, s.check d = (s', some p) ∧ Pushes d s.requests .none .settle s s' p ∧
      p.epoch = (s'.election.term? d).map Term.epoch := by
  have hc : s.check d = s.reassert d .none := by simp only [Site.check, hr, he, if_true]
  obtain ⟨s', p, hp, h⟩ := ht.reassert_pushes (slotFor_of_line (reachable?_served hr)) .none
  obtain ⟨ms, hd⟩ := check_decides s d
  rw [hc, hp] at hd
  refine ⟨s', p, hc.trans hp, by simpa [asking] using h, ?_⟩
  rw [hd.epoch p rfl, h.truthful.term?_eq]

/-- Whoever asks for a device comes to queue for it. -/
theorem Pushes.elected {requested : Role} {sequel : Push.Sequel} {p : Push}
    (h : Pushes d s.requests requested sequel s s' p) (hf : s.node.faults.request = false) :
    s'.electedRole d ≠ .none := by
  have hm : s.requests = [.request s.node.id] := if_neg (by simp [hf])
  rw [ne_eq, electedRole_eq_none_iff, not_not, h.does.election, h.does.id, hm,
    Election.moves_singleton, Election.seat_move_self]
  exact (Seat.request_queued _ _).2

/-- A push of the role that is due, decided on the term as it is. -/
structure Awaits (s : Site) (p : Push) : Prop where
  role : p.role = s.due p.device
  epoch : p.epoch = (s.election.term? p.device).map Term.epoch

theorem Pushes.awaits {sequel : Push.Sequel} {p : Push} (h : Pushes d ms .none sequel s s' p)
    (he : p.epoch = (s'.election.term? d).map Term.epoch) : s'.Awaits p := by
  refine ⟨?_, h.device ▸ he⟩
  rw [h.device, h.role, targetRole_asked, due, ← h.truthful.term?_eq, h.truthful.owns_iff, h.does.id]

theorem Undisturbed.awaits {p : Push} (h : Undisturbed p.device s s')
    (he : s.electedRole p.device ≠ .none) (hp : s.Awaits p) : s'.Awaits p :=
  ⟨hp.role.trans (h.due_eq he).symm, by rw [hp.epoch, h.term he]⟩

theorem Truthful.timely (ht : s.Truthful) {p : Push} (hp : s.Awaits p) : s.Timely p := by
  intro e he
  rw [hp.epoch] at he
  obtain ⟨t, hterm, rfl⟩ := Option.map_eq_some_iff.mp he
  rw [term?_epoch hterm]
  exact ht.seen p.device

end Site

namespace World

variable {n : NodeId} {d : DeviceId} {w w' : World} {s₀ s s' : Site}

/-- What audits consist of: devices are checked, and what was pushed is answered. -/
def Act.Audits : Act → Prop
  | .task _ (.check _) | .answer _ => True
  | _ => False

/-- An audit of a member from its beginning to its end, alone or beside those of others: all devices
that the member has stored are checked, and all that is pushed is answered, in whatever order. What was
under way before may be answered meanwhile or later. -/
structure Audit (n : NodeId) (w : World) (as : List Act) : Prop where
  acts : ∀ a ∈ as, a.Audits
  all : ∀ s, w.cluster.site? n = some s → ∀ device ∈ s.node.replica.devices,
    .task n (.check device.id) ∈ as
  complete : ∀ x ∈ (as.foldl World.step w).pending, x ∈ w.pending

/-- Every device that a member reaches accepts the roles that this member pushes, and what is under way
will be accepted. -/
structure Receptive (w : World) : Prop where
  lines : ∀ n s, w.cluster.site? n = some s → ∀ d, s.reachable? d = some true → s.accepts d = true
  pending : ∀ x ∈ w.pending, ∀ s, w.cluster.site? x.1 = some s → s.reply x.2 = .ok ()

/-- What holds while audits go on. -/
structure Auditing (w : World) : Prop where
  lawful : w.Lawful
  receptive : w.Receptive

/-- What one act of an audit may come to. -/
inductive Checks (w : World) : World → Prop
  | idle : Checks w w
  | push {m : NodeId} {d : DeviceId} {t t' : Site} {p : Push} : w.cluster.site? m = some t →
      t.reachable? d = some true → t.electedRole d = .none →
      Site.Pushes d t.requests .none .settle t t' p →
      p.epoch = (t'.election.term? d).map Term.epoch →
      Checks w ⟨w.cluster.setSite m t', w.pending ++ [(m, p)]⟩
  | answer {m : NodeId} {t : Site} {i : Nat} {p : Push} : w.cluster.site? m = some t →
      w.pending[i]? = some (m, p) → t.reply p = .ok () →
      Checks w ⟨w.cluster.setSite m (t.answer p), w.pending.eraseIdx i⟩
  | lost {i : Nat} {x : NodeId × Push} : w.pending[i]? = some x → w.cluster.site? x.1 = none →
      Checks w ⟨w.cluster, w.pending.eraseIdx i⟩

theorem step_check_skips (hs : w.cluster.site? n = some s)
    (h : s.reachable? d ≠ some true ∨ s.electedRole d ≠ .none) :
    w.step (.task n (.check d)) = w := by
  simp only [World.step, Cluster.run_of_site hs, Site.run, Site.check_skips h,
    Cluster.setSite_site hs]
  simp

theorem step_check_pushes {p : Push} (hs : w.cluster.site? n = some s)
    (h : s.check d = (s', some p)) :
    w.step (.task n (.check d)) = ⟨w.cluster.setSite n s', w.pending ++ [(n, p)]⟩ := by
  simp only [World.step, Cluster.run_of_site hs, Site.run, h]
  simp

theorem Auditing.check (h : w.Auditing) (n : NodeId) (d : DeviceId) :
    Checks w (w.step (.task n (.check d))) := by
  cases hs : w.cluster.site? n with
  | none =>
    simp only [World.step, Cluster.run_of_none hs]
    simpa using Checks.idle
  | some s =>
    by_cases hq : s.reachable? d ≠ some true ∨ s.electedRole d ≠ .none
    · rw [step_check_skips hs hq]
      exact .idle
    · obtain ⟨hr, he⟩ := not_or.mp hq
      obtain ⟨s', p, hc, hp, hep⟩ :=
        (h.lawful.truthful n s hs).check_pushes (not_not.mp hr) (not_not.mp he)
      rw [step_check_pushes hs hc]
      exact .push hs (not_not.mp hr) (not_not.mp he) hp hep

theorem Auditing.answer (h : w.Auditing) (i : Nat) : Checks w (w.step (.answer i)) := by
  cases hi : w.pending[i]? with
  | none =>
    simp only [World.step, hi]
    exact .idle
  | some x =>
    cases ht : w.cluster.site? x.1 with
    | none =>
      rw [step_answer_of_none hi ht]
      exact .lost hi ht
    | some t =>
      rw [step_answer hi ht]
      exact .answer ht hi (h.receptive.pending x (List.mem_of_getElem? hi) t ht)

theorem Auditing.checks (h : w.Auditing) {a : Act} (ha : a.Audits) : Checks w (w.step a) := by
  cases a with
  | task n t =>
    cases t with
    | check d => exact h.check n d
    | _ => exact ha.elim
  | answer i => exact h.answer i
  | _ => exact ha.elim

theorem Act.Audits.honest {a : Act} (ha : a.Audits) : a.Honest := by
  cases a with
  | change n c => exact ha.elim
  | _ => trivial

/-- What is accepted stays so when a member has done something about a device. -/
theorem Receptive.setSite (h : w.Receptive) {m : NodeId} {t t' : Site} {ms : List Seat.Move}
    {ps : List Push} {pending : List (NodeId × Push)} (ht : w.cluster.site? m = some t)
    (hd : Site.Does d ms ps t t')
    (hp : ∀ x ∈ pending, x ∈ w.pending ∨ x.1 = m ∧ t'.reply x.2 = .ok ()) :
    Receptive ⟨w.cluster.setSite m t', pending⟩ := by
  refine ⟨?_, ?_⟩
  · intro n s hs d' hr
    rcases Cluster.site?_setSite hs with ⟨rfl, rfl⟩ | ⟨_, y, hy, rfl⟩
    · rw [hd.accepts_eq]
      exact h.lines _ t ht d' (hd.reachable? d' ▸ hr)
    · exact h.lines n y hy d' hr
  · intro x hx s hs
    rcases Cluster.site?_setSite hs with ⟨hm, rfl⟩ | ⟨hm, y, hy, rfl⟩
    · rcases hp x hx with hx | ⟨_, hr⟩
      · rw [hd.reply_eq]
        exact h.pending x hx t (hm ▸ ht)
      · exact hr
    · exact h.pending x ((hp x hx).resolve_right fun hnew => hm hnew.1) y hy

theorem Auditing.of_checks (h : w.Auditing) (hc : Checks w w') (hl : w'.Lawful) :
    w'.Auditing := by
  cases hc with
  | idle => exact h
  | push ht hr _ hp _ =>
    refine ⟨hl, h.receptive.setSite ht hp.does fun x hx => ?_⟩
    rcases List.mem_append.mp hx with hx | hx
    · exact .inl hx
    · obtain rfl := List.mem_singleton.mp hx
      refine .inr ⟨rfl, Site.reply_of_accepts hp.fits ?_⟩
      rw [hp.does.accepts_eq, hp.device]
      exact h.receptive.lines _ _ ht _ hr
  | answer ht hi hr =>
    exact ⟨hl, h.receptive.setSite ht (Site.answer_ok_does hr)
      fun x hx => .inl (List.mem_of_mem_eraseIdx hx)⟩
  | lost hi ht =>
    exact ⟨hl, h.receptive.lines, fun x hx => h.receptive.pending x (List.mem_of_mem_eraseIdx hx)⟩

theorem Auditing.step (h : w.Auditing) {a : Act} (ha : a.Audits) : (w.step a).Auditing :=
  h.of_checks (h.checks ha) (h.lawful.step ha.honest).lawful

/-- What an act of an audit may come to for one device of one member. -/
inductive Turn (n : NodeId) (d : DeviceId) (w w' : World) (s s' : Site) : Prop
  | apart : Site.Undisturbed d s s' →
      (∀ p : Push, p.device = d → ((n, p) ∈ w'.pending ↔ (n, p) ∈ w.pending)) → Turn n d w w' s s'
  | asks {p : Push} : s.electedRole d = .none → Site.Pushes d s.requests .none .settle s s' p →
      s'.Awaits p → w'.pending = w.pending ++ [(n, p)] → Turn n d w w' s s'
  | applies {p : Push} {i : Nat} : w.pending[i]? = some (n, p) → p.device = d →
      s.reply p = .ok () → s' = s.answer p → w'.pending = w.pending.eraseIdx i → Turn n d w w' s s'

theorem Auditing.turn (h : w.Auditing) (hs : w.cluster.site? n = some s) (hc : Checks w w') :
    ∃ s', w'.cluster.site? n = some s' ∧ Turn n d w w' s s' := by
  have he := Cluster.site?_election hs
  cases hc with
  | idle => exact ⟨s, hs, .apart (.refl d s) fun _ _ => .rfl⟩
  | @push m d' t t' p ht hr hq hp hep =>
    obtain ⟨y, hy, ⟨rfl, rfl⟩ | ⟨hne, rfl⟩⟩ := Cluster.exists_site?_setSite hs m t'
    · obtain rfl : s = t := Option.some.inj (hs.symm.trans ht)
      by_cases hd : d = d'
      · subst hd
        exact ⟨y, hy, .asks hq hp (hp.awaits hep) rfl⟩
      · refine ⟨y, hy, .apart (hp.does.undisturbed hd) ?_⟩
        intro q hqd
        have hpq : q ≠ p := fun hpq => hd (hqd.symm.trans (hpq ▸ hp.device))
        simp [hpq]
    · have hmoved : t'.election = (s.election.moves d' t.requests).1 := by
        rw [hp.does.election, he, Cluster.site?_election ht]
      have ho : (s.election.seat d).Orderly := he ▸ h.lawful.orderly d
      have hid : s.node.id ≠ t.node.id := by
        rwa [h.lawful.id n s hs, h.lawful.id m t ht]
      exact ⟨_, hy, .apart (Site.undisturbed_of_requests ho hmoved hid _) fun q _ => by simp [hne]⟩
  | @answer m t i p ht hi hr =>
    have hdoes := Site.answer_ok_does hr
    obtain ⟨y, hy, ⟨rfl, rfl⟩ | ⟨hne, rfl⟩⟩ := Cluster.exists_site?_setSite hs m (t.answer p)
    · obtain rfl : s = t := Option.some.inj (hs.symm.trans ht)
      by_cases hd : d = p.device
      · subst hd
        exact ⟨_, hy, .applies hi rfl hr rfl rfl⟩
      · refine ⟨_, hy, .apart (hdoes.undisturbed hd) fun q hqd => mem_eraseIdx_of_ne hi ?_⟩
        rintro ⟨⟩
        exact hd hqd.symm
    · refine ⟨_, hy, .apart (Site.undisturbed_of_election ?_ _) fun q _ =>
        mem_eraseIdx_of_ne hi ?_⟩
      · rw [he, ← Cluster.site?_election ht]
        exact hdoes.election
      · rintro ⟨⟩
        exact hne rfl
  | lost hi ht =>
    refine ⟨s, hs, .apart (.refl d s) fun q _ => mem_eraseIdx_of_ne hi ?_⟩
    rintro rfl
    rw [hs] at ht
    cases ht

/-- How far the audits have come with a device of a member that they found as `s₀`. -/
inductive Progress (n : NodeId) (d : DeviceId) (s₀ : Site) (w : World) (s : Site) : Prop
  | left : Site.Undisturbed d s₀ s → (∀ p, (n, p) ∈ w.pending → p.device ≠ d) →
      Progress n d s₀ w s
  | taken : s₀.electedRole d = .none → s.electedRole d ≠ .none →
      (∀ p, (n, p) ∈ w.pending → p.device = d → s.Awaits p) →
      (s.InRole d ∨ ∃ p, (n, p) ∈ w.pending ∧ p.device = d) → Progress n d s₀ w s

theorem Turn.elected (ht : Turn n d w w' s s') (hf : s.node.faults.request = false)
    (he : s.electedRole d ≠ .none) : s'.electedRole d ≠ .none := by
  cases ht with
  | apart hu _ => exact mt hu.elected.mp he
  | asks _ hp _ _ => exact hp.elected hf
  | applies _ hd hr hs' _ =>
    subst hd
    have hdoes := Site.answer_ok_does hr
    rw [hs', Site.electedRole, hdoes.election, hdoes.id]
    exact he

theorem Turn.keeps (ht : Turn n d w w' s s') :
    s'.node.faults.request = s.node.faults.request ∧ s'.reachable? d = s.reachable? d := by
  cases ht with
  | apart hu _ => exact ⟨hu.request, hu.reachable⟩
  | asks _ hp _ _ => exact ⟨hp.does.request, hp.does.reachable? d⟩
  | applies _ hd hr hs' _ =>
    have hdoes := Site.answer_ok_does hr
    rw [hs']
    exact ⟨hdoes.request, hdoes.reachable? d⟩

theorem due_answer {p : Push} (hr : s.reply p = .ok ()) (d : DeviceId) :
    (s.answer p).due d = s.due d := by
  have hdoes := Site.answer_ok_does hr
  have he : (s.answer p).election = s.election := hdoes.election
  rw [Site.due, Site.due, he, hdoes.owns_eq]

/-- An accepted push leaves its device in the role that is due. -/
theorem applied_inRole {p : Push} (ht : s.Truthful) (hp : s.Awaits p) (hr : s.reply p = .ok ()) :
    (s.answer p).InRole p.device := by
  rw [Site.InRole, Site.answer_ok_applied hr (ht.timely hp), hp.role, due_answer hr]

theorem Progress.turn (h : Progress n d s₀ w s) (ht : s.Truthful)
    (hf : s.node.faults.request = false) (hturn : Turn n d w w' s s') :
    Progress n d s₀ w' s' := by
  cases h with
  | left hu hnone =>
    cases hturn with
    | apart hu' hp =>
      exact .left (hu.trans hu') fun p hp' hd => hnone p ((hp p hd).mp hp') hd
    | asks hq hpush hawaits hp =>
      refine .taken (hu.elected.mp hq) (hpush.elected hf) ?_
        (.inr ⟨_, hp ▸ List.mem_append_right _ List.mem_cons_self, hpush.device⟩)
      intro q hq' hd
      rw [hp] at hq'
      rcases List.mem_append.mp hq' with hq' | hq'
      · exact absurd hd (hnone q hq')
      · obtain rfl := (Prod.mk.inj (List.mem_singleton.mp hq')).2
        exact hawaits
    | applies hi hd _ _ _ => exact absurd hd (hnone _ (List.mem_of_getElem? hi))
  | taken h₀ hq hall hrest =>
    have hq' := hturn.elected hf hq
    cases hturn with
    | apart hu' hp =>
      refine .taken h₀ hq' ?_ ?_
      · intro p hp' hd
        subst hd
        exact hu'.awaits hq (hall p ((hp p rfl).mp hp') rfl)
      · rcases hrest with hrole | ⟨p, hp', hd⟩
        · exact .inl ((hu'.inRole_iff hq).mpr hrole)
        · exact .inr ⟨p, (hp p hd).mpr hp', hd⟩
    | asks hnone _ _ _ => exact absurd hnone hq
    | @applies p i hi hd hr hs' hp =>
      subst hd hs'
      refine .taken h₀ hq' ?_
        (.inl (applied_inRole ht (hall p (List.mem_of_getElem? hi) rfl) hr))
      intro q hqm hqd
      have hold := hall q (List.mem_of_mem_eraseIdx (hp ▸ hqm)) hqd
      have he : (s.answer p).election = s.election := (Site.answer_ok_does hr).election
      exact ⟨hold.role.trans (due_answer hr _).symm, hold.epoch.trans (by rw [he])⟩

/-- Once a device that is reached was checked, its controller queues for it. -/
theorem Auditing.check_elects (h : w.Auditing) (hs : w.cluster.site? n = some s)
    (hr : s.reachable? d = some true) (hf : s.node.faults.request = false)
    (hs' : (w.step (.task n (.check d))).cluster.site? n = some s') :
    s'.electedRole d ≠ .none := by
  by_cases he : s.electedRole d = .none
  · obtain ⟨t, p, hc, hp, _⟩ := (h.lawful.truthful n s hs).check_pushes hr he
    rw [step_check_pushes hs hc, Cluster.site?_setSite_self] at hs'
    obtain rfl := Option.some.inj hs'
    exact hp.elected hf
  · rw [step_check_skips hs (.inr he)] at hs'
    obtain rfl := Option.some.inj (hs.symm.trans hs')
    exact he

theorem Auditing.exists_site (h : w.Auditing) (hs : w.cluster.site? n = some s) {as : List Act}
    (ha : ∀ a ∈ as, a.Audits) : ∃ s', (as.foldl World.step w).cluster.site? n = some s' := by
  induction as generalizing w s with
  | nil => exact ⟨s, hs⟩
  | cons a as ih =>
    have haudits := ha a List.mem_cons_self
    obtain ⟨t, ht, _⟩ := h.turn (d := default) hs (h.checks haudits)
    exact ih (h.step haudits) ht fun b hb => ha b (List.mem_cons_of_mem a hb)

/-- What the acts of audits come to for one device of one member. -/
theorem Auditing.run (h : w.Auditing) (hs : w.cluster.site? n = some s)
    (hp : Progress n d s₀ w s) (hf : s.node.faults.request = false) {as : List Act}
    (ha : ∀ a ∈ as, a.Audits) :
    ∃ s', (as.foldl World.step w).cluster.site? n = some s' ∧
      Progress n d s₀ (as.foldl World.step w) s' ∧
      (s.electedRole d ≠ .none ∨ s.reachable? d = some true ∧ .task n (.check d) ∈ as →
        s'.electedRole d ≠ .none) := by
  induction as generalizing w s with
  | nil => exact ⟨s, hs, hp, fun he => he.resolve_right fun hc => List.not_mem_nil hc.2⟩
  | cons a as ih =>
    have haudits := ha a List.mem_cons_self
    obtain ⟨t, ht, hturn⟩ := h.turn (d := d) hs (h.checks haudits)
    obtain ⟨hf', hr'⟩ := hturn.keeps
    obtain ⟨s', hs', hp', he'⟩ := ih (h.step haudits) ht
      (hp.turn (h.lawful.truthful n s hs) hf hturn) (hf'.trans hf)
      fun b hb => ha b (List.mem_cons_of_mem a hb)
    refine ⟨s', hs', hp', fun he => he' ?_⟩
    rcases he with he | ⟨hr, hc⟩
    · exact .inl (hturn.elected hf he)
    · rcases List.mem_cons.mp hc with rfl | hc
      · exact .inl (h.check_elects hs hr hf ht)
      · exact .inr ⟨hr'.trans hr, hc⟩

/-- Whatever has happened before and whatever announcements were lost, an audit leaves a device that its
member has stored and reaches in the role that is due exactly if the election gave the member no role
for it or it was in that role before. That is so while other pushes are under way, but for those of this
member to this device. -/
theorem audit_mends_unassigned (hw : w.Reachable) (hr : w.Receptive)
    (hs : w.cluster.site? n = some s) (hf : s.node.faults.request = false) {as : List Act}
    (ha : w.Audit n as) :
    ∃ s', (as.foldl World.step w).cluster.site? n = some s' ∧
      ∀ device ∈ s.node.replica.devices, s.reachable? device.id = some true →
        (∀ p, (n, p) ∈ w.pending → p.device ≠ device.id) →
          (s'.InRole device.id ↔ s.electedRole device.id = .none ∨ s.InRole device.id) := by
  have haudits : w.Auditing := ⟨hw.lawful, hr⟩
  have hrun := fun d hd => haudits.run (d := d) hs (.left (.refl d s) hd) hf ha.acts
  obtain ⟨s', hs'⟩ := haudits.exists_site hs ha.acts
  refine ⟨s', hs', ?_⟩
  intro device hd hreach hnone
  obtain ⟨t, ht, hp, he⟩ := hrun device.id hnone
  obtain rfl : s' = t := Option.some.inj (hs'.symm.trans ht)
  have hq := he (.inr ⟨hreach, ha.all s hs device hd⟩)
  cases hp with
  | left hu _ =>
    have hq₀ := mt hu.elected.mpr hq
    rw [hu.inRole_iff hq₀]
    exact ⟨.inr, fun hor => hor.resolve_left hq₀⟩
  | taken h₀ _ _ hrest =>
    have hrole := hrest.resolve_right fun ⟨p, hp, hpd⟩ => hnone p (ha.complete _ hp) hpd
    exact ⟨fun _ => .inl h₀, fun _ => hrole⟩

end World

/-- No line that is reachable refuses roles. -/
def Southbound.obliging (s : Southbound) : Bool :=
  s.providers.values.all fun p => p.lines.values.all fun line =>
    !line.reachable || !line.broken && !line.rejecting

theorem Site.accepts_of_obliging {s : Site} (h : s.node.south.obliging = true) {d : DeviceId}
    (hr : s.reachable? d = some true) : s.accepts d = true := by
  obtain ⟨line, hline⟩ := Option.isSome_iff_exists.mp (reachable?_served hr)
  have hreach : line.reachable = true := by
    simp only [reachable?, hline] at hr
    split at hr
    · cases hr
    · exact Option.some.inj hr
  have hmem : ∃ p ∈ s.node.south.providers.values, line ∈ p.lines.values := by
    simp only [Southbound.lineFor, Option.map_eq_some_iff, Option.bind_eq_some_iff] at hline
    obtain ⟨p, ⟨slot, _, hp⟩, rfl⟩ := hline
    refine ⟨p, Table.mem_values.mpr ⟨slot, hp⟩, Table.mem_values.mpr ⟨d, ?_⟩⟩
    cases hl : p.lines.get? d with
    | none => simp [Provider.line, hl] at hreach
    | some line => simp [Provider.line, hl]
  obtain ⟨p, hp, hl⟩ := hmem
  have hall := List.all_eq_true.mp (List.all_eq_true.mp h p hp) line hl
  simpa [accepts, hline, hreach] using hall

namespace Sample

def forsakenActs : List World.Act := joins east ++ joins west ++ [.relinquish east lamp]

/-- Both members have a device, and the first of them is made to give it up, of which nobody hears. -/
def forsaken : World := forsakenActs.foldl World.step ⟨pair, []⟩

theorem forsaken_reachable : forsaken.Reachable := by
  apply (World.Reachable.fresh pair_fresh).run
  rw [forsakenActs, List.forall_mem_append, List.forall_mem_append]
  exact ⟨⟨joins_honest east, joins_honest west⟩, by simp [World.Act.Honest]⟩

theorem forsaken_idle : forsaken.pending = [] := by
  decide +kernel

theorem forsaken_receptive : forsaken.Receptive where
  lines _ _ hs _ hr :=
    Site.accepts_of_obliging
      (Cluster.all_sites (p := fun _ s => s.node.south.obliging) (by decide +kernel) hs) hr
  pending x hx := by
    rw [forsaken_idle] at hx
    cases hx

/-- An audit of the only device of a member, whose push is answered. -/
def auditOf (n : NodeId) : List World.Act := [.task n (.check lamp), .answer 0]

theorem auditOf_audits {n : NodeId} (hn : n = east ∨ n = west) :
    World.Audit n forsaken (auditOf n) where
  acts := by simp [auditOf, World.Act.Audits]
  all s hs device hd := by
    have hall := Cluster.all_sites
      (p := fun _ s => s.node.replica.devices.all (·.id == lamp)) (by decide +kernel) hs
    have hid : device.id = lamp := beq_iff_eq.mp (List.all_eq_true.mp hall device hd)
    simp [auditOf, hid]
  complete x hx := by
    have hdone : ((auditOf n).foldl World.step forsaken).pending = [] := by
      rcases hn with rfl | rfl <;> decide +kernel
    rw [hdone] at hx
    cases hx

/-- The members are free of faults, reach the device and have it stored. -/
theorem forsaken_site {n : NodeId} (hn : n = east ∨ n = west) :
    ∃ s, forsaken.cluster.site? n = some s ∧ s.node.faults = {} ∧ s.reachable? lamp = some true ∧
      ∃ device ∈ s.node.replica.devices, device.id = lamp := by
  have h : (forsaken.cluster.site? n).any (fun s => s.node.faults == {} &&
      s.reachable? lamp == some true && s.node.replica.devices.any (·.id == lamp)) = true := by
    rcases hn with rfl | rfl <;> decide +kernel
  obtain ⟨s, hs, h⟩ := Option.any_eq_true _ _ |>.mp h
  simp only [Bool.and_eq_true, beq_iff_eq, List.any_eq_true] at h
  exact ⟨s, hs, h.1.1, h.1.2, h.2⟩

end Sample

/-- The member that gave the device up without hearing of it is put right. -/
theorem World.forsaken_mended :
    ∃ s', ((Sample.auditOf Sample.east).foldl World.step Sample.forsaken).cluster.site?
        Sample.east = some s' ∧ s'.InRole Sample.lamp := by
  obtain ⟨s, hs, hf, hr, device, hd, hid⟩ := Sample.forsaken_site (.inl rfl)
  obtain ⟨s', hs', hrole⟩ := audit_mends_unassigned Sample.forsaken_reachable
    Sample.forsaken_receptive hs (by rw [hf]) (Sample.auditOf_audits (.inl rfl))
  have hunassigned : s.electedRole Sample.lamp = .none := by
    have h : (Sample.forsaken.cluster.site? Sample.east).all
        (·.electedRole Sample.lamp == .none) = true := by
      decide +kernel
    exact beq_iff_eq.mp (Option.all_eq_true _ _ |>.mp h s hs)
  have hnone : ∀ p, (Sample.east, p) ∈ Sample.forsaken.pending → p.device ≠ device.id := by
    simp [Sample.forsaken_idle]
  exact ⟨s', hs', hid ▸ (hrole device hd (hid ▸ hr) hnone).mpr (.inl (hid ▸ hunassigned))⟩

/-- An audit need not give every device that is reached the role that its term gives: the member that
came to be master without hearing of it goes on as STANDBY. -/
theorem World.audit_leaves_unheard_master : ¬ ∀ w : World, w.Reachable → w.Receptive →
    ∀ n s, w.cluster.site? n = some s → s.node.faults = {} → ∀ as, w.Audit n as →
      ∃ s', (as.foldl World.step w).cluster.site? n = some s' ∧
        ∀ device ∈ s.node.replica.devices, s.reachable? device.id = some true →
          (∀ p, (n, p) ∈ w.pending → p.device ≠ device.id) → s'.InRole device.id := by
  intro h
  obtain ⟨s, hs, hf, hr, device, hd, hid⟩ := Sample.forsaken_site (.inr rfl)
  obtain ⟨s', hs', hrole⟩ := h Sample.forsaken Sample.forsaken_reachable
    Sample.forsaken_receptive Sample.west s hs hf _ (Sample.auditOf_audits (.inr rfl))
  have hnone : ∀ p, (Sample.west, p) ∈ Sample.forsaken.pending → p.device ≠ device.id := by
    simp [Sample.forsaken_idle]
  have hwrong : (((Sample.auditOf Sample.west).foldl World.step Sample.forsaken).cluster.site?
      Sample.west).all (fun s => !decide (s.InRole Sample.lamp)) = true := by
    decide +kernel
  have hn := Option.all_eq_true _ _ |>.mp hwrong s' hs'
  exact of_decide_eq_false (Bool.not_eq_true' _ ▸ hn) (hid ▸ hrole device hd (hid ▸ hr) hnone)

end Mastership
