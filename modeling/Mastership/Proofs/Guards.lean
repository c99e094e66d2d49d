import Mastership.Proofs.Concerns
import Mastership.Proofs.Courses
import Mastership.Proofs.Forgetting

namespace Mastership

/-- A role that is decided on an older epoch than the recorded one does not count as a change. -/
theorem RoleTable.record_stale (t : RoleTable) (d : DeviceId) {n : Nat} (role : Role)
    (h : n < (t.entry d).epoch) : (t.record d role (some n)).2 = false := by
  simp only [record, if_pos h]

/-- No epoch is recorded that is older than the recorded one. -/
theorem RoleTable.epoch_le_record (t : RoleTable) (d : DeviceId) (role : Role)
    (epoch : Option Nat) : (t.entry d).epoch ≤ ((t.record d role epoch).1.entry d).epoch := by
  cases epoch with
  | none =>
    have hcurrent : ∀ k, (none : Option Nat) = some k → (t.entry d).epoch ≤ k := nofun
    rw [entry_record t d role hcurrent, Option.getD_none]
  | some n =>
    rcases Nat.lt_or_ge n (t.entry d).epoch with hlt | hle
    · rw [entry_record_stale t d role hlt]
    · have hcurrent : ∀ k, some n = some k → (t.entry d).epoch ≤ k := by
        rintro _ ⟨⟩
        exact hle
      rw [entry_record t d role hcurrent]
      exact hle

/-- What a member leaves that drops a decision: announcements of the election, its own request for the
device, and events other than of a role. No push is started, nothing is called for, and nothing is
given up. -/
def Notice.Idle (n : NodeId) (d : DeviceId) : Notice → Prop
  | .announced _ => True
  | .asked m d' plea => m = n ∧ d' = d ∧ plea = .request
  | .posted _ e => e.kind ≠ .mastershipChanged
  | _ => False

namespace Site

variable {d : DeviceId} {s s' i : Site} {requested : Role} {t : Task} {u : Term}

/-- The task makes the controller forget its device. -/
def Forgets (s : Site) : Task → Prop
  | .disconnect slot _ => s.refusal? slot = none
  | .remove d => s.stored d = true
  | _ => False

/-- The epoch that is known of the device does not fall, not even below that of the term `basis` on
which a decision is based, and a push that is left carries it. -/
structure Minds (d : DeviceId) (basis : Option Term) (s : Site) (r : Site × Option Push) : Prop where
  rises : (s.node.roles.entry d).epoch ≤ (r.1.node.roles.entry d).epoch
  noted : ∀ t, basis = some t → t.epoch ≤ (r.1.node.roles.entry d).epoch
  pushed : ∀ p e, r.2 = some p → p.epoch = some e → e = (r.1.node.roles.entry d).epoch

theorem minds_of_kept (h : (s'.node.roles.entry d).epoch = (s.node.roles.entry d).epoch) :
    Minds d none s (s', none) :=
  ⟨Nat.le_of_eq h.symm, by simp, by simp⟩

theorem Minds.of_roles {basis : Option Term} {r : Site × Option Push} (h : Minds d basis s' r)
    (hr : s'.node.roles = s.node.roles) : Minds d basis s r :=
  ⟨hr ▸ h.rises, h.noted, h.pushed⟩

theorem relinquish_minds (s : Site) (d : DeviceId) : Minds d none s (s.relinquish d, none) :=
  minds_of_kept (by rw [relinquish_roles, RoleTable.entry_clear])

/-- Starting a push changes no epoch, nor does having to give up the device instead. -/
theorem startPush_epoch (s : Site) (d : DeviceId) {role : Role} (hr : role ≠ .none)
    (epoch : Option Nat) (sequel : Push.Sequel) :
    ((s.startPush d role epoch sequel).1.node.roles.entry d).epoch =
      (s.node.roles.entry d).epoch := by
  rcases s.startPush_cases d hr epoch sequel with ⟨slot, h⟩ | ⟨e, h⟩ <;> rw [h]
  · rfl
  · rw [conclude_error_roles, RoleTable.entry_clear]

/-- Who has informed itself knows of no older epoch than before, nor than that of the term. -/
theorem informed_minds {r : Site × Option Push}
    (he : (r.1.node.roles.entry d).epoch = ((s.informed d requested).node.roles.entry d).epoch)
    (hp : ∀ p, r.2 = some p → p.epoch = ((s.informed d requested).term? d).map Term.epoch ∧
      (s.asked d requested).current d ((s.informed d requested).term? d) = true) :
    Minds d ((s.asked d requested).term? d) s r := by
  refine ⟨?_, fun t ht => ?_, fun p e hleft hepoch => ?_⟩
  · rw [he, informed_entry]
    exact Nat.le_max_left _ _
  · rw [he, informed_entry, informed_term?, ht]
    exact Nat.le_max_right _ _
  · obtain ⟨hterm, hc⟩ := hp p hleft
    rw [he, informed_entry_of_current hc]
    rw [hterm] at hepoch
    obtain ⟨t, ht, rfl⟩ := Option.map_eq_some_iff.mp hepoch
    rw [ht]

theorem informed_push_minds
    (hc : (s.asked d requested).current d ((s.informed d requested).term? d) = true)
    (hi : i.node.roles = (s.informed d requested).node.roles) (sequel : Push.Sequel) :
    Minds d ((s.asked d requested).term? d) s
      (i.startPush d ((s.informed d requested).target d requested)
        (((s.informed d requested).term? d).map Term.epoch) sequel) := by
  have hne : (s.informed d requested).target d requested ≠ .none := targetRole_ne_none _ _
  refine informed_minds ?_ fun p hp => ?_
  · rw [startPush_epoch i d hne, hi]
  · obtain ⟨⟨slot, rfl⟩, _⟩ := startPush_left hne hp
    exact ⟨rfl, hc⟩

theorem reassert_minds (s : Site) (d : DeviceId) (requested : Role) :
    Minds d ((s.asked d requested).term? d) s (s.reassert d requested) := by
  rw [reassert_eq]
  dsimp only
  split
  · next hc =>
    refine informed_push_minds hc ?_ .settle
    split <;> simp
  · exact informed_minds rfl (by simp)

theorem connected_minds (s : Site) (slot : Nat) (d : DeviceId) (description : DeviceDescription) :
    Minds d ((s.asked d .none).term? d) s (s.connected slot d description) := by
  rw [connected_eq]
  dsimp only
  split
  · next hc => exact informed_push_minds hc rfl _
  · exact informed_minds rfl (by simp)

theorem handle_minds (s : Site) (a : Announcement) :
    Minds a.device (s.basis (.handle a)) s (s.handle a) := by
  have hr := suggestedRole_roles s a
  simp only [basis, handle]
  cases a.kind with
  | backups => exact minds_of_kept rfl
  | master =>
    simp only [followMaster, true_and]
    generalize s.suggestedRole a = r at hr ⊢
    obtain ⟨s₁, suggested⟩ := r
    dsimp only at hr ⊢
    cases s₁.reachable? a.device with
    | none => exact minds_of_kept (by simp [hr])
    | some reachable =>
      cases reachable with
      | false =>
        refine Minds.of_roles ?_ hr
        simp only [Option.some.injEq, Bool.false_eq_true, false_and, if_false]
        split
        · exact minds_of_kept rfl
        · exact relinquish_minds s₁ a.device
      | true =>
        simp only [true_and, stored]
        split
        · exact (reassert_minds s₁ a.device suggested).of_roles hr
        · exact minds_of_kept (by simp [hr])

theorem check_minds (s : Site) (d : DeviceId) : Minds d (s.basis (.check d)) s (s.check d) := by
  simp only [basis, check]
  cases s.reachable? d with
  | none => exact minds_of_kept rfl
  | some reachable =>
    cases reachable with
    | false => exact minds_of_kept rfl
    | true =>
      simp only [true_and]
      split
      · exact reassert_minds s d .none
      · exact minds_of_kept rfl

theorem guarded_minds (slot : Nat) {f : Site → Site} (h : Minds d none s (f s, none)) :
    Minds d none s ((s.guarded slot f).1, none) := by
  unfold guarded
  split
  · exact minds_of_kept rfl
  · exact h

theorem run_minds (s : Site) (ht : ¬ s.Forgets t) : Minds t.device (s.basis t) s (s.run t) := by
  cases t with
  | connect slot d description =>
    simp only [run, connect, basis]
    cases s.refusal? slot with
    | some e => exact minds_of_kept rfl
    | none => exact connected_minds s slot d description
  | disconnect slot d =>
    simp only [run, disconnect]
    split
    · exact minds_of_kept rfl
    · next hr => exact absurd hr ht
  | setPorts slot d ps =>
    refine guarded_minds slot (f := (·.portsReported d ps)) (minds_of_kept ?_)
    rw [portsReported_roles]
  | setPort slot d p =>
    refine guarded_minds slot (f := (·.portReported d p)) (minds_of_kept ?_)
    rw [portReported_roles]
  | setStatistics slot d ss => exact guarded_minds slot (minds_of_kept rfl)
  | roleReply slot d requested response =>
    refine guarded_minds slot (f := (·.roleReplied d requested response)) ?_
    rcases roleReplied_eq s d requested response with h | h <;> rw [h]
    · exact relinquish_minds s d
    · exact minds_of_kept rfl
  | reassert d requested => exact reassert_minds s d requested
  | check d => exact check_minds s d
  | handle a => exact handle_minds s a
  | remove d =>
    have hnone : s.node.replica.device? d = none := by simpa [Forgets, stored] using ht
    have hsame : s.remove d = s := by
      have hrecord : s.node.replica.records.get? d = none := by
        simpa [Replica.device?] using hnone
      simp [Site.remove, Replica.remove, hrecord]
    simp only [run, hsame]
    exact minds_of_kept rfl

theorem answer_epoch (s : Site) (p : Push) :
    (s.node.roles.entry p.device).epoch ≤ ((s.answer p).node.roles.entry p.device).epoch := by
  rw [answer_entry]
  split
  · exact Nat.le_refl _
  · exact RoleTable.epoch_le_record _ _ _ _

/-- The decision about the device is dropped. -/
structure Drops (d : DeviceId) (s : Site) (r : Site × Option Push) : Prop where
  push : r.2 = none
  entry : r.1.node.roles.entry d = s.node.roles.entry d
  idle : ∃ ns, r.1.journal = s.journal ++ ns ∧ ∀ x ∈ ns, x.Idle s.node.id d

theorem asked_idle (s : Site) (d : DeviceId) (requested : Role) :
    ∃ ns, (s.asked d requested).journal = s.journal ++ ns ∧ ∀ x ∈ ns, x.Idle s.node.id d := by
  have hasked : Notice.Idle s.node.id d (.asked s.node.id d .request) := ⟨rfl, rfl, rfl⟩
  simp only [asked, request]
  split
  · split
    · exact ⟨_, rfl, by simpa using hasked⟩
    · refine ⟨_, List.append_assoc _ _ _, fun x hx => ?_⟩
      rcases List.mem_append.mp hx with hx | hx
      · rw [List.mem_singleton.mp hx]
        exact hasked
      · obtain ⟨a, _, rfl⟩ := List.mem_map.mp hx
        trivial
  · exact ⟨[], (List.append_nil _).symm, by simp⟩

theorem informed_journal (s : Site) (d : DeviceId) (requested : Role) :
    (s.informed d requested).journal = (s.asked d requested).journal := by
  have hterm := observeTerm_journal (s.asked d requested) d
  simp only [informed]
  cases (s.asked d requested).term? d with
  | none => exact hterm
  | some t => exact hterm

theorem informed_drops
    (hc : (s.asked d requested).current d ((s.informed d requested).term? d) = false) :
    Drops d s (s.informed d requested, none) :=
  ⟨rfl, informed_entry_of_stale hc, by rw [informed_journal]; exact asked_idle s d requested⟩

theorem stale_of_lt (hb : (s.asked d requested).term? d = some u)
    (hu : u.epoch < (s.node.roles.entry d).epoch) :
    (s.asked d requested).current d ((s.informed d requested).term? d) = false := by
  rw [informed_term?, hb]
  simpa [current, asked_roles] using hu

/-- To store a device is told by events about the device. -/
theorem store_journal (s : Site) (provider : ProviderId) (d : DeviceId)
    (description : DeviceDescription) :
    ∃ es : List DeviceEvent,
      (s.store provider d description).journal = s.journal ++ es.map (.posted s.node.id) ∧
        ∀ e ∈ es, e.kind ≠ .mastershipChanged :=
  ⟨_, rfl, fun e he => (Replica.put_shows _ d _ description e he).plain⟩

theorem reassert_drops (hb : (s.asked d requested).term? d = some u)
    (hu : u.epoch < (s.node.roles.entry d).epoch) : Drops d s (s.reassert d requested) := by
  have hc := stale_of_lt hb hu
  rw [reassert_eq]
  simp only [hc]
  exact informed_drops hc

/-- A device that connects is stored all the same, which is told. -/
theorem connected_drops (hb : (s.asked d .none).term? d = some u)
    (hu : u.epoch < (s.node.roles.entry d).epoch) (slot : Nat) (description : DeviceDescription) :
    Drops d s (s.connected slot d description) := by
  have hc := stale_of_lt hb hu
  obtain ⟨_, hentry, ns, hj, hidle⟩ := informed_drops hc
  have hj : (s.informed d .none).journal = s.journal ++ ns := hj
  rw [connected_eq]
  dsimp only
  rw [if_neg (Bool.eq_false_iff.mp hc)]
  obtain ⟨es, hstored, hes⟩ := store_journal (s.informed d .none) (s.providerId slot) d description
  refine ⟨rfl, hentry, ns ++ es.map (.posted (s.informed d .none).node.id), ?_, fun x hx => ?_⟩
  · rw [hstored, hj, List.append_assoc]
  · rcases List.mem_append.mp hx with hx | hx
    · exact hidle x hx
    · obtain ⟨e, he, rfl⟩ := List.mem_map.mp hx
      exact hes e he

theorem Drops.of_told {r : Site × Option Push} (h : Drops d s' r) (hid : s'.node.id = s.node.id)
    (hr : s'.node.roles = s.node.roles) (hj : s'.journal = s.journal) : Drops d s r :=
  ⟨h.push, hr ▸ h.entry, hid ▸ hj ▸ h.idle⟩

theorem suggestedRole_journal (s : Site) (a : Announcement) :
    (s.suggestedRole a).1.journal = s.journal := by
  unfold suggestedRole
  split
  · exact observeTerm_journal s a.device
  · rfl

/-- A decision based on an older epoch than one that is known of the device is dropped. -/
theorem run_drops (hb : s.basis t = some u)
    (hu : u.epoch < (s.node.roles.entry t.device).epoch) : Drops t.device s (s.run t) := by
  cases t with
  | connect slot d description =>
    simp only [run, connect, basis] at hb ⊢
    cases hr : s.refusal? slot with
    | some e => simp [hr] at hb
    | none =>
      rw [if_pos hr] at hb
      exact connected_drops hb hu slot description
  | reassert d requested => exact reassert_drops hb hu
  | check d =>
    simp only [run, check, basis] at hb ⊢
    split at hb
    · next h =>
      rw [h.1, if_pos h.2]
      exact reassert_drops hb hu
    · cases hb
  | handle a =>
    have hid := (suggestedRole_does s a).id
    have hr := suggestedRole_roles s a
    have hj := suggestedRole_journal s a
    simp only [run, handle, followMaster, basis] at hb ⊢
    generalize s.suggestedRole a = r at hid hr hj hb ⊢
    obtain ⟨s₁, suggested⟩ := r
    dsimp only at hid hr hj hb ⊢
    split at hb
    · next h =>
      obtain ⟨hkind, hreach, hstored⟩ := h
      have hstored : (s₁.node.replica.device? a.device).isSome = true := hstored
      simp only [hkind, hreach]
      rw [if_pos hstored]
      exact (reassert_drops hb (by rwa [hr])).of_told hid hr hj
    · cases hb
  | _ => cases hb

/-- The answer to a push that was decided on an older epoch than one that is known of the device changes
nothing of the entry, and no role is told. -/
theorem answer_drops {p : Push} {e : Nat} (hr : s.reply p = .ok ()) (he : p.epoch = some e)
    (hlt : e < (s.node.roles.entry p.device).epoch) :
    (s.answer p).node.roles.entry p.device = s.node.roles.entry p.device ∧
      ∃ ns, (s.answer p).journal = s.journal ++ ns ∧
        ∀ x ∈ posts ns, x.2.kind ≠ .mastershipChanged := by
  refine ⟨?_, ?_⟩
  · rw [answer_entry, hr, he]
    exact RoleTable.entry_record_stale _ _ _ hlt
  · obtain ⟨s₁, ⟨ns, hj, _, hposts⟩, hid, _, hroles, hreplica, hconclude⟩ := answer_reaches s p
    have hsettle : ∀ s₂ : Site, s₂.node.roles = s.node.roles →
        (s₂.settle p.device p.role p.epoch (.ok ())).journal = s₂.journal := by
      intro s₂ hr₂
      rw [← hr₂] at hlt
      simp only [settle, he, RoleTable.record_stale _ _ p.role hlt]
      rfl
    rw [hconclude, hr]
    unfold conclude
    split
    · exact ⟨ns, (hsettle s₁ hroles).trans hj, by simp [hposts]⟩
    · next provider description _ =>
      obtain ⟨es, hstored, hes⟩ := store_journal s₁ provider p.device description
      refine ⟨ns ++ es.map (.posted s₁.node.id), ?_, fun x hx => ?_⟩
      · rw [hsettle (s₁.store provider p.device description) hroles, hstored, hj,
          List.append_assoc]
      · rw [mem_posts, List.mem_append, ← mem_posts, hposts] at hx
        obtain ⟨e, he, heq⟩ := List.mem_map.mp (hx.resolve_left List.not_mem_nil)
        rw [← (Notice.posted.inj heq).2]
        exact hes e he

end Site

/-- The epochs of the terms on which the member decided the pushes to the device that it started. -/
def epochsStarted (n : NodeId) (d : DeviceId) (ns : List Notice) : List Nat :=
  (started ns).filterMap fun x => if x.1 = n ∧ x.2.device = d then x.2.epoch else none

theorem epochsStarted_append (n : NodeId) (d : DeviceId) (ns ns' : List Notice) :
    epochsStarted n d (ns ++ ns') = epochsStarted n d ns ++ epochsStarted n d ns' := by
  rw [epochsStarted, started_append, List.filterMap_append]
  rfl

theorem mem_epochsStarted {n : NodeId} {d : DeviceId} {ns : List Notice} {e : Nat} :
    e ∈ epochsStarted n d ns ↔ ∃ p, (n, p) ∈ started ns ∧ p.device = d ∧ p.epoch = some e := by
  simp only [epochsStarted, List.mem_filterMap, Option.ite_none_right_eq_some]
  constructor
  · rintro ⟨⟨m, p⟩, hmem, ⟨rfl, hd⟩, he⟩
    exact ⟨p, hmem, hd, he⟩
  · rintro ⟨p, hmem, hd, he⟩
    exact ⟨(n, p), hmem, ⟨rfl, hd⟩, he⟩

namespace World

variable {n : NodeId} {d : DeviceId} {w w₀ : World} {a : Act} {seen : List Term}

/-- The term on which the member bases a decision about the device in an act, if it does. -/
def basis (w : World) (n : NodeId) (d : DeviceId) : Act → List Term
  | .task m t =>
    if m = n ∧ t.device = d then ((w.cluster.site? n).bind (·.basis t)).toList else []
  | _ => []

/-- All terms on which the member based decisions about the device while the acts were done. -/
def observed (n : NodeId) (d : DeviceId) : World → List Act → List Term :=
  gather fun w => w.basis n d

theorem forgets_of_site {s : Site} {t : Site.Task} (hs : w.cluster.site? n = some s)
    (hd : t.device = d) (h : s.Forgets t) : w.Forgets n d (.task n t) := by
  subst hd
  cases t with
  | disconnect slot d => exact .disconnect hs h
  | remove d => exact .remove hs h
  | _ => exact h.elim

/-- The epoch that the member knows of the device has not fallen, nor below that of a decision. -/
theorem Kept.step_minds (h : w.Kept) (ha : ¬ w.Forgets n d a) {s' : Site}
    (hs' : (w.step a).cluster.site? n = some s') :
    ∃ s, w.cluster.site? n = some s ∧
      (s.node.roles.entry d).epoch ≤ (s'.node.roles.entry d).epoch ∧
      ∀ t ∈ w.basis n d a, t.epoch ≤ (s'.node.roles.entry d).epoch := by
  by_cases hc : w.Concerns n d a
  · have hstep := hc.step
    generalize w.step a = w' at hstep hs'
    cases hstep with
    | absent hs =>
      rw [hs] at hs'
      cases hs'
    | @task s t hs hd =>
      rw [Cluster.site?_setSite_self] at hs'
      obtain rfl := Option.some.inj hs'
      have hminds := s.run_minds fun hf => ha (forgets_of_site hs hd hf)
      subst hd
      refine ⟨s, hs, hminds.rises, fun u hu => hminds.noted u ?_⟩
      simpa [basis, hs] using hu
    | @answer s i p hs hi hd =>
      rw [Cluster.site?_setSite_self] at hs'
      obtain rfl := Option.some.inj hs'
      subst hd
      exact ⟨s, hs, s.answer_epoch p, by simp [basis]⟩
  · obtain ⟨s, hs, hu⟩ := (h.step_spares hc).site s' hs'
    refine ⟨s, hs, by rw [hu.entry], fun t ht => ?_⟩
    -- Who bases a decision about the device on a term is concerned with it.
    cases a with
    | task m x =>
      simp only [basis] at ht
      split at ht
      · next hx => exact absurd hx hc
      · cases ht
    | _ => cases ht

/-- A push to the device that is started carries the epoch that the member knows of it. -/
theorem Kept.step_starts (h : w.Kept) (ha : ¬ w.Forgets n d a) :
    ∃ ns, (w.step a).cluster.journal = w.cluster.journal ++ ns ∧ ∀ e ∈ epochsStarted n d ns,
      ∃ s', (w.step a).cluster.site? n = some s' ∧ e = (s'.node.roles.entry d).epoch := by
  have hsteps := w.steps a
  generalize w.step a = w' at hsteps ⊢
  cases hsteps with
  | idle => exact ⟨[], (List.append_nil _).symm, by simp [epochsStarted]⟩
  | @task m s t hs =>
    obtain ⟨ms, hdecides⟩ := s.run_decides t
    obtain ⟨ns, hj, _, hstarted⟩ := hdecides.does.journal
    refine ⟨ns, hj.trans (by rw [Cluster.site?_journal hs]), fun e he => ?_⟩
    obtain ⟨p, hp, hd, hepoch⟩ := mem_epochsStarted.mp he
    rw [hstarted, h.id m s hs] at hp
    obtain ⟨q, hq, heq⟩ := List.mem_map.mp hp
    obtain ⟨rfl, rfl⟩ := Prod.mk.inj heq
    have hleft := Option.mem_toList.mp hq
    have hdevice := (hdecides.device q hleft).symm.trans hd
    have hminds := s.run_minds fun hf => ha (forgets_of_site hs hdevice hf)
    exact ⟨_, Cluster.site?_setSite_self _ _ _, hdevice ▸ hminds.pushed q e hleft hepoch⟩
  | @change m s c hs =>
    refine ⟨[], ?_, by simp [epochsStarted]⟩
    rw [List.append_nil]
    exact (s.change_keeps c).2.1.trans (Cluster.site?_journal hs)
  | @answer m s i p hi hs =>
    obtain ⟨ns, hj, _, hstarted⟩ := (s.answer_does p).journal
    refine ⟨ns, hj.trans (by rw [Cluster.site?_journal hs]), ?_⟩
    simp [epochsStarted, hstarted]
  | lost => exact ⟨[], (List.append_nil _).symm, by simp [epochsStarted]⟩
  | moved a move => exact ⟨_, rfl, by simp [epochsStarted]⟩

/-- Since the world `w₀` the member has not forgotten the device, and has based decisions about it on
the terms `seen`. It knows of no older epoch than theirs and those of the pushes that it has started,
which have never gone back. -/
structure Guarding (n : NodeId) (d : DeviceId) (seen : List Term) (w₀ w : World) : Prop where
  kept : w.Kept
  seen : ∀ s, w.cluster.site? n = some s → ∀ t ∈ seen, t.epoch ≤ (s.node.roles.entry d).epoch
  started : ∃ ns, w.cluster.journal = w₀.cluster.journal ++ ns ∧
    (epochsStarted n d ns).Pairwise (· ≤ ·) ∧
    ∀ s, w.cluster.site? n = some s → ∀ e ∈ epochsStarted n d ns,
      e ≤ (s.node.roles.entry d).epoch

theorem Kept.guarding (h : w.Kept) (n : NodeId) (d : DeviceId) : Guarding n d [] w w :=
  ⟨h, by simp, [], (List.append_nil _).symm, by simp [epochsStarted], by simp [epochsStarted]⟩

theorem Guarding.step (h : Guarding n d seen w₀ w) (ha : ¬ w.Forgets n d a) :
    Guarding n d (seen ++ w.basis n d a) w₀ (w.step a) := by
  obtain ⟨hkept, hseen, ns, hj, hordered, hbelow⟩ := h
  obtain ⟨ns', hj', hstarts⟩ := hkept.step_starts ha
  refine ⟨hkept.step a, fun s' hs' t ht => ?_, ns ++ ns', by rw [hj', hj, List.append_assoc], ?_,
    fun s' hs' e he => ?_⟩
  · obtain ⟨s, hs, hrises, hnoted⟩ := hkept.step_minds ha hs'
    rcases List.mem_append.mp ht with ht | ht
    · exact Nat.le_trans (hseen s hs t ht) hrises
    · exact hnoted t ht
  · rw [epochsStarted_append, List.pairwise_append]
    refine ⟨hordered, ?_, fun e he e' he' => ?_⟩
    · refine List.pairwise_of_forall_mem_list fun e he e' he' => Nat.le_of_eq ?_
      obtain ⟨s', hs', rfl⟩ := hstarts e he
      obtain ⟨x, hx, rfl⟩ := hstarts e' he'
      rw [Option.some.inj (hs'.symm.trans hx)]
    · obtain ⟨s', hs', rfl⟩ := hstarts e' he'
      obtain ⟨s, hs, hrises, _⟩ := hkept.step_minds ha hs'
      exact Nat.le_trans (hbelow s hs e he) hrises
  · obtain ⟨s, hs, hrises, _⟩ := hkept.step_minds ha hs'
    rw [epochsStarted_append] at he
    rcases List.mem_append.mp he with he | he
    · exact Nat.le_trans (hbelow s hs e he) hrises
    · obtain ⟨x, hx, rfl⟩ := hstarts e he
      rw [Option.some.inj (hs'.symm.trans hx)]

theorem Guarding.run (h : Guarding n d seen w₀ w) {as : List Act}
    (ha : Throughout (fun w a => ¬ w.Forgets n d a) w as) :
    Guarding n d (seen ++ observed n d w as) w₀ (as.foldl World.step w) := by
  induction as generalizing w seen with
  | nil => simpa [observed, gather] using h
  | cons a as ih =>
    have hrest := ih (h.step ha.1) ha.2
    rwa [List.append_assoc] at hrest

/-- A decision about the device that is based on an older epoch than one known of it comes to nothing. -/
theorem task_dropped {s : Site} {t : Site.Task} {u : Term} (hid : s.node.id = n)
    (hs : w.cluster.site? n = some s) (hd : t.device = d) (hb : s.basis t = some u)
    (hu : u.epoch < (s.node.roles.entry d).epoch) :
    (w.step (.task n t)).pending = w.pending ∧
      (∃ s', (w.step (.task n t)).cluster.site? n = some s' ∧
        s'.node.roles.entry d = s.node.roles.entry d) ∧
      ∃ ns, (w.step (.task n t)).cluster.journal = w.cluster.journal ++ ns ∧
        ∀ x ∈ ns, x.Idle n d := by
  subst hd hid
  obtain ⟨hpush, hentry, ns, hj, hidle⟩ := Site.run_drops hb hu
  rw [step_task hs, hpush]
  exact ⟨List.append_nil _, ⟨_, Cluster.site?_setSite_self _ _ _, hentry⟩, ns,
    hj.trans (by rw [Cluster.site?_journal hs]), hidle⟩

/-- An accepted push that was decided on an older epoch than one known of the device is not heeded. -/
theorem answer_dropped {s : Site} {i : Nat} {p : Push} {e : Nat} (hs : w.cluster.site? n = some s)
    (hi : w.pending[i]? = some (n, p)) (hd : p.device = d) (hr : s.reply p = .ok ())
    (he : p.epoch = some e) (hlt : e < (s.node.roles.entry d).epoch) :
    (∃ s', (w.step (.answer i)).cluster.site? n = some s' ∧
        s'.node.roles.entry d = s.node.roles.entry d) ∧
      ∃ ns, (w.step (.answer i)).cluster.journal = w.cluster.journal ++ ns ∧
        ∀ x ∈ posts ns, x.2.kind ≠ .mastershipChanged := by
  subst hd
  obtain ⟨hentry, ns, hj, hposts⟩ := Site.answer_drops hr he hlt
  rw [step_answer hi hs]
  exact ⟨⟨_, Cluster.site?_setSite_self _ _ _, hentry⟩, ns,
    hj.trans (by rw [Cluster.site?_journal hs]), hposts⟩

/-- Epochs guard a member against stale decisions, whatever terms it is told. Let anything happen in a
cluster, and then let acts be done in which the member does not forget the device. The epochs of the
terms on which it decided the pushes to the device that it has started meanwhile never go back. If it
now decides about the device on a term with an older epoch than one of a term on which it decided
meanwhile, then it starts no push, applies and takes back no role, gives nothing up, and tells of no
role. If the device now accepts a push that was decided on such an older term, then the role is not
recorded and not told of. -/
theorem epochs_guard {c : Cluster} (hc : c.Fresh) {before as : List Act} {n : NodeId}
    {d : DeviceId} {w w' : World} (hw : w = before.foldl World.step ⟨c, []⟩)
    (ha : Throughout (fun w a => ¬ w.Forgets n d a) w as) (hw' : w' = as.foldl World.step w) :
    (∃ ns, w'.cluster.journal = w.cluster.journal ++ ns ∧
      (epochsStarted n d ns).Pairwise (· ≤ ·)) ∧
    ∀ s, w'.cluster.site? n = some s → ∀ x ∈ observed n d w as,
      (∀ t u, t.device = d → s.basis t = some u → u.epoch < x.epoch →
        (w'.step (.task n t)).pending = w'.pending ∧
        (∃ s', (w'.step (.task n t)).cluster.site? n = some s' ∧
          s'.node.roles.entry d = s.node.roles.entry d) ∧
        ∃ ns, (w'.step (.task n t)).cluster.journal = w'.cluster.journal ++ ns ∧
          ∀ y ∈ ns, y.Idle n d) ∧
      ∀ i p e, w'.pending[i]? = some (n, p) → p.device = d → s.reply p = .ok () →
        p.epoch = some e → e < x.epoch →
        (∃ s', (w'.step (.answer i)).cluster.site? n = some s' ∧
          s'.node.roles.entry d = s.node.roles.entry d) ∧
        ∃ ns, (w'.step (.answer i)).cluster.journal = w'.cluster.journal ++ ns ∧
          ∀ y ∈ posts ns, y.2.kind ≠ .mastershipChanged := by
  have hkept : w.Kept := hw ▸ (kept_of_fresh hc).run before
  have hguard : Guarding n d (observed n d w as) w w' := hw' ▸ (hkept.guarding n d).run ha
  obtain ⟨ns, hj, hordered, _⟩ := hguard.started
  refine ⟨⟨ns, hj, hordered⟩, fun s hs x hx => ⟨fun t u hd hb hu => ?_, fun i p e hi hd hr he hlt => ?_⟩⟩
  · exact task_dropped (hguard.kept.id n s hs) hs hd hb (Nat.lt_of_lt_of_le hu (hguard.seen s hs x hx))
  · exact answer_dropped hs hi hd hr he (Nat.lt_of_lt_of_le hlt (hguard.seen s hs x hx))

end World

namespace Sample

/-- The member serves the device, which has not answered yet to be MASTER. -/
def biddingActs : List World.Act :=
  opens east ++ [.change east (.setLine 0 lamp { reachable := true }),
    .task east (.connect 0 lamp default)]

def bidding : World := biddingActs.foldl World.step ⟨pair, []⟩

/-- From now on the first member is told this term of the device. -/
def tells (term : Term) : World.Act :=
  .change east (.setFaults { terms := (∅ : Table DeviceId _).insert lamp (some term) })

/-- The member is told of an owner to come, and decides on that, before it is told of a time between. -/
def outrunActs : List World.Act :=
  [tells ⟨west, 5⟩, .task east (.reassert lamp .none), tells ⟨east, 3⟩]

def outrun : World := outrunActs.foldl World.step bidding

/-- The push of MASTER that the device has not answered yet. -/
def bid : Push := ⟨0, lamp, .master, some 1, .store ⟨"of", "sim"⟩ default⟩

theorem outrun_remembers :
    World.Throughout (fun w a => ¬ w.Forgets east lamp a) bidding outrunActs :=
  ⟨nofun, nofun, nofun, trivial⟩

theorem outrun_observed : ⟨west, 5⟩ ∈ World.observed east lamp bidding outrunActs := by
  have h : World.observed east lamp bidding outrunActs = [⟨west, 5⟩] := by decide +kernel
  rw [h]
  exact List.mem_singleton_self _

theorem outrun_pending : outrun.pending[0]? = some (east, bid) := by decide +kernel

theorem outrun_late : ∃ s, outrun.cluster.site? east = some s ∧
    s.basis (.reassert lamp .none) = some ⟨east, 3⟩ ∧ s.reply bid = .ok () ∧
    s.node.roles.entry lamp = ⟨.none, 5⟩ := by
  have h : (outrun.cluster.site? east).any (fun s =>
      s.basis (.reassert lamp .none) == some ⟨east, 3⟩ && s.reply bid == .ok () &&
        s.node.roles.entry lamp == ⟨.none, 5⟩) = true := by
    decide +kernel
  simpa [Option.any_eq_true, and_assoc] using h

end Sample

/-- The member neither decides on a time that is over nor becomes master by an answer to what it decided
before that. -/
theorem World.outrun_guarded :
    (Sample.outrun.step (.task Sample.east (.reassert Sample.lamp .none))).pending =
        Sample.outrun.pending ∧
      ∃ s, (Sample.outrun.step (.answer 0)).cluster.site? Sample.east = some s ∧
        s.node.roles.entry Sample.lamp = ⟨.none, 5⟩ := by
  obtain ⟨s, hs, hbasis, hreply, hentry⟩ := Sample.outrun_late
  obtain ⟨htask, hanswer⟩ := (epochs_guard Sample.pair_fresh (rfl : Sample.bidding = _)
    Sample.outrun_remembers (rfl : Sample.outrun = _)).2 s hs _ Sample.outrun_observed
  obtain ⟨⟨s', hs', hsame⟩, _⟩ :=
    hanswer 0 Sample.bid 1 Sample.outrun_pending rfl hreply rfl (by decide)
  exact ⟨(htask (.reassert Sample.lamp .none) _ rfl hbasis (by decide)).1, s', hs',
    hsame.trans hentry⟩

end Mastership
