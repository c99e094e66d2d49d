import Mastership.Proofs.Epochs

namespace Mastership.Site

variable {d : DeviceId} {ms : List Seat.Move} {ps : List Push} {s s' : Site}

/-- The role last applied to a device. -/
def applied (s : Site) (d : DeviceId) : Role := s.node.roles.role d

def stored (s : Site) (d : DeviceId) : Bool := (s.node.replica.device? d).isSome

theorem applied_of_roles (h : s'.node.roles = s.node.roles) (d : DeviceId) :
    s'.applied d = s.applied d := by
  simp only [applied, h]

theorem relinquish_applied (s : Site) (d : DeviceId) : (s.relinquish d).applied d = .none := by
  rw [applied, relinquish_roles, RoleTable.role_clear]

theorem conclude_error_applied (s : Site) (p : Push) (e : Failure) :
    (s.conclude p (.error e)).applied p.device = .none := by
  rw [applied, conclude_error_roles, RoleTable.role_clear]

/-- Whether a device accepts the roles that this controller pushes. -/
def accepts (s : Site) (d : DeviceId) : Bool :=
  (s.node.south.lineFor d).any fun line => !line.broken && !line.rejecting

theorem Does.accepts_eq (h : Does d ms ps s s') (d' : DeviceId) :
    s'.accepts d' = s.accepts d' := by
  simp only [accepts, h.south.lineFor]

theorem Does.applied_ne (h : Does d ms ps s s') {d' : DeviceId} (hd : d' ≠ d) :
    s'.applied d' = s.applied d' := by
  simp only [applied, RoleTable.role, h.role_ne hd]

theorem Does.stored_ne (h : Does d ms ps s s') {d' : DeviceId} (hd : d' ≠ d) :
    s'.stored d' = s.stored d' := by
  simp only [stored, h.device?_ne hd]

theorem Does.lineFor_eq (h : Does d ms ps s s') (d' : DeviceId) :
    s'.node.south.lineFor d' = s.node.south.lineFor d' :=
  h.south.lineFor d'

theorem stored_of_replica (h : s'.node.replica = s.node.replica) (d : DeviceId) :
    s'.stored d = s.stored d := by
  simp only [stored, h]

/-- The owner of the present term is the master. -/
theorem owns_term? (s : Site) (d : DeviceId) :
    s.owns (s.election.term? d) = decide (s.election.master? d = some s.node.id) := by
  rw [Election.term?, Seat.term?, Election.master?, owns]
  cases (s.election.seat d).master with
  | none => rfl
  | some n => simp [beq_eq_decide]

theorem Truthful.owns_iff (h : s.Truthful) (d : DeviceId) :
    s.owns (s.term? d) = decide (s.election.master? d = some s.node.id) := by
  rw [h.term?_eq, owns_term?]

theorem Truthful.target_eq (h : s.Truthful) (d : DeviceId) (requested : Role) :
    s.target d requested =
      targetRole requested (decide (s.election.master? d = some s.node.id)) := by
  rw [target, h.owns_iff]

theorem targetRole_ne_none (requested : Role) (owned : Bool) :
    targetRole requested owned ≠ .none := by
  unfold targetRole
  split <;> simp

/-- A push that the provider in charge of its device has got. -/
def Fits (s : Site) (p : Push) : Prop := s.node.south.slotFor p.device = some p.slot

theorem reply_of_fits {p : Push} (hp : s.Fits p) :
    s.accepts p.device = true ∧ s.reply p = .ok () ∨
      s.accepts p.device = false ∧ ∃ e, s.reply p = .error e := by
  simp only [reply, accepts, Southbound.finish, Southbound.lineFor, show
    s.node.south.slotFor p.device = some p.slot from hp, Option.bind_some]
  cases hq : s.node.south.providers.get? p.slot with
  | none => exact .inr ⟨rfl, _, rfl⟩
  | some q =>
    simp only [Provider.answer, Option.map_some, Option.any_some]
    cases hb : (q.line p.device).broken with
    | true => exact .inr ⟨by simp, _, rfl⟩
    | false =>
      cases hr : (q.line p.device).rejecting with
      | true => exact .inr ⟨by simp, _, rfl⟩
      | false => exact .inl ⟨by simp, rfl⟩

/-- A push that is not older than what is known of its device. -/
def Timely (s : Site) (p : Push) : Prop :=
  ∀ e, p.epoch = some e → (s.node.roles.entry p.device).epoch ≤ e

theorem Does.reply_eq (h : Does d ms ps s s') (p : Push) : s'.reply p = s.reply p := by
  simp only [reply, h.south.finish_result]

theorem answer_ok_does {p : Push} (hr : s.reply p = .ok ()) :
    Does p.device [] [] s (s.answer p) := by
  have hd := answer_does s p
  rwa [hr] at hd

/-- An accepted push is applied. -/
theorem answer_ok_applied {p : Push} (hr : s.reply p = .ok ()) (ht : s.Timely p) :
    (s.answer p).applied p.device = p.role := by
  obtain ⟨s₁, _, hroles, _, he⟩ := answer_eq s p
  rw [he, hr, applied, RoleTable.role, conclude_ok_roles, hroles, RoleTable.entry_record _ _ _ ht]

theorem reply_of_accepts {p : Push} (hp : s.Fits p) (ha : s.accepts p.device) :
    s.reply p = .ok () := by
  rcases reply_of_fits hp with ⟨_, hr⟩ | ⟨hn, _⟩
  · exact hr
  · simp [ha] at hn

theorem answer_taken {p : Push} (hp : s.Fits p) (ha : s.accepts p.device) :
    s.reply p = .ok () ∧ Does p.device [] [] s (s.answer p) :=
  have hr := reply_of_accepts hp ha
  ⟨hr, answer_ok_does hr⟩

theorem answer_accepted {p : Push} (hp : s.Fits p) (ht : s.Timely p) (ha : s.accepts p.device) :
    Does p.device [] [] s (s.answer p) ∧ (s.answer p).applied p.device = p.role :=
  have hr := reply_of_accepts hp ha
  ⟨answer_ok_does hr, answer_ok_applied hr ht⟩

/-- For a refused push the device is given up. -/
theorem answer_refused {p : Push} (hp : s.Fits p) (ha : s.accepts p.device = false) :
    Does p.device s.withdrawals [] s (s.answer p) ∧ (s.answer p).applied p.device = .none := by
  obtain ⟨e, hr⟩ : ∃ e, s.reply p = .error e := by
    rcases reply_of_fits hp with ⟨hn, _⟩ | ⟨_, hr⟩
    · simp [ha] at hn
    · exact hr
  have hd := answer_does s p
  rw [hr] at hd
  refine ⟨hd, ?_⟩
  obtain ⟨s₁, _, _, _, he⟩ := answer_eq s p
  rw [he, hr]
  exact conclude_error_applied s₁ p e

theorem answer_settled {p : Push} (h : p.sequel = .settle) (d : DeviceId) :
    (s.answer p).stored d = s.stored d := by
  obtain ⟨s₁, _, _, hreplica, he⟩ := answer_eq s p
  rw [he, ← stored_of_replica hreplica]
  refine stored_of_replica ?_ d
  simp only [conclude, h, settle_replica]

theorem answer_stores {p : Push} {provider : ProviderId} {description : DeviceDescription}
    (h : p.sequel = .store provider description) : (s.answer p).stored p.device = true := by
  obtain ⟨s₁, _, _, _, he⟩ := answer_eq s p
  rw [he]
  simp only [conclude, h, stored, settle_replica, store_device?]
  rfl

/-- A decision about `d` has left a push that its provider has got and that is decided on the term as
it is: of MASTER if the controller owns it and is not asked for STANDBY, else of STANDBY. -/
structure Pushes (d : DeviceId) (ms : List Seat.Move) (requested : Role) (sequel : Push.Sequel)
    (s s' : Site) (p : Push) : Prop where
  does : Does d ms [p] s s'
  truthful : s'.Truthful
  device : p.device = d
  role : p.role = targetRole requested (decide (s'.election.master? d = some s.node.id))
  fits : s'.Fits p
  timely : s'.Timely p
  opened : s'.Opened p.device p.epoch
  sequel : p.sequel = sequel
  stored : s'.stored d = s.stored d
  applied : s'.applied d = s.applied d

theorem slotFor_of_line (h : (s.node.south.lineFor d).isSome) :
    (s.node.south.slotFor d).isSome := by
  simp only [Southbound.lineFor] at h
  cases hs : s.node.south.slotFor d with
  | none => simp [hs] at h
  | some slot => rfl

theorem start_served (h : (s.node.south.slotFor d).isSome) {role : Role} (hr : role ≠ .none) :
    ∃ slot, s.node.south.slotFor d = some slot ∧ s.node.south.start d role = .ok (some slot) := by
  obtain ⟨slot, hs⟩ := Option.isSome_iff_exists.mp h
  exact ⟨slot, hs, by simp [Southbound.start, hr, hs]⟩

/-- An informed controller that starts to push. -/
theorem Truthful.informed_pushes (ht : s.Truthful) (hl : (s.node.south.slotFor d).isSome)
    (requested : Role) (sequel : Push.Sequel) {i : Site}
    (hi : Does d [] [] (s.informed d requested) i)
    (hroles : i.node.roles = (s.informed d requested).node.roles)
    (hstored : i.stored d = (s.informed d requested).stored d) :
    ∃ s' p, i.startPush d ((s.informed d requested).target d requested)
        (((s.informed d requested).term? d).map Term.epoch) sequel = (s', some p) ∧
      Pushes d (s.asking requested) requested sequel s s' p := by
  have hd := informed_does s d requested
  have hti := ht.informed d requested
  have htarget := hti.target_eq d requested
  have hne := targetRole_ne_none requested
    (decide ((s.informed d requested).election.master? d = some (s.informed d requested).node.id))
  rw [← htarget] at hne
  rw [hd.id] at htarget
  have hdi := hd.then hi
  obtain ⟨slot, hslot, hstart⟩ := start_served (s := i) (by rwa [hdi.south.slotFor]) hne
  let p : Push := ⟨slot, d, (s.informed d requested).target d requested,
    ((s.informed d requested).term? d).map Term.epoch, sequel⟩
  have hn : Does d [] [p] i (i.note [.started i.node.id p]) := note_does i rfl rfl
  refine ⟨i.note [.started i.node.id p], p, ?_, ?_⟩
  · rw [Site.startPush, hstart]
  have htruthful := hn.truthful_of_eq (hi.truthful_of_eq hti hroles) rfl
  refine ⟨by simpa using hdi.trans hn, htruthful, rfl, ?_, hslot, ?_, ?_, rfl, ?_, ?_⟩
  · rw [show (i.note [.started i.node.id p]).election = _ from hi.election]
    exact htarget
  · intro e he
    obtain ⟨t, hterm, rfl⟩ := Option.map_eq_some_iff.mp he
    rw [hti.term?_eq] at hterm
    change (i.node.roles.entry d).epoch ≤ t.epoch
    rw [hroles, term?_epoch hterm]
    exact hti.seen d
  · exact hi.opened (hti.opened d)
  · change i.stored d = s.stored d
    rw [hstored]
    exact stored_of_replica (informed_replica s d requested) d
  · change i.applied d = s.applied d
    simp only [applied, RoleTable.role, hroles, informed_entry]

/-- A truthful controller never takes its own decision for stale. -/
theorem Truthful.informed_current (ht : s.Truthful) (d : DeviceId) (requested : Role) :
    (s.asked d requested).current d ((s.informed d requested).term? d) = true := by
  rw [informed_term?]
  exact (ht.asked d requested).current d

theorem Truthful.reassert_starts (ht : s.Truthful) (d : DeviceId) (requested : Role) :
    s.reassert d requested =
      let i := s.informed d requested
      (if i.target d requested = .master then i.markOnline d else i).startPush d
        (i.target d requested) ((i.term? d).map Term.epoch) .settle := by
  simp only [reassert_eq, ht.informed_current d requested, if_true]

theorem Truthful.connected_starts (ht : s.Truthful) (slot : Nat) (d : DeviceId)
    (description : DeviceDescription) :
    s.connected slot d description =
      let i := s.informed d .none
      i.startPush d (i.target d .none) ((i.term? d).map Term.epoch)
        (.store (s.providerId slot) description) := by
  simp only [connected_eq, ht.informed_current d .none, if_true]

theorem Truthful.reassert_pushes (ht : s.Truthful) (hl : (s.node.south.slotFor d).isSome)
    (requested : Role) :
    ∃ s' p, s.reassert d requested = (s', some p) ∧
      Pushes d (s.asking requested) requested .settle s s' p := by
  rw [ht.reassert_starts]
  apply ht.informed_pushes hl requested .settle (markIf_does _ d _)
  · split <;> simp
  · split
    · exact markOnline_stored _ d
    · rfl

theorem Truthful.connected_pushes (ht : s.Truthful) (hl : (s.node.south.slotFor d).isSome)
    (slot : Nat) (description : DeviceDescription) :
    ∃ s' p, s.connected slot d description = (s', some p) ∧
      Pushes d s.requests .none (.store (s.providerId slot) description) s s' p := by
  rw [ht.connected_starts]
  exact ht.informed_pushes hl .none (.store (s.providerId slot) description) (.refl d _) rfl rfl

/-- The moves of a controller whose push is answered. -/
def yielding (s : Site) (d : DeviceId) : List Seat.Move :=
  if s.accepts d then [] else s.withdrawals

/-- A decision about `d` was carried out: the device has accepted the role, or it is given up. -/
structure Applies (d : DeviceId) (ms : List Seat.Move) (requested : Role) (s s' : Site) :
    Prop where
  does : ∃ p, Does d (ms ++ s.yielding d) [p] s s'
  truthful : s'.Truthful
  accepted : s.accepts d = true →
    s'.applied d = targetRole requested (decide (s'.election.master? d = some s.node.id))
  refused : s.accepts d = false → s'.applied d = .none

theorem Pushes.answered {requested : Role} {sequel : Push.Sequel} {p : Push}
    (h : Pushes d ms requested sequel s s' p) : Applies d ms requested s (s'.answer p) := by
  have hd := h.device
  subst hd
  have ha := h.does.accepts_eq p.device
  have ht := h.truthful.answer h.opened
  cases hs : s.accepts p.device with
  | true =>
    obtain ⟨hd, happ⟩ := answer_accepted h.fits h.timely (ha.trans hs)
    refine ⟨⟨p, by simpa [yielding, hs] using h.does.trans hd⟩, ht, ?_, by simp [hs]⟩
    intro _
    rw [happ, h.role, show (s'.answer p).election = _ from hd.election]
    rfl
  | false =>
    obtain ⟨hd, happ⟩ := answer_refused h.fits (ha.trans hs)
    rw [h.does.withdrawals_eq] at hd
    exact ⟨⟨p, by simpa [yielding, hs] using h.does.trans hd⟩, ht, by simp [hs], fun _ => happ⟩

theorem Truthful.reassert_applies (ht : s.Truthful) (hl : (s.node.south.lineFor d).isSome)
    (requested : Role) :
    Applies d (s.asking requested) requested s (answerNow (s.reassert d requested)) ∧
      (answerNow (s.reassert d requested)).stored d = s.stored d := by
  obtain ⟨s', p, he, hp⟩ := ht.reassert_pushes (slotFor_of_line hl) requested
  rw [he]
  exact ⟨hp.answered, (answer_settled hp.sequel d).trans hp.stored⟩

theorem Truthful.connected_applies (ht : s.Truthful) (hl : (s.node.south.lineFor d).isSome)
    (slot : Nat) (description : DeviceDescription) :
    Applies d s.requests .none s (answerNow (s.connected slot d description)) ∧
      (answerNow (s.connected slot d description)).stored d = true := by
  obtain ⟨s', p, he, hp⟩ := ht.connected_pushes (slotFor_of_line hl) slot description
  rw [he]
  exact ⟨hp.answered, hp.device ▸ answer_stores hp.sequel⟩

@[simp] theorem answerNow_none (s : Site) : answerNow (s, none) = s := rfl

/-- The role that an announcement gives to this controller, as it takes it. -/
theorem suggestedRole_eq (ht : s.Truthful) (a : Announcement) :
    (s.suggestedRole a).2 = match a.standing.roleOf s.node.id with
      | .master => if s.election.master? a.device = some s.node.id then .master else .standby
      | role => role := by
  unfold suggestedRole
  cases a.standing.roleOf s.node.id with
  | none => rfl
  | standby => rfl
  | master =>
    have ho := (observeTerm_does s a.device).owns_eq (s.term? a.device)
    simp only [observeTerm_answer, ho, ht.owns_iff, decide_eq_true_eq]

/-- The moves of a controller that handles an announcement to the end. -/
def hearing (s : Site) (a : Announcement) : List Seat.Move :=
  match a.kind, s.reachable? a.device with
  | .backups, _ => []
  | .master, none => []
  | .master, some false => if a.standing.roleOf s.node.id = .none then [] else s.withdrawals
  | .master, some true =>
    if s.stored a.device then s.asking (a.standing.roleOf s.node.id) ++ s.yielding a.device else []

theorem reachable?_served (h : s.reachable? d = some true) :
    (s.node.south.lineFor d).isSome := by
  simp only [reachable?] at h
  cases hl : s.node.south.lineFor d with
  | none => simp [hl] at h
  | some line => rfl

theorem suggestedRole_roles (s : Site) (a : Announcement) :
    (s.suggestedRole a).1.node.roles = s.node.roles := by
  unfold suggestedRole
  split <;> simp

theorem suggestedRole_stored (s : Site) (a : Announcement) (d : DeviceId) :
    (s.suggestedRole a).1.stored d = s.stored d := by
  refine stored_of_replica ?_ d
  unfold suggestedRole
  split <;> simp

/-- Whoever is announced in no role is suggested none, whatever the terms say. -/
theorem suggestedRole_none_iff (s : Site) (a : Announcement) :
    (s.suggestedRole a).2 = .none ↔ a.standing.roleOf s.node.id = .none := by
  unfold suggestedRole
  cases a.standing.roleOf s.node.id with
  | none => simp
  | standby => simp
  | master =>
    dsimp only
    split <;> simp

/-- What the handling of an announcement comes to. -/
structure Hears (a : Announcement) (s s' : Site) : Prop where
  does : ∃ ps, Does a.device (s.hearing a) ps s s'
  truthful : s'.Truthful
  stored : s'.stored a.device = s.stored a.device
  /-- A reached and stored device that accepts roles is given the role that the announcement
  suggests, but MASTER by its owner alone. -/
  near : a.kind = .master → s.reachable? a.device = some true → s.stored a.device = true →
    s.accepts a.device = true → s'.applied a.device =
      targetRole (a.standing.roleOf s.node.id)
        (decide (s'.election.master? a.device = some s.node.id))
  far : s.reachable? a.device = some false →
    s'.applied a.device = s.applied a.device ∨ s'.applied a.device = .none

theorem Truthful.hears (ht : s.Truthful) (a : Announcement) :
    Hears a s (answerNow (s.handle a)) := by
  cases hk : a.kind with
  | backups =>
    simp only [Site.handle, hk]
    exact ⟨⟨[], by simpa [hearing, hk] using .refl a.device s⟩, ht, rfl, by simp [hk],
      fun _ => .inl rfl⟩
  | master =>
    have hs := suggestedRole_does s a
    have hts := hs.truthful_of_eq ht (suggestedRole_roles s a)
    have hst := suggestedRole_stored s a a.device
    have happ := applied_of_roles (suggestedRole_roles s a) a.device
    have hnone := suggestedRole_none_iff s a
    have hrole := suggestedRole_eq ht a
    simp only [Site.handle, hk, followMaster]
    generalize s.suggestedRole a = r at hs hts hst happ hnone hrole ⊢
    obtain ⟨s₁, suggested⟩ := r
    dsimp only at hs hts hst happ hnone hrole ⊢
    cases hr : s.reachable? a.device with
    | none =>
      rw [hs.reachable?, hr]
      exact ⟨⟨[], by simpa [hearing, hk, hr] using hs⟩, hts, hst, by simp [hr], by simp [hr]⟩
    | some reached =>
      rw [hs.reachable?, hr]
      cases reached with
      | false =>
        dsimp only
        by_cases hn : suggested = .none
        · rw [if_pos hn]
          exact ⟨⟨[], by simpa [hearing, hk, hr, hnone.mp hn] using hs⟩, hts, hst, by simp [hr],
            fun _ => .inl happ⟩
        · have hd := (relinquish_does s₁ a.device).after hs
          rw [hs.withdrawals_eq] at hd
          rw [if_neg hn]
          refine ⟨⟨[], ?_⟩, hts.relinquish a.device, ?_, by simp [hr], fun _ => .inr ?_⟩
          · simpa [hearing, hk, hr, mt hnone.mpr hn] using hd
          · exact (stored_of_replica (relinquish_replica s₁ _) _).trans hst
          · exact relinquish_applied s₁ a.device
      | true =>
        dsimp only
        cases hst' : s.stored a.device with
        | false =>
          have hn : (s₁.node.replica.device? a.device).isSome = false := hst.trans hst'
          simp only [hn]
          exact ⟨⟨[], by simpa [hearing, hk, hr, hst'] using hs⟩, hts, hst, by simp [hst'],
            by simp [hr]⟩
        | true =>
          have hn : (s₁.node.replica.device? a.device).isSome = true := hst.trans hst'
          simp only [hn, if_true]
          have hl := reachable?_served hr
          rw [← hs.lineFor_eq] at hl
          obtain ⟨⟨⟨p, hd⟩, hta, hacc, _⟩, hkept⟩ := hts.reassert_applies hl suggested
          generalize answerNow (s₁.reassert a.device suggested) = s' at hd hta hacc hkept ⊢
          have hasking : s₁.asking suggested = s.asking (a.standing.roleOf s.node.id) := by
            simp only [asking, hnone, hs.requests_eq]
          have hyielding : s₁.yielding a.device = s.yielding a.device := by
            simp only [yielding, hs.accepts_eq, hs.withdrawals_eq]
          rw [hasking, hyielding] at hd
          refine ⟨⟨[p], ?_⟩, hta, hkept.trans hst, fun _ _ _ ha => ?_, by simp [hr]⟩
          · simpa [hearing, hk, hr, hst'] using hd.after hs
          · rw [hacc (hs.accepts_eq _ ▸ ha), hs.id, hrole]
            cases hrm : a.standing.roleOf s.node.id with
            | none => rfl
            | standby => rfl
            | master =>
              -- Nobody moves, so whether this controller is master was known beforehand.
              have he := hd.election
              simp only [hrm, asking, yielding, ha, if_true, reduceCtorEq, if_false,
                List.append_nil, Election.moves_nil] at he
              have he₁ : s₁.election = s.election := hs.election
              rw [he, he₁]
              split <;> simp [targetRole, *]

end Mastership.Site
