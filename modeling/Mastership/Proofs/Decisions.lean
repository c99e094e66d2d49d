import Mastership.Proofs.Effects

namespace Mastership.Site

variable {d : DeviceId} {ms : List Seat.Move} {s : Site}

@[simp] theorem note_node (s : Site) (ns : List Notice) : (s.note ns).node = s.node := rfl

@[simp] theorem postAll_node (s : Site) (es : List DeviceEvent) : (s.postAll es).node = s.node :=
  rfl

@[simp] theorem moveElection_node (s : Site) (moved : Election × List Announcement) :
    (s.moveElection moved).node = s.node := rfl

@[simp] theorem setRoles_roles (s : Site) (roles : RoleTable) :
    (s.setRoles roles).node.roles = roles := rfl

@[simp] theorem setRoles_replica (s : Site) (roles : RoleTable) :
    (s.setRoles roles).node.replica = s.node.replica := rfl

@[simp] theorem setReplica_roles (s : Site) (replica : Replica) :
    (s.setReplica replica).node.roles = s.node.roles := rfl

@[simp] theorem setReplica_replica (s : Site) (replica : Replica) :
    (s.setReplica replica).node.replica = replica := rfl

@[simp] theorem request_node (s : Site) (d : DeviceId) : (s.request d).node = s.node := by
  simp only [request]
  split <;> rfl

@[simp] theorem withdraw_node (s : Site) (d : DeviceId) : (s.withdraw d).node = s.node := by
  simp only [withdraw]
  split <;> rfl

@[simp] theorem postRole_node (s : Site) (d : DeviceId) (role : Role) :
    (s.postRole d role).node = s.node := by
  unfold postRole
  split <;> rfl

@[simp] theorem observeTerm_roles (s : Site) (d : DeviceId) :
    (s.observeTerm d).1.node.roles = s.node.roles := by
  unfold observeTerm
  split <;> rfl

@[simp] theorem observeTerm_replica (s : Site) (d : DeviceId) :
    (s.observeTerm d).1.node.replica = s.node.replica := by
  unfold observeTerm
  split <;> rfl

@[simp] theorem observeEpoch_replica (s : Site) (d : DeviceId) (t : Option Term) :
    (s.observeEpoch d t).1.node.replica = s.node.replica := by
  cases t <;> rfl

@[simp] theorem store_roles (s : Site) (provider : ProviderId) (d : DeviceId)
    (description : DeviceDescription) :
    (s.store provider d description).node.roles = s.node.roles := rfl

theorem store_device? (s : Site) (provider : ProviderId) (d : DeviceId)
    (description : DeviceDescription) :
    (s.store provider d description).node.replica.device? d =
      some ⟨d, provider, description, true⟩ :=
  Replica.device?_put _ _ _ _

@[simp] theorem markOnline_roles (s : Site) (d : DeviceId) :
    (s.markOnline d).node.roles = s.node.roles := by
  unfold markOnline
  split
  · rfl
  · split <;> rfl

theorem markOnline_stored (s : Site) (d : DeviceId) :
    ((s.markOnline d).node.replica.device? d).isSome = (s.node.replica.device? d).isSome := by
  unfold markOnline
  split
  · rfl
  · next device h =>
    split
    · rfl
    · rw [store_device?, h]
      rfl

@[simp] theorem relinquish_roles (s : Site) (d : DeviceId) :
    (s.relinquish d).node.roles = (s.node.roles.clear d).1 := by
  simp only [Site.relinquish]
  split <;> simp

@[simp] theorem relinquish_replica (s : Site) (d : DeviceId) :
    (s.relinquish d).node.replica = s.node.replica := by
  simp only [Site.relinquish]
  split <;> simp

@[simp] theorem settle_ok_roles (s : Site) (d : DeviceId) (role : Role) (epoch : Option Nat) :
    (s.settle d role epoch (.ok ())).node.roles = (s.node.roles.record d role epoch).1 := by
  simp only [settle]
  split <;> simp

@[simp] theorem settle_replica (s : Site) (d : DeviceId) (role : Role) (epoch : Option Nat)
    (result : Except Failure Unit) :
    (s.settle d role epoch result).node.replica = s.node.replica := by
  cases result with
  | error e => exact relinquish_replica s d
  | ok =>
    simp only [settle]
    split <;> simp

theorem conclude_ok_roles (s : Site) (p : Push) :
    (s.conclude p (.ok ())).node.roles = (s.node.roles.record p.device p.role p.epoch).1 := by
  unfold conclude
  split <;> simp

theorem conclude_error_roles (s : Site) (p : Push) (e : Failure) :
    (s.conclude p (.error e)).node.roles = (s.node.roles.clear p.device).1 := by
  simp only [conclude, settle]
  split <;> simp

theorem relinquish_does (s : Site) (d : DeviceId) :
    Does d s.withdrawals [] s (s.relinquish d) := by
  simp only [Site.relinquish]
  have hw := (withdraw_does s d).then
    (setRoles_does (s.withdraw d) fun d' hd => RoleTable.get?_clear_of_ne _ _ hd)
  split
  · exact hw.then (postRole_does _ d .none)
  · exact hw

theorem settle_ok_does (s : Site) (d : DeviceId) (role : Role) (epoch : Option Nat) :
    Does d [] [] s (s.settle d role epoch (.ok ())) := by
  simp only [settle]
  have hr := setRoles_does s fun d' hd =>
    RoleTable.get?_record_of_ne s.node.roles d hd role epoch
  split
  · exact hr.then (postRole_does _ d role)
  · exact hr

/-- What concluding a push about its outcome comes to in the election. -/
def givesUp (s : Site) : Except Failure Unit → List Seat.Move
  | .ok () => []
  | .error _ => s.withdrawals

theorem settle_does (s : Site) (d : DeviceId) (role : Role) (epoch : Option Nat)
    (result : Except Failure Unit) :
    Does d (s.givesUp result) [] s (s.settle d role epoch result) := by
  cases result with
  | ok => exact settle_ok_does s d role epoch
  | error e => exact relinquish_does s d

theorem Does.givesUp_eq (h : Does d ms ps s s') (result : Except Failure Unit) :
    s'.givesUp result = s.givesUp result := by
  cases result with
  | ok => rfl
  | error e => exact h.withdrawals_eq

theorem conclude_does (s : Site) (p : Push) (result : Except Failure Unit) :
    Does p.device (s.givesUp result) [] s (s.conclude p result) := by
  unfold conclude
  split
  · exact settle_does s _ _ _ result
  · next provider description _ =>
    have hs := store_does s provider p.device description
    exact (hs.givesUp_eq result ▸ settle_does _ _ _ _ result).after hs

/-- What a device answers to a push. -/
def reply (s : Site) (p : Push) : Except Failure Unit :=
  (s.node.south.finish p.slot p.device p.role).2.map fun _ => ()

theorem called_does (d : DeviceId) (s : Site) (slot : Nat) (calls : List Call) :
    Does d [] [] s (s.note (calls.map (.called s.node.id slot))) := by
  refine note_does s ?_ ?_ <;>
    simp [announced, started, List.filterMap_map, Function.comp_def, Rehearsal.announcement?,
      Notice.push?]

/-- An answer is the provider's doing, and then concluding the push. -/
theorem answer_eq (s : Site) (p : Push) :
    ∃ s₁, Does p.device [] [] s s₁ ∧ s₁.node.roles = s.node.roles ∧
      s₁.node.replica = s.node.replica ∧ s.answer p = s₁.conclude p (s.reply p) := by
  have hs := setSouth_does p.device s (s.node.south.finish_alike p.slot p.device p.role)
  simp only [answer, reply]
  cases (s.node.south.finish p.slot p.device p.role).2 with
  | error e => exact ⟨_, hs, rfl, rfl, rfl⟩
  | ok calls => exact ⟨_, hs.then (called_does p.device _ p.slot calls), rfl, rfl, rfl⟩

theorem answer_does (s : Site) (p : Push) :
    Does p.device (s.givesUp (s.reply p)) [] s (s.answer p) := by
  obtain ⟨s₁, hs, _, _, he⟩ := answer_eq s p
  rw [he, ← hs.givesUp_eq]
  exact (conclude_does s₁ p _).after hs

/-- What the decision about `d` at `s` has come to. A push that is left has just been started, on
the term as it is, and as MASTER by its owner alone. -/
structure Decides (d : DeviceId) (ms : List Seat.Move) (s : Site) (r : Site × Option Push) :
    Prop where
  does : Does d ms r.2.toList s r.1
  last : ∀ p, r.2 = some p → r.1.journal.getLast? = some (.started s.node.id p)
  device : ∀ p, r.2 = some p → p.device = d
  epoch : ∀ p, r.2 = some p → p.epoch = (r.1.term? d).map Term.epoch
  owned : ∀ p, r.2 = some p → p.role = .master → r.1.owns (r.1.term? d)

theorem Does.decides {s' : Site} (h : Does d ms [] s s') : Decides d ms s (s', none) :=
  ⟨h, nofun, nofun, nofun, nofun⟩

theorem Decides.after {s' : Site} {ms' : List Seat.Move} {r : Site × Option Push}
    (h : Decides d ms' s' r) (h' : Does d ms [] s s') : Decides d (ms ++ ms') s r where
  does := h'.trans h.does
  last p hp := h'.id ▸ h.last p hp
  device := h.device
  epoch := h.epoch
  owned := h.owned

/-- The term stays as it is as long as nothing moves. -/
theorem Does.term?_eq {ps : List Push} {s' : Site} (h : Does d [] ps s s') :
    s'.term? d = s.term? d := by
  simp only [term?, h.terms, show s'.election = s.election from h.election]

theorem Does.owns_eq {ps : List Push} {s' : Site} (h : Does d ms ps s s') (t : Option Term) :
    s'.owns t = s.owns t := by
  simp only [owns, h.id]

/-- The moves that come of starting a push that nobody can take. -/
def unserved (s : Site) (d : DeviceId) (role : Role) : List Seat.Move :=
  match s.node.south.start d role with
  | .error _ => s.withdrawals
  | .ok _ => []

theorem startPush_decides (s : Site) {d : DeviceId} {role : Role} {epoch : Option Nat}
    (sequel : Push.Sequel) (he : epoch = (s.term? d).map Term.epoch)
    (ho : role = .master → s.owns (s.term? d)) :
    Decides d (s.unserved d role) s (s.startPush d role epoch sequel) := by
  simp only [startPush, unserved]
  cases s.node.south.start d role with
  | error e => exact (conclude_does s ⟨0, d, role, epoch, sequel⟩ (.error e)).decides
  | ok slot =>
    cases slot with
    | none => exact (conclude_does s ⟨0, d, role, epoch, sequel⟩ (.ok ())).decides
    | some slot =>
      refine ⟨note_does s rfl rfl, ?_, ?_, ?_, ?_⟩
      all_goals rintro _ ⟨⟩
      · simp [note]
      · rfl
      · exact he
      · exact ho

/-- A site whose controller has asked for a device, if it is to. -/
def asked (s : Site) (d : DeviceId) (requested : Role) : Site :=
  if requested = .none then s.request d else s

/-- A site whose controller has, besides, taken note of the term of the device. -/
def informed (s : Site) (d : DeviceId) (requested : Role) : Site :=
  let s := s.asked d requested
  ((s.observeTerm d).1.observeEpoch d (s.term? d)).1

/-- Whether a decision on a term is not one on an epoch older than one already seen. -/
def current (s : Site) (d : DeviceId) (t : Option Term) : Bool :=
  t.all fun t => (s.node.roles.entry d).epoch ≤ t.epoch

/-- The moves of a controller that is asked for a role. -/
def asking (s : Site) (requested : Role) : List Seat.Move :=
  if requested = .none then s.requests else []

theorem asked_does (s : Site) (d : DeviceId) (requested : Role) :
    Does d (s.asking requested) [] s (s.asked d requested) := by
  simp only [asked, asking]
  split
  · exact request_does s d
  · exact .refl d s

theorem observeTerm_answer (s : Site) (d : DeviceId) : (s.observeTerm d).2 = s.term? d := by
  unfold observeTerm
  split <;> simp [*]

theorem observeEpoch_answer (s : Site) (d : DeviceId) (t : Option Term) :
    (s.observeEpoch d t).2 = s.current d t := by
  cases t with
  | none => rfl
  | some t => exact RoleTable.observe_current _ _ _

theorem informed_does (s : Site) (d : DeviceId) (requested : Role) :
    Does d (s.asking requested) [] s (s.informed d requested) :=
  (asked_does s d requested).then
    ((observeEpoch_does _ d _).after (observeTerm_does (s.asked d requested) d))

theorem informed_replica (s : Site) (d : DeviceId) (requested : Role) :
    (s.informed d requested).node.replica = s.node.replica := by
  simp only [informed, observeEpoch_replica, observeTerm_replica, asked]
  split <;> simp

theorem informed_term? (s : Site) (d : DeviceId) (requested : Role) :
    (s.informed d requested).term? d = (s.asked d requested).term? d :=
  ((observeEpoch_does _ d _).after (observeTerm_does (s.asked d requested) d)).term?_eq

theorem informed_owns (s : Site) (d : DeviceId) (requested : Role) (t : Option Term) :
    (s.informed d requested).owns t = (s.asked d requested).owns t :=
  ((observeEpoch_does _ d _).after (observeTerm_does (s.asked d requested) d)).owns_eq t

/-- The role that is pushed for a device when one is asked for. -/
def target (s : Site) (d : DeviceId) (requested : Role) : Role :=
  targetRole requested (s.owns (s.term? d))

theorem target_owned {requested : Role} (h : s.target d requested = .master) :
    s.owns (s.term? d) := by
  simp only [target, targetRole] at h
  split at h
  · next hr => exact hr.2
  · cases h

/-- A reassertion in three steps: informing oneself, marking the device online, pushing. -/
theorem reassert_eq (s : Site) (d : DeviceId) (requested : Role) :
    s.reassert d requested =
      let i := s.informed d requested
      if (s.asked d requested).current d (i.term? d) then
        (if i.target d requested = .master then i.markOnline d else i).startPush d
          (i.target d requested) ((i.term? d).map Term.epoch) .settle
      else (i, none) := by
  simp only [informed_term?, target, informed_owns]
  have hc : ((s.asked d requested).observeTerm d).1.current d ((s.asked d requested).term? d) =
      (s.asked d requested).current d ((s.asked d requested).term? d) := by
    simp [current]
  have ho : ((s.asked d requested).observeTerm d).1.owns ((s.asked d requested).term? d) =
      (s.asked d requested).owns ((s.asked d requested).term? d) :=
    (observeTerm_does _ d).owns_eq _
  rw [← hc, ← ho]
  simp only [← observeEpoch_answer, informed, ← observeTerm_answer]
  rfl

/-- A connection in three steps: informing oneself, pushing, storing. -/
theorem connected_eq (s : Site) (slot : Nat) (d : DeviceId) (description : DeviceDescription) :
    s.connected slot d description =
      let i := s.informed d .none
      if (s.asked d .none).current d (i.term? d) then
        i.startPush d (i.target d .none) ((i.term? d).map Term.epoch)
          (.store (s.providerId slot) description)
      else (i.store (s.providerId slot) d description, none) := by
  simp only [informed_term?, target, informed_owns]
  have hc : ((s.asked d .none).observeTerm d).1.current d ((s.asked d .none).term? d) =
      (s.asked d .none).current d ((s.asked d .none).term? d) := by
    simp [current]
  have ho : ((s.asked d .none).observeTerm d).1.owns ((s.asked d .none).term? d) =
      (s.asked d .none).owns ((s.asked d .none).term? d) :=
    (observeTerm_does _ d).owns_eq _
  rw [← hc, ← ho]
  simp only [← observeEpoch_answer, informed, ← observeTerm_answer]
  rfl

theorem markIf_does (s : Site) (d : DeviceId) (role : Role) :
    Does d [] [] s (if role = .master then s.markOnline d else s) := by
  split
  · exact markOnline_does s d
  · exact .refl d s

theorem reassert_decides (s : Site) (d : DeviceId) (requested : Role) :
    ∃ ms, Decides d ms s (s.reassert d requested) := by
  have hi := informed_does s d requested
  rw [reassert_eq]
  dsimp only
  generalize hs : s.informed d requested = i at hi ⊢
  split
  · have hm := markIf_does i d (i.target d requested)
    refine ⟨_, Decides.after ((startPush_decides _ .settle ?_ ?_).after hm) hi⟩
    · rw [hm.term?_eq]
    · intro ho
      rw [hm.term?_eq, hm.owns_eq]
      exact target_owned ho
  · exact ⟨_, hi.decides⟩

theorem connected_decides (s : Site) (slot : Nat) (d : DeviceId) (description : DeviceDescription) :
    ∃ ms, Decides d ms s (s.connected slot d description) := by
  have hi := informed_does s d .none
  rw [connected_eq]
  dsimp only
  generalize hs : s.informed d .none = i at hi ⊢
  split
  · exact ⟨_, Decides.after (startPush_decides i _ rfl target_owned) hi⟩
  · exact ⟨_, (hi.then (store_does i _ d description)).decides⟩

theorem connect_decides (s : Site) (slot : Nat) (d : DeviceId) (description : DeviceDescription) :
    ∃ ms, Decides d ms s (s.connect slot d description).1 := by
  unfold connect
  split
  · exact ⟨_, (Does.refl d s).decides⟩
  · exact connected_decides s slot d description

theorem suggestedRole_does (s : Site) (a : Announcement) :
    Does a.device [] [] s (s.suggestedRole a).1 := by
  unfold suggestedRole
  split
  · exact observeTerm_does s a.device
  · exact .refl a.device s

theorem handle_decides (s : Site) (a : Announcement) :
    ∃ ms, Decides a.device ms s (s.handle a) := by
  unfold handle
  split
  · exact ⟨_, (Does.refl _ s).decides⟩
  · have hs := suggestedRole_does s a
    unfold followMaster
    generalize s.suggestedRole a = r at hs ⊢
    obtain ⟨s₁, suggested⟩ := r
    dsimp only at hs ⊢
    split
    · exact ⟨_, hs.decides⟩
    · split
      · exact ⟨_, hs.decides⟩
      · exact ⟨_, ((relinquish_does s₁ a.device).after hs).decides⟩
    · split
      · obtain ⟨ms, hr⟩ := reassert_decides s₁ a.device suggested
        exact ⟨_, hr.after hs⟩
      · exact ⟨_, hs.decides⟩

theorem check_decides (s : Site) (d : DeviceId) : ∃ ms, Decides d ms s (s.check d) := by
  unfold check
  split
  · split
    · exact reassert_decides s d .none
    · exact ⟨_, (Does.refl d s).decides⟩
  · exact ⟨_, (Does.refl d s).decides⟩

end Mastership.Site
