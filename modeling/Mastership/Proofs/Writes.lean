import Mastership.Proofs.Entries

namespace Mastership

/-- One write of a replica that needs no stamp. -/
inductive Replica.Edit (d : DeviceId) (r : Replica) : Replica → Prop
  | put (provider : ProviderId) (description : DeviceDescription) :
      Edit d r (r.put provider d description).1
  | setPorts (ps : List PortDescription) : Edit d r (r.setPorts d ps).1
  | setPort (p : PortDescription) : Edit d r (r.setPort d p).1
  | setStatistics (ss : List PortStatistics) : Edit d r (r.setStatistics d ss).1
  | remove : Edit d r (r.remove d).1

/-- Whether a device was not marked offline because the view of its mastership is out of date. -/
def Site.Marking.isStale : Marking → Bool
  | .refused e => e.isStale
  | _ => false

namespace Site

variable {d : DeviceId} {s s' s'' : Site}

/-- A site whose controller has asked for a device and heard its term. -/
def reconsidered (s : Site) (d : DeviceId) : Site := ((s.request d).observeTerm d).1

/-- The first attempt to mark a device offline, made once its ports are down. -/
def tried (s : Site) (d : DeviceId) : Site × Marking := (s.disablePorts d).markOffline d

theorem tried_does (s : Site) (d : DeviceId) : Does d [] [] s (s.tried d).1 :=
  (markOffline_does _ d).after (disablePorts_does s d)

/-- If the first attempt was stale, a second one follows for a controller that turns out to be the
owner. -/
theorem markDisconnected_eq (s : Site) (d : DeviceId) :
    s.markDisconnected d =
      let s' := (s.tried d).1.reconsidered d
      if (s.tried d).2.isStale then
        if s'.owns (s'.term? d) then s'.markOffline d else (s', .marked none)
      else s.tried d := by
  unfold markDisconnected tried
  dsimp only
  generalize (s.disablePorts d).markOffline d = r
  obtain ⟨s₁, m⟩ := r
  have ht : (s₁.reconsidered d).term? d = ((s₁.request d).observeTerm d).2 := by
    rw [reconsidered, (observeTerm_does _ d).term?_eq, observeTerm_answer]
  cases m with
  | marked event => rfl
  | crashed => rfl
  | refused e =>
    simp only [Marking.isStale, ht]
    rfl

/-- The sites at which a disconnection attempts to mark its device offline. -/
def attempts (s : Site) (d : DeviceId) : List Site :=
  let s' := (s.tried d).1.reconsidered d
  s.disablePorts d :: if (s.tried d).2.isStale ∧ s'.owns (s'.term? d) then [s'] else []

/-- The three ways in which marking a device offline goes, with the sites of the attempts: the first
attempt is not stale, it is and the controller yields to another owner, or it tries again. -/
inductive Tries (s : Site) (d : DeviceId) : List Site → Site × Marking → Prop
  | once : (s.tried d).2.isStale = false →
      Tries s d [s.disablePorts d] (s.tried d)
  | yields {s' : Site} : s' = (s.tried d).1.reconsidered d →
      (s.tried d).2.isStale = true → s'.owns (s'.term? d) = false →
      Tries s d [s.disablePorts d] (s', .marked none)
  | again {s' : Site} : s' = (s.tried d).1.reconsidered d →
      (s.tried d).2.isStale = true → s'.owns (s'.term? d) = true →
      Tries s d [s.disablePorts d, s'] (s'.markOffline d)

theorem markDisconnected_tries (s : Site) (d : DeviceId) :
    Tries s d (s.attempts d) (s.markDisconnected d) := by
  rw [markDisconnected_eq]
  dsimp only [attempts]
  generalize he : (s.tried d).1.reconsidered d = s'
  cases hs : (s.tried d).2.isStale with
  | false =>
    rw [if_neg (by simp), if_neg (by simp)]
    exact .once hs
  | true =>
    cases ho : s'.owns (s'.term? d) with
    | false =>
      rw [if_pos rfl, if_neg (by simp), if_neg (by simp)]
      exact .yields he.symm hs ho
    | true =>
      rw [if_pos rfl, if_pos ⟨rfl, rfl⟩, if_pos rfl]
      exact .again he.symm hs ho

/-- What an attempt to mark a device offline does with the clock: it takes a stamp of a stored
device, unless a fault strikes first. -/
def ticking (s : Site) (d : DeviceId) : Clock × Option Timestamp :=
  if s.node.faults.offline.head?.join = none ∧ s.stored d then s.node.clock.next d
  else (s.node.clock, none)

/-- The stamp that an attempt to mark a device offline takes. -/
def stamp? (s : Site) (d : DeviceId) : Option Timestamp := (s.ticking d).2

/-- The stamps that a task takes of its device. -/
def stamps (s : Site) : Task → List Timestamp
  | .disconnect slot d =>
    if s.refusal? slot = none then (s.attempts d).filterMap (·.stamp? d) else []
  | _ => []

/-- The site `s'` comes of `s` by writes to the clock and the replica, all about `d`, which stamp the
device with `xs`. -/
inductive Writes (d : DeviceId) : Site → List Timestamp → Site → Prop
  | rest {s s' : Site} {ms : List Seat.Move} {ps : List Push} : Does d ms ps s s' →
      s'.node.clock = s.node.clock → s'.node.replica = s.node.replica → Writes d s [] s'
  | edit {s s' : Site} {ms : List Seat.Move} {ps : List Push} : Does d ms ps s s' →
      s'.node.clock = s.node.clock → s.node.replica.Edit d s'.node.replica → Writes d s [] s'
  | hear (s : Site) : Writes d s [] (s.observeTerm d).1
  | attempt (s : Site) : Writes d s (s.stamp? d).toList (s.markOffline d).1
  | trans {s s' s'' : Site} {xs ys : List Timestamp} :
      Writes d s xs s' → Writes d s' ys s'' → Writes d s (xs ++ ys) s''

variable {xs : List Timestamp}

theorem Writes.refl (d : DeviceId) (s : Site) : Writes d s [] s := .rest (.refl d s) rfl rfl

theorem Writes.then (h : Writes d s xs s') (h' : Writes d s' [] s'') : Writes d s xs s'' :=
  List.append_nil xs ▸ h.trans h'

theorem Writes.does (h : Writes d s xs s') : ∃ ms ps, Does d ms ps s s' := by
  induction h with
  | rest hd => exact ⟨_, _, hd⟩
  | edit hd => exact ⟨_, _, hd⟩
  | hear s => exact ⟨_, _, observeTerm_does s d⟩
  | attempt s => exact ⟨_, _, markOffline_does s d⟩
  | trans _ _ ih ih' =>
    obtain ⟨_, _, hd⟩ := ih
    obtain ⟨_, _, hd'⟩ := ih'
    exact ⟨_, _, hd.trans hd'⟩

theorem relinquish_writes (s : Site) (d : DeviceId) : Writes d s [] (s.relinquish d) := by
  refine .rest (relinquish_does s d) ?_ (relinquish_replica s d)
  simp only [Site.relinquish]
  split <;> simp [setRoles]

theorem settle_writes (s : Site) (d : DeviceId) (role : Role) (epoch : Option Nat)
    (result : Except Failure Unit) : Writes d s [] (s.settle d role epoch result) := by
  cases result with
  | error e => exact relinquish_writes s d
  | ok =>
    refine .rest (settle_ok_does s d role epoch) ?_ (settle_replica s d role epoch _)
    simp only [settle]
    split <;> simp [setRoles]

theorem store_writes (s : Site) (provider : ProviderId) (d : DeviceId)
    (description : DeviceDescription) : Writes d s [] (s.store provider d description) :=
  .edit (store_does s provider d description) rfl (.put provider description)

theorem conclude_writes (s : Site) (p : Push) (result : Except Failure Unit) :
    Writes p.device s [] (s.conclude p result) := by
  unfold conclude
  split
  · exact settle_writes s _ _ _ result
  · exact (store_writes s _ _ _).then (settle_writes _ _ _ _ result)

theorem answer_writes (s : Site) (p : Push) : Writes p.device s [] (s.answer p) := by
  have hs := setSouth_does p.device s (s.node.south.finish_alike p.slot p.device p.role)
  simp only [answer]
  split
  · exact (Writes.rest hs rfl rfl).then (conclude_writes _ p _)
  · next calls _ =>
    have hc := hs.then (called_does p.device _ p.slot calls)
    exact (Writes.rest hc rfl rfl).then (conclude_writes _ p _)

theorem request_writes (s : Site) (d : DeviceId) : Writes d s [] (s.request d) :=
  .rest (request_does s d) (by rw [request_node]) (by rw [request_node])

theorem observeEpoch_writes (s : Site) (d : DeviceId) (t : Option Term) :
    Writes d s [] (s.observeEpoch d t).1 := by
  refine .rest (observeEpoch_does s d t) ?_ (observeEpoch_replica s d t)
  cases t <;> rfl

theorem markOnline_writes (s : Site) (d : DeviceId) : Writes d s [] (s.markOnline d) := by
  unfold markOnline
  split
  · exact .refl d s
  · split
    · exact .refl d s
    · exact store_writes s _ d _

theorem informed_writes (s : Site) (d : DeviceId) (requested : Role) :
    Writes d s [] (s.informed d requested) := by
  have ha : Writes d s [] (s.asked d requested) := by
    unfold asked
    split
    · exact request_writes s d
    · exact .refl d s
  exact (ha.then (.hear _)).then (observeEpoch_writes _ d _)

theorem startPush_writes (s : Site) {role : Role} (hr : role ≠ .none) (epoch : Option Nat)
    (sequel : Push.Sequel) : Writes d s [] (s.startPush d role epoch sequel).1 := by
  rcases s.startPush_cases d hr epoch sequel with ⟨slot, hp⟩ | ⟨e, hp⟩ <;> rw [hp]
  · have hn : Does d [] [⟨slot, d, role, epoch, sequel⟩] s
        (s.note [.started s.node.id ⟨slot, d, role, epoch, sequel⟩]) := note_does s rfl rfl
    exact .rest hn rfl rfl
  · exact conclude_writes s ⟨0, d, role, epoch, sequel⟩ (.error e)

theorem reassert_writes (s : Site) (d : DeviceId) (requested : Role) :
    Writes d s [] (s.reassert d requested).1 := by
  have hi := informed_writes s d requested
  rw [reassert_eq]
  dsimp only
  split
  · refine (hi.then ?_).then (startPush_writes _ (targetRole_ne_none _ _) _ _)
    split
    · exact markOnline_writes _ d
    · exact .refl d _
  · exact hi

theorem connected_writes (s : Site) (slot : Nat) (d : DeviceId)
    (description : DeviceDescription) : Writes d s [] (s.connected slot d description).1 := by
  have hi := informed_writes s d .none
  rw [connected_eq]
  dsimp only
  split
  · exact hi.then (startPush_writes _ (targetRole_ne_none _ _) _ _)
  · exact hi.then (store_writes _ _ d description)

theorem handle_writes (s : Site) (a : Announcement) : Writes a.device s [] (s.handle a).1 := by
  unfold handle
  split
  · exact .refl _ s
  · have hs : Writes a.device s [] (s.suggestedRole a).1 := by
      unfold suggestedRole
      split
      · exact .hear s
      · exact .refl _ s
    unfold followMaster
    generalize s.suggestedRole a = r at hs ⊢
    obtain ⟨s₁, suggested⟩ := r
    dsimp only at hs ⊢
    split
    · exact hs
    · split
      · exact hs
      · exact hs.then (relinquish_writes s₁ a.device)
    · split
      · exact hs.then (reassert_writes s₁ a.device suggested)
      · exact hs

theorem check_writes (s : Site) (d : DeviceId) : Writes d s [] (s.check d).1 := by
  unfold check
  split
  · split
    · exact reassert_writes s d .none
    · exact .refl d s
  · exact .refl d s

theorem disablePorts_writes (s : Site) (d : DeviceId) : Writes d s [] (s.disablePorts d) :=
  .edit (disablePorts_does s d) rfl (.setPorts _)

theorem tried_writes (s : Site) (d : DeviceId) :
    Writes d s ((s.disablePorts d).stamp? d).toList (s.tried d).1 :=
  (disablePorts_writes s d).trans (.attempt _)

theorem reconsidered_writes (s : Site) (d : DeviceId) : Writes d s [] (s.reconsidered d) :=
  (request_writes s d).then (.hear _)

theorem markDisconnected_writes (s : Site) (d : DeviceId) :
    Writes d s ((s.attempts d).filterMap (·.stamp? d)) (s.markDisconnected d).1 := by
  have hfirst := tried_writes s d
  have hsecond := hfirst.then (reconsidered_writes _ d)
  have hone : ∀ s : Site, [s].filterMap (·.stamp? d) = (s.stamp? d).toList := by
    intro s
    cases hs : s.stamp? d <;> simp [hs]
  have hm := markDisconnected_tries s d
  generalize s.attempts d = sites, s.markDisconnected d = r at hm ⊢
  cases hm with
  | once _ => exact hone _ ▸ hfirst
  | yields he _ _ => exact hone _ ▸ he ▸ hsecond
  | @again s' he _ _ =>
    rw [← List.singleton_append, List.filterMap_append, hone, hone]
    subst he
    exact hsecond.trans (.attempt _)

theorem release_writes (s : Site) (d : DeviceId) : Writes d s [] (s.release d) :=
  (relinquish_writes s d).then
    (.rest (setRoles_does _ fun _ hd => RoleTable.get?_forget_of_ne _ _ hd) rfl rfl)

theorem disconnected_writes (s : Site) (d : DeviceId) :
    Writes d s ((s.attempts d).filterMap (·.stamp? d)) (s.disconnected d).1 := by
  have hr := (markDisconnected_writes s d).then (release_writes _ d)
  simp only [disconnected]
  split
  · exact hr.then (.rest (postAll_does d _ _) rfl rfl)
  · exact hr
  · exact hr

theorem guarded_writes (slot : Nat) {f : Site → Site} (h : Writes d s [] (f s)) :
    Writes d s [] (s.guarded slot f).1 := by
  unfold guarded
  split
  · exact .refl d s
  · exact h

theorem portsReported_writes (s : Site) (d : DeviceId) (ps : List PortDescription) :
    Writes d s [] (s.portsReported d ps) := by
  have hd := portsReported_does s d ps
  unfold portsReported at hd ⊢
  revert hd
  split <;> intro hd
  · exact .edit hd rfl (.setPorts ps)
  · exact .refl d s

theorem portReported_writes (s : Site) (d : DeviceId) (p : PortDescription) :
    Writes d s [] (s.portReported d p) := by
  have hd := portReported_does s d p
  unfold portReported at hd ⊢
  revert hd
  split <;> intro hd
  · exact .edit hd rfl (.setPort p)
  · exact .refl d s

theorem roleReplied_writes (s : Site) (d : DeviceId) (requested response : Option Role) :
    Writes d s [] (s.roleReplied d requested response) := by
  rcases roleReplied_eq s d requested response with h | h <;> rw [h]
  · exact relinquish_writes s d
  · exact .refl d s

theorem remove_writes (s : Site) (d : DeviceId) : Writes d s [] (s.remove d) := by
  have hd := remove_does s d
  have hr := Replica.Edit.remove (d := d) (r := s.node.replica)
  unfold Site.remove at hd ⊢
  revert hd
  split <;> intro hd
  · exact .refl d s
  · next replica event h =>
    rw [h] at hr
    exact .edit hd rfl hr

/-- All that a task does to a clock and a replica are writes about its device. Stamps are taken by
disconnections alone. -/
theorem run_writes (s : Site) (t : Task) : Writes t.device s (s.stamps t) (s.run t).1 := by
  cases t with
  | connect slot d description =>
    simp only [run, connect]
    split
    · exact .refl d s
    · exact connected_writes s slot d description
  | disconnect slot d =>
    simp only [run, disconnect, stamps]
    cases s.refusal? slot with
    | some e => exact .refl d s
    | none => exact disconnected_writes s d
  | setPorts slot d ps => exact guarded_writes slot (portsReported_writes s d ps)
  | setPort slot d p => exact guarded_writes slot (portReported_writes s d p)
  | setStatistics slot d ss =>
    exact guarded_writes slot (.edit (statisticsReported_does s d ss) rfl (.setStatistics ss))
  | roleReply slot d requested response =>
    exact guarded_writes slot (roleReplied_writes s d requested response)
  | reassert d requested => exact reassert_writes s d requested
  | check d => exact check_writes s d
  | handle a => exact handle_writes s a
  | remove d => exact remove_writes s d

theorem change_clock (s : Site) (c : Change) : (s.change c).node.clock = s.node.clock := by
  cases c with
  | register id =>
    simp only [change, register]
    split <;> rfl
  | _ => rfl

end Site
end Mastership
