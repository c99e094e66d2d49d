import Mastership.Proofs.EventLog

namespace Mastership
namespace Site

variable {d : DeviceId} {s s' s'' : Site} {ts us : List Term}

/-- The term on which a task bases a decision about a role, if it comes to one and there is a term. -/
def basis (s : Site) : Task → Option Term
  | .connect slot d _ => if s.refusal? slot = none then (s.asked d .none).term? d else none
  | .reassert d requested => (s.asked d requested).term? d
  | .check d =>
    if s.reachable? d = some true ∧ s.electedRole d = .none then (s.asked d .none).term? d
    else none
  | .handle a =>
    let (s₁, suggested) := s.suggestedRole a
    if a.kind = .master ∧ s₁.reachable? a.device = some true ∧ s₁.stored a.device then
      (s₁.asked a.device suggested).term? a.device
    else none
  | _ => none

/-- The term against which an announced MASTER is held. -/
def advised (s : Site) (a : Announcement) : List Term :=
  if a.standing.roleOf s.node.id = .master then (s.term? a.device).toList else []

/-- All terms of its device that a task is told, in this order. Besides those of decisions, these are
the one against which an announcement is held, and the one that a controller reads whose view of
mastership was too old to mark a device offline. -/
def reads (s : Site) : Task → List Term
  | .handle a => (if a.kind = .master then s.advised a else []) ++ (s.basis (.handle a)).toList
  | .disconnect slot d =>
    if s.refusal? slot = none ∧ (s.tried d).2.isStale then (((s.tried d).1.request d).term? d).toList
    else []
  | t => (s.basis t).toList

/-- The site `s'` comes of `s` by reading, writing and posting step by step, all about `d`, while the
controller is told the terms `ts`. All tasks take such a course but disconnections, which write and post
in another order, and so do the answers to pushes. -/
inductive Course (d : DeviceId) : Site → List Term → Site → Prop
  | rest {s s' : Site} {ps : List (NodeId × DeviceId × Plea)} : Emits s s' ps [] →
      s'.node.id = s.node.id → s'.node.clock = s.node.clock → s'.node.replica = s.node.replica →
      Course d s [] s'
  | hear {s : Site} {t : Term} : s.term? d = some t → Course d s [t] (s.observeTerm d).1
  | tell (s : Site) (role : Role) : Course d s [] (s.postRole d role)
  | store (s : Site) (provider : ProviderId) (description : DeviceDescription) :
      Course d s [] (s.store provider d description)
  | ports {s : Site} (ps : List PortDescription) : s.node.clock.available d = true →
      Course d s [] (s.portsReported d ps)
  | port {s : Site} (p : PortDescription) : s.node.clock.available d = true →
      Course d s [] (s.portReported d p)
  | statistics (s : Site) (ss : List PortStatistics) : Course d s [] (s.statisticsReported d ss)
  | remove (s : Site) : Course d s [] (s.remove d)
  | trans {s s' s'' : Site} {ts us : List Term} :
      Course d s ts s' → Course d s' us s'' → Course d s (ts ++ us) s''

namespace Course

theorem refl (d : DeviceId) (s : Site) : Course d s [] s := .rest (emits_nothing rfl) rfl rfl rfl

theorem «then» (h : Course d s ts s') (h' : Course d s' [] s'') : Course d s ts s'' :=
  List.append_nil ts ▸ h.trans h'

theorem after (h' : Course d s' us s'') (h : Course d s [] s') : Course d s us s'' := h.trans h'

theorem of_node {ps : List (NodeId × DeviceId × Plea)} (he : Emits s s' ps [])
    (hn : s'.node = s.node) : Course d s [] s' :=
  .rest he (by rw [hn]) (by rw [hn]) (by rw [hn])

end Course

theorem request_course (s : Site) (d : DeviceId) : Course d s [] (s.request d) :=
  .of_node (request_emits s d) (request_node s d)

theorem setRoles_course (s : Site) (d : DeviceId) (roles : RoleTable) :
    Course d s [] (s.setRoles roles) :=
  .rest (setRoles_emits s roles) rfl rfl rfl

theorem observeTerm_course (s : Site) (d : DeviceId) :
    Course d s (s.term? d).toList (s.observeTerm d).1 := by
  cases ht : s.term? d with
  | none =>
    have he : (s.observeTerm d).1 = s := by simp only [observeTerm, ht]
    rw [he]
    exact .refl d s
  | some t => exact .hear ht

theorem observeEpoch_course (s : Site) (d : DeviceId) (t : Option Term) :
    Course d s [] (s.observeEpoch d t).1 := by
  cases t with
  | none => exact .refl d s
  | some t => exact setRoles_course s d _

theorem asked_course (s : Site) (d : DeviceId) (requested : Role) :
    Course d s [] (s.asked d requested) := by
  unfold asked
  split
  · exact request_course s d
  · exact .refl d s

theorem informed_course (s : Site) (d : DeviceId) (requested : Role) :
    Course d s ((s.asked d requested).term? d).toList (s.informed d requested) :=
  ((observeTerm_course _ d).after (asked_course s d requested)).then (observeEpoch_course _ d _)

theorem relinquish_course (s : Site) (d : DeviceId) : Course d s [] (s.relinquish d) := by
  have hwithdraw : Course d s [] (s.withdraw d) :=
    .of_node (withdraw_emits s d) (withdraw_node s d)
  have hclear := hwithdraw.then (setRoles_course _ d ((s.withdraw d).node.roles.clear d).1)
  simp only [Site.relinquish]
  split
  · exact hclear.then (.tell _ .none)
  · exact hclear

theorem settle_course (s : Site) (d : DeviceId) (role : Role) (epoch : Option Nat)
    (result : Except Failure Unit) : Course d s [] (s.settle d role epoch result) := by
  cases result with
  | error e => exact relinquish_course s d
  | ok =>
    have hrecord := setRoles_course s d (s.node.roles.record d role epoch).1
    simp only [settle]
    split
    · exact hrecord.then (.tell _ role)
    · exact hrecord

theorem conclude_course (s : Site) (p : Push) (result : Except Failure Unit) :
    Course p.device s [] (s.conclude p result) := by
  unfold conclude
  split
  · exact settle_course s _ _ _ result
  · exact (Course.store s _ _).then (settle_course _ _ _ _ result)

/-- An answer reaches the controller without a word, and the push is concluded. -/
theorem answer_reaches (s : Site) (p : Push) :
    ∃ s₁, Emits s s₁ [] [] ∧ s₁.node.id = s.node.id ∧ s₁.node.clock = s.node.clock ∧
      s₁.node.roles = s.node.roles ∧ s₁.node.replica = s.node.replica ∧
      s.answer p = s₁.conclude p (s.reply p) := by
  simp only [answer, reply]
  generalize s.node.south.finish p.slot p.device p.role = r
  obtain ⟨south, result⟩ := r
  cases result with
  | error e => exact ⟨s.setSouth south, emits_nothing rfl, rfl, rfl, rfl, rfl, rfl⟩
  | ok calls =>
    exact ⟨(s.setSouth south).note (calls.map (.called s.node.id p.slot)),
      called_emits (s.setSouth south) p.slot calls, rfl, rfl, rfl, rfl, rfl⟩

theorem answer_course (s : Site) (p : Push) : Course p.device s [] (s.answer p) := by
  obtain ⟨s₁, hemits, hid, hclock, _, hreplica, he⟩ := answer_reaches s p
  rw [he]
  exact (Course.rest hemits hid hclock hreplica).then (conclude_course s₁ p _)

theorem markOnline_course (s : Site) (d : DeviceId) : Course d s [] (s.markOnline d) := by
  unfold markOnline
  split
  · exact .refl d s
  · split
    · exact .refl d s
    · exact .store s _ _

theorem startPush_course (s : Site) (d : DeviceId) {role : Role} (hr : role ≠ .none)
    (epoch : Option Nat) (sequel : Push.Sequel) :
    Course d s [] (s.startPush d role epoch sequel).1 := by
  rcases s.startPush_cases d hr epoch sequel with ⟨slot, hp⟩ | ⟨e, hp⟩ <;> rw [hp]
  · exact .of_node ⟨_, rfl, rfl, rfl⟩ rfl
  · exact conclude_course s ⟨0, d, role, epoch, sequel⟩ (.error e)

/-- A push that is left to be answered is the last thing that was started. -/
theorem startPush_left {role : Role} (hr : role ≠ .none) {epoch : Option Nat}
    {sequel : Push.Sequel} {p : Push} (hp : (s.startPush d role epoch sequel).2 = some p) :
    (∃ slot, p = ⟨slot, d, role, epoch, sequel⟩) ∧
      (s.startPush d role epoch sequel).1 = s.note [.started s.node.id p] := by
  rcases s.startPush_cases d hr epoch sequel with ⟨slot, h⟩ | ⟨e, h⟩ <;> rw [h] at hp ⊢
  · obtain rfl := Option.some.inj hp
    exact ⟨⟨slot, rfl⟩, rfl⟩
  · cases hp

theorem reassert_course (s : Site) (d : DeviceId) (requested : Role) :
    Course d s ((s.asked d requested).term? d).toList (s.reassert d requested).1 := by
  have hi := informed_course s d requested
  rw [reassert_eq]
  dsimp only
  split
  · refine (hi.then ?_).then (startPush_course _ d (targetRole_ne_none _ _) _ _)
    split
    · exact markOnline_course _ d
    · exact .refl d _
  · exact hi

theorem connected_course (s : Site) (slot : Nat) (d : DeviceId) (description : DeviceDescription) :
    Course d s ((s.asked d .none).term? d).toList (s.connected slot d description).1 := by
  have hi := informed_course s d .none
  rw [connected_eq]
  dsimp only
  split
  · exact hi.then (startPush_course _ d (targetRole_ne_none _ _) _ _)
  · exact hi.then (.store _ _ description)

theorem connect_course (s : Site) (slot : Nat) (d : DeviceId) (description : DeviceDescription) :
    Course d s (s.basis (.connect slot d description)).toList
      (s.connect slot d description).1.1 := by
  simp only [connect, basis]
  cases s.refusal? slot with
  | some e => exact .refl d s
  | none => exact connected_course s slot d description

theorem suggestedRole_course (s : Site) (a : Announcement) :
    Course a.device s (s.advised a) (s.suggestedRole a).1 := by
  simp only [suggestedRole, advised]
  cases a.standing.roleOf s.node.id with
  | master => exact observeTerm_course s a.device
  | standby => exact .refl a.device s
  | none => exact .refl a.device s

theorem handle_course (s : Site) (a : Announcement) :
    Course a.device s (s.reads (.handle a)) (s.handle a).1 := by
  have hs := suggestedRole_course s a
  simp only [reads, basis, handle]
  cases a.kind with
  | backups => exact .refl a.device s
  | master =>
    simp only [true_and, if_true, followMaster]
    generalize s.suggestedRole a = r at hs ⊢
    obtain ⟨s₁, suggested⟩ := r
    dsimp only at hs ⊢
    cases hreach : s₁.reachable? a.device with
    | none => simpa using hs
    | some reachable =>
      cases reachable with
      | false =>
        simp only [Option.some.injEq, Bool.false_eq_true, false_and, if_false, Option.toList_none,
          List.append_nil]
        split
        · exact hs
        · exact hs.then (relinquish_course s₁ a.device)
      | true =>
        simp only [true_and, stored]
        split
        · exact hs.trans (reassert_course s₁ a.device suggested)
        · simpa using hs

theorem check_course (s : Site) (d : DeviceId) :
    Course d s (s.basis (.check d)).toList (s.check d).1 := by
  simp only [basis, check]
  cases hreach : s.reachable? d with
  | none => exact .refl d s
  | some reachable =>
    cases reachable with
    | false => simpa using Course.refl d s
    | true =>
      simp only [true_and]
      split
      · exact reassert_course s d .none
      · exact .refl d s

theorem guarded_course (slot : Nat) {f : Site → Site} (h : Course d s [] (f s)) :
    Course d s [] (s.guarded slot f).1 := by
  unfold guarded
  split
  · exact .refl d s
  · exact h

theorem portsReported_course (s : Site) (d : DeviceId) (ps : List PortDescription) :
    Course d s [] (s.portsReported d ps) := by
  cases ha : s.node.clock.available d with
  | true => exact .ports ps ha
  | false =>
    simp only [portsReported, ha]
    exact .refl d s

theorem portReported_course (s : Site) (d : DeviceId) (p : PortDescription) :
    Course d s [] (s.portReported d p) := by
  cases ha : s.node.clock.available d with
  | true => exact .port p ha
  | false =>
    simp only [portReported, ha]
    exact .refl d s

theorem roleReplied_course (s : Site) (d : DeviceId) (requested response : Option Role) :
    Course d s [] (s.roleReplied d requested response) := by
  rcases roleReplied_eq s d requested response with h | h <;> rw [h]
  · exact relinquish_course s d
  · exact .refl d s

/-- Every task takes a course but a disconnection, and is told the terms that it reads. -/
theorem run_course (s : Site) {t : Task} (ht : ∀ slot d, t ≠ .disconnect slot d) :
    Course t.device s (s.reads t) (s.run t).1 := by
  cases t with
  | connect slot d description => exact connect_course s slot d description
  | disconnect slot d => exact absurd rfl (ht slot d)
  | setPorts slot d ps => exact guarded_course slot (portsReported_course s d ps)
  | setPort slot d p => exact guarded_course slot (portReported_course s d p)
  | setStatistics slot d ss => exact guarded_course slot (.statistics s ss)
  | roleReply slot d requested response =>
    exact guarded_course slot (roleReplied_course s d requested response)
  | reassert d requested => exact reassert_course s d requested
  | check d => exact check_course s d
  | handle a => exact handle_course s a
  | remove d => exact .remove s

end Site
end Mastership
