import Mastership.Proofs.Locality
import Mastership.Proofs.Mirror

namespace Mastership

/-- What a provider did towards a device, if the notice tells of that, with the member and the slot. -/
def Notice.call? : Notice → Option (NodeId × Nat × Call)
  | .called n slot c => some (n, slot, c)
  | _ => none

/-- All that providers did towards devices, in this order. -/
def calls (ns : List Notice) : List (NodeId × Nat × Call) := ns.filterMap Notice.call?

theorem calls_append (ns ns' : List Notice) : calls (ns ++ ns') = calls ns ++ calls ns' :=
  List.filterMap_append

theorem calls_called (n : NodeId) (slot : Nat) (cs : List Call) :
    calls (cs.map (.called n slot)) = cs.map (n, slot, ·) := by
  simp [calls, List.filterMap_map, Function.comp_def, Notice.call?]

theorem mem_calls {n : NodeId} {slot : Nat} {c : Call} {ns : List Notice} :
    (n, slot, c) ∈ calls ns ↔ .called n slot c ∈ ns := by
  simp only [calls, List.mem_filterMap]
  constructor
  · rintro ⟨x, hx, hc⟩
    cases x <;> simp_all [Notice.call?]
  · exact fun h => ⟨_, h, rfl⟩

namespace Site

variable {d : DeviceId} {s s' s'' : Site} {cs cs' : List (NodeId × Nat × Call)}

/-- From `s` to `s'` providers did `cs` towards devices. -/
def Calls (s s' : Site) (cs : List (NodeId × Nat × Call)) : Prop :=
  ∃ ns, s'.journal = s.journal ++ ns ∧ calls ns = cs

theorem calls_nothing (h : s'.journal = s.journal) : Calls s s' [] :=
  ⟨[], by rw [h, List.append_nil], rfl⟩

theorem Calls.trans (h : Calls s s' cs) (h' : Calls s' s'' cs') : Calls s s'' (cs ++ cs') := by
  obtain ⟨ns, hj, rfl⟩ := h
  obtain ⟨ns', hj', rfl⟩ := h'
  exact ⟨ns ++ ns', by rw [hj', hj, List.append_assoc], calls_append ns ns'⟩

theorem Calls.then (h : Calls s s' cs) (h' : Calls s' s'' []) : Calls s s'' cs := by
  simpa using h.trans h'

theorem moveElection_calls (s : Site) (moved : Election × List Announcement) :
    Calls s (s.moveElection moved) [] :=
  ⟨_, rfl, by simp [calls, List.filterMap_map, Function.comp_def, Notice.call?]⟩

theorem postAll_calls (s : Site) (es : List DeviceEvent) : Calls s (s.postAll es) [] :=
  ⟨_, rfl, by simp [calls, List.filterMap_map, Function.comp_def, Notice.call?]⟩

theorem request_calls (s : Site) (d : DeviceId) : Calls s (s.request d) [] := by
  have hasked : Calls s (s.note [.asked s.node.id d .request]) [] := ⟨_, rfl, rfl⟩
  simp only [request]
  split
  · exact hasked
  · exact hasked.trans (moveElection_calls _ _)

theorem withdraw_calls (s : Site) (d : DeviceId) : Calls s (s.withdraw d) [] := by
  have hasked : Calls s (s.note [.asked s.node.id d .relinquish]) [] := ⟨_, rfl, rfl⟩
  simp only [withdraw]
  split
  · exact hasked
  · exact hasked.trans (moveElection_calls _ _)

theorem observeEpoch_journal (s : Site) (d : DeviceId) (t : Option Term) :
    (s.observeEpoch d t).1.journal = s.journal := by
  cases t <;> rfl

theorem postRole_calls (s : Site) (d : DeviceId) (role : Role) : Calls s (s.postRole d role) [] := by
  unfold postRole
  split
  · exact calls_nothing rfl
  · exact postAll_calls s [_]

theorem relinquish_calls (s : Site) (d : DeviceId) : Calls s (s.relinquish d) [] := by
  have hcleared : Calls s ((s.withdraw d).setRoles ((s.withdraw d).node.roles.clear d).1) [] :=
    withdraw_calls s d
  simp only [Site.relinquish]
  split
  · exact hcleared.trans (postRole_calls _ d .none)
  · exact hcleared

theorem settle_calls (s : Site) (d : DeviceId) (role : Role) (epoch : Option Nat)
    (result : Except Failure Unit) : Calls s (s.settle d role epoch result) [] := by
  cases result with
  | error e => exact relinquish_calls s d
  | ok =>
    simp only [settle]
    split
    · exact postRole_calls (s.setRoles _) d role
    · exact calls_nothing rfl

theorem store_calls (s : Site) (provider : ProviderId) (d : DeviceId)
    (description : DeviceDescription) : Calls s (s.store provider d description) [] :=
  postAll_calls (s.setReplica _) _

theorem markOnline_calls (s : Site) (d : DeviceId) : Calls s (s.markOnline d) [] := by
  unfold markOnline
  split
  · exact calls_nothing rfl
  · split
    · exact calls_nothing rfl
    · exact store_calls s _ d _

theorem conclude_calls (s : Site) (p : Push) (result : Except Failure Unit) :
    Calls s (s.conclude p result) [] := by
  unfold conclude
  split
  · exact settle_calls s _ _ _ result
  · exact (store_calls s _ p.device _).trans (settle_calls _ _ _ _ result)

theorem startPush_calls (s : Site) (d : DeviceId) (role : Role) (epoch : Option Nat)
    (sequel : Push.Sequel) : Calls s (s.startPush d role epoch sequel).1 [] := by
  unfold startPush
  split
  · exact conclude_calls s ⟨0, d, role, epoch, sequel⟩ _
  · exact conclude_calls s ⟨0, d, role, epoch, sequel⟩ _
  · exact ⟨_, rfl, rfl⟩

theorem informed_calls (s : Site) (d : DeviceId) (requested : Role) :
    Calls s (s.informed d requested) [] := by
  have hasked : Calls s (s.asked d requested) [] := by
    unfold asked
    split
    · exact request_calls s d
    · exact calls_nothing rfl
  exact hasked.then (calls_nothing ((observeEpoch_journal _ d _).trans (observeTerm_journal _ d)))

theorem reassert_calls (s : Site) (d : DeviceId) (requested : Role) :
    Calls s (s.reassert d requested).1 [] := by
  have hi := informed_calls s d requested
  rw [reassert_eq]
  dsimp only
  split
  · refine (hi.then ?_).then (startPush_calls _ d _ _ _)
    split
    · exact markOnline_calls _ d
    · exact calls_nothing rfl
  · exact hi

theorem connected_calls (s : Site) (slot : Nat) (d : DeviceId) (description : DeviceDescription) :
    Calls s (s.connected slot d description).1 [] := by
  have hi := informed_calls s d .none
  rw [connected_eq]
  dsimp only
  split
  · exact hi.then (startPush_calls _ d _ _ _)
  · exact hi.then (store_calls _ _ d _)

theorem suggestedRole_calls (s : Site) (a : Announcement) : Calls s (s.suggestedRole a).1 [] := by
  unfold suggestedRole
  split
  · exact calls_nothing (observeTerm_journal s a.device)
  · exact calls_nothing rfl

theorem handle_calls (s : Site) (a : Announcement) : Calls s (s.handle a).1 [] := by
  unfold handle
  split
  · exact calls_nothing rfl
  · have hs := suggestedRole_calls s a
    unfold followMaster
    generalize s.suggestedRole a = r at hs ⊢
    obtain ⟨s₁, suggested⟩ := r
    dsimp only at hs ⊢
    split
    · exact hs
    · split
      · exact hs
      · exact hs.then (relinquish_calls s₁ a.device)
    · split
      · exact hs.then (reassert_calls s₁ a.device suggested)
      · exact hs

theorem check_calls (s : Site) (d : DeviceId) : Calls s (s.check d).1 [] := by
  unfold check
  split
  · split
    · exact reassert_calls s d .none
    · exact calls_nothing rfl
  · exact calls_nothing rfl

theorem markDisconnected_calls (s : Site) (d : DeviceId) :
    Calls s (s.markDisconnected d).1 [] := by
  have hm : Calls s ((s.disablePorts d).markOffline d).1 [] :=
    calls_nothing (markOffline_journal _ d)
  simp only [markDisconnected]
  split
  · next s₁ e h =>
    rw [h] at hm
    dsimp only at hm
    split
    · have hasked : Calls s ((s₁.request d).observeTerm d).1 [] :=
        (hm.then (request_calls s₁ d)).then (calls_nothing (observeTerm_journal _ d))
      split
      · exact hasked.then (calls_nothing (markOffline_journal _ d))
      · exact hasked
    · exact hm
  · next s₁ m _ h =>
    rw [h] at hm
    exact hm

theorem disconnected_calls (s : Site) (d : DeviceId) : Calls s (s.disconnected d).1 [] := by
  have hreleased : Calls s ((s.markDisconnected d).1.release d) [] :=
    (markDisconnected_calls s d).then (relinquish_calls (s.markDisconnected d).1 d)
  rw [disconnected_eq]
  exact hreleased.then (postAll_calls _ _)

theorem remove_calls (s : Site) (d : DeviceId) : Calls s (s.remove d) [] := by
  unfold remove
  split
  · exact calls_nothing rfl
  · exact ⟨_, rfl, rfl⟩

theorem guarded_calls (slot : Nat) {f : Site → Site} (h : Calls s (f s) []) :
    Calls s (s.guarded slot f).1 [] := by
  unfold guarded
  split
  · exact calls_nothing rfl
  · exact h

/-- No task makes a provider do anything towards a device. -/
theorem run_calls (s : Site) (t : Task) : Calls s (s.run t).1 [] := by
  cases t with
  | connect slot d description =>
    simp only [run, connect]
    split
    · exact calls_nothing rfl
    · exact connected_calls s slot d description
  | disconnect slot d =>
    simp only [run, disconnect]
    split
    · exact calls_nothing rfl
    · exact disconnected_calls s d
  | setPorts slot d ps =>
    apply guarded_calls slot (f := (·.portsReported d ps))
    unfold portsReported
    split
    · exact postAll_calls (s.setReplica _) _
    · exact calls_nothing rfl
  | setPort slot d p =>
    apply guarded_calls slot (f := (·.portReported d p))
    unfold portReported
    split
    · exact postAll_calls (s.setReplica _) _
    · exact calls_nothing rfl
  | setStatistics slot d ss => exact guarded_calls slot (postAll_calls (s.setReplica _) _)
  | roleReply slot d requested response =>
    apply guarded_calls slot (f := (·.roleReplied d requested response))
    rcases roleReplied_eq s d requested response with h | h <;> rw [h]
    · exact relinquish_calls s d
    · exact calls_nothing rfl
  | reassert d requested => exact reassert_calls s d requested
  | check d => exact check_calls s d
  | handle a => exact handle_calls s a
  | remove d => exact remove_calls s d

/-- What a provider does towards the device of a push, which depends on what the device answers. -/
def callsOf (s : Site) (p : Push) : List Call :=
  match s.reply p with
  | .ok () => Provider.callsFor p.device p.role
  | .error _ => []

theorem answer_calls (s : Site) (p : Push) :
    Calls s (s.answer p) ((s.callsOf p).map (s.node.id, p.slot, ·)) := by
  unfold answer callsOf reply
  generalize hr : s.node.south.finish p.slot p.device p.role = r
  obtain ⟨south, result⟩ := r
  cases result with
  | error e => exact conclude_calls (s.setSouth south) p (.error e)
  | ok done =>
    obtain rfl : done = Provider.callsFor p.device p.role :=
      Southbound.finish_calls (congrArg Prod.snd hr)
    have hcalled : Calls s ((s.setSouth south).note
        ((Provider.callsFor p.device p.role).map (.called s.node.id p.slot)))
        ((Provider.callsFor p.device p.role).map (s.node.id, p.slot, ·)) :=
      ⟨_, rfl, calls_called _ _ _⟩
    exact hcalled.then (conclude_calls _ p (.ok ()))

end Site
end Mastership
