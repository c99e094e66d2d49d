import Mastership.Proofs.Advice
import Mastership.Proofs.Calls
import Mastership.Proofs.Handles

namespace Mastership

namespace Southbound

/-- What the provider in a slot did so far. -/
def heard (s : Southbound) (slot : Nat) : List Call :=
  ((s.providers.get? slot).map Provider.calls).getD []

theorem heard_of_providers {s s' : Southbound} {slot : Nat}
    (h : s'.providers.get? slot = s.providers.get? slot) : s'.heard slot = s.heard slot := by
  rw [heard, h, heard]

/-- An accepted push adds what is done for it to what its provider did, and a refused one nothing. -/
theorem heard_finish (s : Southbound) (slot slot' : Nat) (d : DeviceId) (role : Role) :
    (s.finish slot d role).1.heard slot' = s.heard slot' ++
      if slot = slot' then ((s.finish slot d role).2.toOption).getD [] else [] := by
  cases hp : s.providers.get? slot with
  | none => simp [finish, hp, Except.toOption]
  | some p =>
    cases ha : p.answer d role with
    | error e => simp [finish, hp, ha, Except.toOption]
    | ok =>
      simp only [finish, hp, ha, Except.toOption]
      by_cases hs : slot = slot'
      · subst hs
        simp [heard, hp]
      · simp only [if_neg hs, List.append_nil]
        exact heard_of_providers (Table.get?_insert_of_ne _ _ hs)

/-- A new provider has done nothing yet. -/
theorem Packed.heard_enroll {s : Southbound} (h : s.Packed) (id : ProviderId) (slot : Nat) :
    (s.enroll id).heard slot = s.heard slot := by
  unfold enroll register
  cases (s.add id).registry.register id s.providers.size with
  | error e => rfl
  | ok r =>
    change (s.add id).heard slot = s.heard slot
    by_cases hslot : s.providers.size = slot
    · subst hslot
      have hfree : s.providers.get? s.providers.size = none := by
        rw [← Option.not_isSome_iff_eq_none]
        intro hsome
        exact Nat.lt_irrefl _ (h _ hsome)
      simp [heard, add, hfree]
    · exact heard_of_providers (Table.get?_insert_of_ne _ _ hslot)

theorem heard_setLine (s : Southbound) (slot : Nat) (d : DeviceId) (f : Line → Line)
    (slot' : Nat) : (s.setLine slot d f).heard slot' = s.heard slot' := by
  unfold setLine
  split
  · rfl
  · next p hp =>
    by_cases hs : slot = slot'
    · subst hs
      simp [heard, hp, Provider.setLine]
    · exact heard_of_providers (Table.get?_insert_of_ne _ _ hs)

end Southbound

namespace Site

variable {d : DeviceId} {s s' : Site} {p : Push}

theorem observeTerm_south (s : Site) (d : DeviceId) :
    (s.observeTerm d).1.node.south = s.node.south := by
  unfold observeTerm
  split <;> rfl

theorem observeEpoch_south (s : Site) (d : DeviceId) (t : Option Term) :
    (s.observeEpoch d t).1.node.south = s.node.south := by
  cases t <;> rfl

theorem relinquish_south (s : Site) (d : DeviceId) :
    (s.relinquish d).node.south = s.node.south := by
  rw [relinquish_node]

theorem settle_south (s : Site) (d : DeviceId) (role : Role) (epoch : Option Nat)
    (result : Except Failure Unit) : (s.settle d role epoch result).node.south = s.node.south := by
  cases result with
  | error e => exact relinquish_south s d
  | ok =>
    simp only [settle]
    split
    · rw [postRole_node]
      rfl
    · rfl

theorem store_south (s : Site) (provider : ProviderId) (d : DeviceId)
    (description : DeviceDescription) : (s.store provider d description).node.south = s.node.south :=
  rfl

theorem markOnline_south (s : Site) (d : DeviceId) :
    (s.markOnline d).node.south = s.node.south := by
  unfold markOnline
  split
  · rfl
  · split
    · rfl
    · exact store_south s _ d _

theorem conclude_south (s : Site) (p : Push) (result : Except Failure Unit) :
    (s.conclude p result).node.south = s.node.south := by
  unfold conclude
  split
  · exact settle_south s _ _ _ result
  · exact settle_south (s.store _ _ _) _ _ _ result

theorem startPush_south (s : Site) (d : DeviceId) (role : Role) (epoch : Option Nat)
    (sequel : Push.Sequel) : (s.startPush d role epoch sequel).1.node.south = s.node.south := by
  unfold startPush
  split
  · exact conclude_south s _ _
  · exact conclude_south s _ _
  · rfl

theorem informed_south (s : Site) (d : DeviceId) (requested : Role) :
    (s.informed d requested).node.south = s.node.south := by
  have hasked : (s.asked d requested).node.south = s.node.south := by
    unfold asked
    split
    · rw [request_node]
    · rfl
  rw [informed, observeEpoch_south, observeTerm_south, hasked]

theorem markIf_south (s : Site) (d : DeviceId) (role : Role) :
    (if role = .master then s.markOnline d else s).node.south = s.node.south := by
  split
  · exact markOnline_south s d
  · rfl

theorem reassert_south (s : Site) (d : DeviceId) (requested : Role) :
    (s.reassert d requested).1.node.south = s.node.south := by
  rw [reassert_eq]
  dsimp only
  split
  · rw [startPush_south, markIf_south, informed_south]
  · exact informed_south s d requested

theorem connected_south (s : Site) (slot : Nat) (d : DeviceId) (description : DeviceDescription) :
    (s.connected slot d description).1.node.south = s.node.south := by
  rw [connected_eq]
  dsimp only
  split
  · rw [startPush_south, informed_south]
  · rw [store_south, informed_south]

theorem suggestedRole_south (s : Site) (a : Announcement) :
    (s.suggestedRole a).1.node.south = s.node.south := by
  obtain ⟨clock, hclock⟩ := s.suggestedRole_node a
  rw [hclock]

theorem handle_south (s : Site) (a : Announcement) : (s.handle a).1.node.south = s.node.south := by
  unfold handle
  split
  · rfl
  · have hs := suggestedRole_south s a
    unfold followMaster
    generalize s.suggestedRole a = r at hs ⊢
    obtain ⟨s₁, suggested⟩ := r
    dsimp only at hs ⊢
    split
    · exact hs
    · split
      · exact hs
      · exact (relinquish_south s₁ a.device).trans hs
    · split
      · exact (reassert_south s₁ a.device suggested).trans hs
      · exact hs

theorem check_south (s : Site) (d : DeviceId) : (s.check d).1.node.south = s.node.south := by
  unfold check
  split
  · split
    · exact reassert_south s d .none
    · rfl
  · rfl

theorem markOffline_south (s : Site) (d : DeviceId) :
    (s.markOffline d).1.node.south = s.node.south := by
  simp only [markOffline]
  split
  · rfl
  · rfl
  · rfl
  · split <;> rfl

theorem markDisconnected_south (s : Site) (d : DeviceId) :
    (s.markDisconnected d).1.node.south = s.node.south := by
  have hm : ((s.disablePorts d).markOffline d).1.node.south = s.node.south :=
    markOffline_south (s.disablePorts d) d
  simp only [markDisconnected]
  split
  · next s₁ e h =>
    rw [h] at hm
    dsimp only at hm
    split
    · have hasked : ((s₁.request d).observeTerm d).1.node.south = s.node.south := by
        rw [observeTerm_south, request_node, hm]
      split
      · exact (markOffline_south _ d).trans hasked
      · exact hasked
    · exact hm
  · next s₁ m _ h =>
    rw [h] at hm
    exact hm

theorem disconnected_south (s : Site) (d : DeviceId) :
    (s.disconnected d).1.node.south = s.node.south := by
  rw [disconnected_eq, postAll_node]
  exact (relinquish_south (s.markDisconnected d).1 d).trans (markDisconnected_south s d)

theorem remove_south (s : Site) (d : DeviceId) : (s.remove d).node.south = s.node.south := by
  unfold remove
  split <;> rfl

theorem guarded_south (slot : Nat) {f : Site → Site} (h : (f s).node.south = s.node.south) :
    (s.guarded slot f).1.node.south = s.node.south := by
  unfold guarded
  split
  · rfl
  · exact h

/-- No task touches the providers of its controller, or which of them are registered. -/
theorem run_south (s : Site) (t : Task) : (s.run t).1.node.south = s.node.south := by
  cases t with
  | connect slot d description =>
    simp only [run, connect]
    split
    · rfl
    · exact connected_south s slot d description
  | disconnect slot d =>
    simp only [run, disconnect]
    split
    · rfl
    · exact disconnected_south s d
  | setPorts slot d ps =>
    apply guarded_south slot (f := (·.portsReported d ps))
    unfold portsReported
    split <;> rfl
  | setPort slot d p =>
    apply guarded_south slot (f := (·.portReported d p))
    unfold portReported
    split <;> rfl
  | setStatistics slot d ss => exact guarded_south slot (f := (·.statisticsReported d ss)) rfl
  | roleReply slot d requested response =>
    apply guarded_south slot (f := (·.roleReplied d requested response))
    rcases roleReplied_eq s d requested response with h | h <;> rw [h]
    exact relinquish_south s d
  | reassert d requested => exact reassert_south s d requested
  | check d => exact check_south s d
  | handle a => exact handle_south s a
  | remove d => exact remove_south s d

theorem Fits.of_south (h : s'.Fits p) (hs : s'.node.south = s.node.south) : s.Fits p := by
  rwa [Fits, hs] at h

theorem startPush_fits {role : Role} {epoch : Option Nat} {sequel : Push.Sequel}
    (h : (s.startPush d role epoch sequel).2 = some p) : s.Fits p := by
  by_cases hr : role = .none
  · simp [startPush, Southbound.start, hr] at h
  · cases hslot : s.node.south.slotFor d with
    | none => simp [startPush, Southbound.start, hr, hslot] at h
    | some slot =>
      simp only [startPush, Southbound.start, hr, hslot, if_false, Option.some.injEq] at h
      subst h
      exact hslot

theorem reassert_fits {requested : Role} (h : (s.reassert d requested).2 = some p) : s.Fits p := by
  rw [reassert_eq] at h
  dsimp only at h
  split at h
  · exact (startPush_fits h).of_south (by rw [markIf_south, informed_south])
  · cases h

theorem connected_fits {slot : Nat} {description : DeviceDescription}
    (h : (s.connected slot d description).2 = some p) : s.Fits p := by
  rw [connected_eq] at h
  dsimp only at h
  split at h
  · exact (startPush_fits h).of_south (informed_south s d .none)
  · cases h

theorem handle_fits {a : Announcement} (h : (s.handle a).2 = some p) : s.Fits p := by
  unfold handle at h
  split at h
  · cases h
  · have hs := suggestedRole_south s a
    unfold followMaster at h
    generalize s.suggestedRole a = r at hs h
    obtain ⟨s₁, suggested⟩ := r
    dsimp only at hs h
    split at h
    · cases h
    · cases h
    · split at h
      · exact (reassert_fits h).of_south hs
      · cases h

theorem check_fits (h : (s.check d).2 = some p) : s.Fits p := by
  unfold check at h
  split at h
  · split at h
    · exact reassert_fits h
    · cases h
  · cases h

/-- A push that a task leaves goes to the provider that is registered for the scheme of its device. -/
theorem run_fits {t : Task} (h : (s.run t).2 = some p) : s.Fits p := by
  cases t with
  | connect slot d description =>
    simp only [run, connect] at h
    split at h
    · cases h
    · exact connected_fits h
  | reassert d requested => exact reassert_fits h
  | check d => exact check_fits h
  | handle a => exact handle_fits h
  | _ => cases h

/-- Besides, it is a push of a role. -/
theorem run_role_ne_none {t : Task} (h : (s.run t).2 = some p) : p.role ≠ .none :=
  (run_marks s t).role_ne_none h

theorem answer_south (s : Site) (p : Push) :
    (s.answer p).node.south = (s.node.south.finish p.slot p.device p.role).1 := by
  unfold answer
  generalize s.node.south.finish p.slot p.device p.role = r
  obtain ⟨south, result⟩ := r
  cases result with
  | error e => exact conclude_south (s.setSouth south) p _
  | ok calls => exact conclude_south ((s.setSouth south).note _) p _

theorem heard_answer (s : Site) (p : Push) (slot : Nat) :
    (s.answer p).node.south.heard slot =
      s.node.south.heard slot ++ if p.slot = slot then s.callsOf p else [] := by
  have hdone : ((s.node.south.finish p.slot p.device p.role).2.toOption).getD [] = s.callsOf p := by
    unfold callsOf reply
    cases hr : (s.node.south.finish p.slot p.device p.role).2 with
    | error e => rfl
    | ok calls => exact Southbound.finish_calls hr
  rw [answer_south, Southbound.heard_finish, hdone]

theorem heard_change (h : s.node.south.Packed) (c : Change) (slot : Nat) :
    (s.change c).node.south.heard slot = s.node.south.heard slot := by
  cases c with
  | register id =>
    rw [change, Southbound.register_eq_enroll]
    exact h.heard_enroll id slot
  | unregister id => rfl
  | setLine slot' d line => exact Southbound.heard_setLine _ slot' d _ slot
  | setFaults faults => rfl
  | setActive active => rfl

end Site
end Mastership
