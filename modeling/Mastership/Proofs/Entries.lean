import Mastership.Proofs.Outcomes
import Mastership.Proofs.World

namespace Mastership
namespace Site

variable {d : DeviceId} {s s' : Site}

/-- What a task makes of the entry of its device: it keeps it, takes the role out of it, or notes in it
the epoch of the push that it leaves. Until that push is answered, the entry pairs the old role with
the new epoch. The role NONE is never pushed. -/
inductive Marks (e : RoleTable.Entry) : RoleTable.Entry → Option Push → Prop
  | keeps {push : Option Push} : (∀ p, push = some p → p.role ≠ .none) → Marks e e push
  | clears {e' : RoleTable.Entry} : e'.role = .none → Marks e e' none
  | notes {p : Push} {epoch : Nat} : p.role ≠ .none → p.epoch = some epoch →
      Marks e ⟨e.role, epoch⟩ (some p)

namespace Marks

variable {e e' : RoleTable.Entry} {push : Option Push}

/-- A task that does nothing to the entry and leaves no push. -/
theorem rests : Marks e e none := .keeps fun _ hp => absurd hp (by simp)

theorem role_ne_none (h : Marks e e' push) {p : Push} (hp : push = some p) : p.role ≠ .none := by
  cases h with
  | keeps hr => exact hr p hp
  | clears => cases hp
  | notes hr => exact Option.some.inj hp ▸ hr

theorem of_master (h : Marks e e' push) (hm : e'.role = .master) :
    e = e' ∨ ∃ p, push = some p ∧ p.epoch = some e'.epoch := by
  cases h with
  | keeps => exact .inl rfl
  | clears hn =>
    rw [hm] at hn
    cases hn
  | notes _ he => exact .inr ⟨_, rfl, he⟩

end Marks

/-- What a task makes of the entry of a device. -/
def MarksAt (d : DeviceId) (s : Site) (r : Site × Option Push) : Prop :=
  Marks (s.node.roles.entry d) (r.1.node.roles.entry d) r.2

theorem marks_of_roles (h : s'.node.roles = s.node.roles) : MarksAt d s (s', none) := by
  simp only [MarksAt, h]
  exact .rests

theorem relinquish_marks (s : Site) (d : DeviceId) : MarksAt d s (s.relinquish d, none) :=
  .clears (by simp [RoleTable.entry_clear])

theorem MarksAt.of_roles {r : Site × Option Push} (h : MarksAt d s' r)
    (hr : s'.node.roles = s.node.roles) : MarksAt d s r := by
  simpa only [MarksAt, hr] using h

/-- A push is left to be answered, or nobody can take it and the device is given up. -/
theorem startPush_cases (s : Site) (d : DeviceId) {role : Role} (hr : role ≠ .none)
    (epoch : Option Nat) (sequel : Push.Sequel) :
    (∃ slot, s.startPush d role epoch sequel =
      (s.note [.started s.node.id ⟨slot, d, role, epoch, sequel⟩],
        some ⟨slot, d, role, epoch, sequel⟩)) ∨
    ∃ e, s.startPush d role epoch sequel =
      (s.conclude ⟨0, d, role, epoch, sequel⟩ (.error e), none) := by
  simp only [startPush, Southbound.start, hr, if_false]
  cases s.node.south.slotFor d with
  | none => exact .inr ⟨_, rfl⟩
  | some slot => exact .inl ⟨slot, rfl⟩

/-- A decision that is not stale notes the epoch of the term that it read, if it read one. -/
theorem informed_entry_of_current {requested : Role}
    (hc : (s.asked d requested).current d ((s.informed d requested).term? d) = true) :
    (s.informed d requested).node.roles.entry d = match (s.informed d requested).term? d with
      | none => s.node.roles.entry d
      | some t => ⟨(s.node.roles.entry d).role, t.epoch⟩ := by
  rw [informed_entry]
  cases ht : (s.informed d requested).term? d with
  | none => simp
  | some t =>
    have hle : (s.node.roles.entry d).epoch ≤ t.epoch := by
      simpa [current, ht, asked_roles] using hc
    simp [Nat.max_eq_right hle]

theorem informed_entry_of_stale {requested : Role}
    (hc : (s.asked d requested).current d ((s.informed d requested).term? d) = false) :
    (s.informed d requested).node.roles.entry d = s.node.roles.entry d := by
  rw [informed_entry]
  cases ht : (s.informed d requested).term? d with
  | none => simp [current, ht] at hc
  | some t =>
    have hlt : t.epoch < (s.node.roles.entry d).epoch := by
      simpa [current, ht, asked_roles] using hc
    simp [Nat.max_eq_left (Nat.le_of_lt hlt)]

/-- A controller that has informed itself pushes a role. -/
theorem informed_push_marks {requested : Role}
    (hc : (s.asked d requested).current d ((s.informed d requested).term? d) = true) {i : Site}
    (hi : i.node.roles = (s.informed d requested).node.roles) (sequel : Push.Sequel) :
    MarksAt d s (i.startPush d ((s.informed d requested).target d requested)
      (((s.informed d requested).term? d).map Term.epoch) sequel) := by
  have he := informed_entry_of_current hc
  have hne : (s.informed d requested).target d requested ≠ .none := targetRole_ne_none _ _
  rcases i.startPush_cases d hne (((s.informed d requested).term? d).map Term.epoch) sequel with
    ⟨slot, hp⟩ | ⟨e, hp⟩
  · rw [hp]
    simp only [MarksAt, note_node, hi]
    rw [he]
    cases (s.informed d requested).term? d with
    | none => exact .keeps fun _ hp => Option.some.inj hp ▸ hne
    | some t => exact .notes hne rfl
  · rw [hp]
    exact .clears (by simp [conclude_error_roles, RoleTable.entry_clear])

theorem reassert_marks (s : Site) (d : DeviceId) (requested : Role) :
    MarksAt d s (s.reassert d requested) := by
  rw [reassert_eq]
  dsimp only
  split
  · next hc =>
    refine informed_push_marks hc ?_ .settle
    split <;> simp
  · next hc =>
    simp only [MarksAt, informed_entry_of_stale (Bool.eq_false_iff.mpr hc)]
    exact .rests

theorem connected_marks (s : Site) (slot : Nat) (d : DeviceId) (description : DeviceDescription) :
    MarksAt d s (s.connected slot d description) := by
  rw [connected_eq]
  dsimp only
  split
  · next hc => exact informed_push_marks hc rfl _
  · next hc =>
    simp only [MarksAt, store_roles, informed_entry_of_stale (Bool.eq_false_iff.mpr hc)]
    exact .rests

theorem handle_marks (s : Site) (a : Announcement) : MarksAt a.device s (s.handle a) := by
  unfold handle
  split
  · exact .rests
  · have hr := suggestedRole_roles s a
    unfold followMaster
    generalize s.suggestedRole a = r at hr ⊢
    obtain ⟨s₁, suggested⟩ := r
    dsimp only at hr ⊢
    split
    · exact marks_of_roles hr
    · split
      · exact marks_of_roles hr
      · exact (relinquish_marks s₁ a.device).of_roles hr
    · split
      · exact (reassert_marks s₁ a.device suggested).of_roles hr
      · exact marks_of_roles hr

theorem check_marks (s : Site) (d : DeviceId) : MarksAt d s (s.check d) := by
  unfold check
  split
  · split
    · exact reassert_marks s d .none
    · exact .rests
  · exact .rests

theorem guarded_marks (slot : Nat) {f : Site → Site} (h : MarksAt d s (f s, none)) :
    MarksAt d s ((s.guarded slot f).1, none) := by
  unfold guarded
  split
  · exact .rests
  · exact h

theorem roleReplied_marks (s : Site) (d : DeviceId) (requested response : Option Role) :
    MarksAt d s (s.roleReplied d requested response, none) := by
  rcases roleReplied_eq s d requested response with h | h <;> rw [h]
  · exact relinquish_marks s d
  · exact .rests

theorem remove_roles (s : Site) (d : DeviceId) :
    (s.remove d).node.roles = s.node.roles ∨
      (s.remove d).node.roles = s.node.roles.forget d := by
  unfold remove
  split
  · exact .inl rfl
  · exact .inr rfl

theorem remove_marks (s : Site) (d : DeviceId) : MarksAt d s (s.remove d, none) := by
  rcases remove_roles s d with h | h
  · exact marks_of_roles h
  · exact .clears (by simp [h, RoleTable.entry_forget])

theorem portsReported_roles (s : Site) (d : DeviceId) (ps : List PortDescription) :
    (s.portsReported d ps).node.roles = s.node.roles := by
  unfold portsReported
  split <;> rfl

theorem portReported_roles (s : Site) (d : DeviceId) (p : PortDescription) :
    (s.portReported d p).node.roles = s.node.roles := by
  unfold portReported
  split <;> rfl

theorem run_marks (s : Site) (t : Task) : MarksAt t.device s (s.run t) := by
  cases t with
  | connect slot d description =>
    simp only [run, connect]
    split
    · exact .rests
    · exact connected_marks s slot d description
  | disconnect slot d =>
    simp only [run, disconnect]
    split
    · exact .rests
    · exact .clears (congrArg RoleTable.Entry.role (disconnected_entry s d))
  | setPorts slot d ps => exact guarded_marks slot (marks_of_roles (portsReported_roles s d ps))
  | setPort slot d p => exact guarded_marks slot (marks_of_roles (portReported_roles s d p))
  | setStatistics slot d ss => exact guarded_marks slot (marks_of_roles rfl)
  | roleReply slot d requested response =>
    exact guarded_marks slot (roleReplied_marks s d requested response)
  | reassert d requested => exact reassert_marks s d requested
  | check d => exact check_marks s d
  | handle a => exact handle_marks s a
  | remove d => exact remove_marks s d

/-- A refused push takes the role out of the entry; an accepted one is recorded. -/
theorem answer_entry (s : Site) (p : Push) :
    (s.answer p).node.roles.entry p.device = match s.reply p with
      | .error _ => ⟨.none, (s.node.roles.entry p.device).epoch⟩
      | .ok () => (s.node.roles.record p.device p.role p.epoch).1.entry p.device := by
  obtain ⟨s₁, _, hroles, _, he⟩ := answer_eq s p
  rw [he]
  cases s.reply p with
  | error e => rw [conclude_error_roles, RoleTable.entry_clear, hroles]
  | ok => rw [conclude_ok_roles, hroles]

end Site
end Mastership
