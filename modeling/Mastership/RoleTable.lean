import Mastership.Role

namespace Mastership

/-- The role that a member last applied to a device, and the highest epoch on which it based a decision
about it. A decision based on an older epoch than that is stale. -/
structure RoleTable.Entry where
  role : Role := .none
  epoch : Nat := 0
deriving DecidableEq, Repr, Inhabited

structure RoleTable where
  entries : Table DeviceId RoleTable.Entry := ∅
deriving DecidableEq, Repr

namespace RoleTable

/-- What is known of a device, or that nothing is. -/
def entry (t : RoleTable) (d : DeviceId) : Entry := (t.entries.get? d).getD {}

def role (t : RoleTable) (d : DeviceId) : Role := (t.entry d).role

/-- Highest epoch seen, of a device that is known. -/
def epoch? (t : RoleTable) (d : DeviceId) : Option Nat := (t.entries.get? d).map Entry.epoch

private def put (t : RoleTable) (d : DeviceId) (e : Entry) : RoleTable :=
  ⟨t.entries.insert d e⟩

/-- Notes that a decision is about to be based on an epoch, and answers whether it may be: not if a
newer epoch was seen. The device is known from here on, either way. -/
def observe (t : RoleTable) (d : DeviceId) (epoch : Nat) : RoleTable × Bool :=
  let e := t.entry d
  if epoch < e.epoch then (t.put d e, false)
  else (t.put d { e with epoch := epoch }, true)

/-- Records an applied role, and answers whether that changed the role. A role decided on an older
epoch than the recorded one is not recorded. -/
def record (t : RoleTable) (d : DeviceId) (role : Role) (epoch : Option Nat) : RoleTable × Bool :=
  let e := t.entry d
  match epoch with
  | none => (t.put d { e with role := role }, e.role != role)
  | some n =>
    if n < e.epoch then (t.put d e, false)
    else (t.put d ⟨role, n⟩, e.role != role)

/-- Takes the role away and keeps the epoch; answers whether there was a role. -/
def clear (t : RoleTable) (d : DeviceId) : RoleTable × Bool :=
  match t.entries.get? d with
  | none => (t, false)
  | some e => if e.role = .none then (t, false) else (t.put d { e with role := .none }, true)

def forget (t : RoleTable) (d : DeviceId) : RoleTable := ⟨t.entries.erase d⟩

def toList (t : RoleTable) : List (DeviceId × Entry) := t.entries.entries

variable (t : RoleTable) (d : DeviceId)

private theorem get?_put_of_ne {d' : DeviceId} (h : d' ≠ d) (e : Entry) :
    (t.put d e).entries.get? d' = t.entries.get? d' :=
  Table.get?_insert_of_ne _ _ h.symm

private theorem entry_put (e : Entry) : (t.put d e).entry d = e := by
  simp [entry, put]

theorem get?_observe_of_ne {d' : DeviceId} (h : d' ≠ d) (epoch : Nat) :
    (t.observe d epoch).1.entries.get? d' = t.entries.get? d' := by
  simp only [observe]
  split <;> exact get?_put_of_ne t d h _

theorem get?_record_of_ne {d' : DeviceId} (h : d' ≠ d) (role : Role) (epoch : Option Nat) :
    (t.record d role epoch).1.entries.get? d' = t.entries.get? d' := by
  cases epoch with
  | none => exact get?_put_of_ne t d h _
  | some n =>
    simp only [record]
    split <;> exact get?_put_of_ne t d h _

theorem get?_clear_of_ne {d' : DeviceId} (h : d' ≠ d) :
    (t.clear d).1.entries.get? d' = t.entries.get? d' := by
  simp only [clear]
  split
  · rfl
  · split
    · rfl
    · exact get?_put_of_ne t d h _

theorem get?_forget_of_ne {d' : DeviceId} (h : d' ≠ d) :
    (t.forget d).entries.get? d' = t.entries.get? d' :=
  Table.get?_erase_of_ne _ h.symm

theorem entry_observe (epoch : Nat) :
    (t.observe d epoch).1.entry d = ⟨(t.entry d).role, max (t.entry d).epoch epoch⟩ := by
  simp only [observe]
  split
  · next h => simp [entry_put, Nat.max_eq_left (Nat.le_of_lt h)]
  · next h => simp [entry_put, Nat.max_eq_right (Nat.le_of_not_lt h)]

theorem observe_current (epoch : Nat) :
    (t.observe d epoch).2 = decide ((t.entry d).epoch ≤ epoch) := by
  simp only [observe]
  split
  · next h => simp [Nat.not_le.mpr h]
  · next h => simp [Nat.le_of_not_lt h]

/-- A role that is not decided on an older epoch than the recorded one is recorded. -/
theorem entry_record {epoch : Option Nat} (role : Role)
    (h : ∀ n, epoch = some n → (t.entry d).epoch ≤ n) :
    (t.record d role epoch).1.entry d = ⟨role, epoch.getD (t.entry d).epoch⟩ := by
  cases epoch with
  | none => exact entry_put t d _
  | some n =>
    simp only [record, if_neg (Nat.not_lt.mpr (h n rfl))]
    exact entry_put t d _

/-- A role that is decided on an older epoch than the recorded one changes nothing. -/
theorem entry_record_stale {n : Nat} (role : Role) (h : n < (t.entry d).epoch) :
    (t.record d role (some n)).1.entry d = t.entry d := by
  simp only [record, if_pos h]
  exact entry_put t d _

theorem entry_record_cases (role : Role) (epoch : Option Nat) :
    (∃ n, epoch = some n ∧ n < (t.entry d).epoch ∧
      (t.record d role epoch).1.entry d = t.entry d) ∨
    (t.record d role epoch).1.entry d = ⟨role, epoch.getD (t.entry d).epoch⟩ := by
  cases epoch with
  | none => exact .inr (entry_record t d role nofun)
  | some n =>
    rcases Nat.lt_or_ge n (t.entry d).epoch with hlt | hle
    · exact .inl ⟨n, rfl, hlt, entry_record_stale t d role hlt⟩
    · refine .inr (entry_record t d role ?_)
      rintro _ ⟨⟩
      exact hle

theorem epoch_record_le (role : Role) (epoch : Option Nat) :
    ((t.record d role epoch).1.entry d).epoch ≤ max (t.entry d).epoch (epoch.getD 0) := by
  cases epoch with
  | none => simp [record, entry_put]
  | some n =>
    simp only [record]
    split
    · rw [entry_put]
      exact Nat.le_max_left _ _
    · rw [entry_put]
      exact Nat.le_max_right _ _

/-- The role is the recorded one, or what it was if the answer is that it has not changed. -/
theorem role_record (role : Role) (epoch : Option Nat) :
    (t.record d role epoch).1.role d = if (t.record d role epoch).2 then role else t.role d := by
  have hput : role = if (t.entry d).role != role then role else (t.entry d).role := by
    by_cases h : (t.entry d).role = role <;> simp [h]
  cases epoch with
  | none =>
    change ((t.put d { t.entry d with role }).entry d).role = _
    rw [entry_put]
    exact hput
  | some n =>
    simp only [record]
    split
    · simp [RoleTable.role, entry_put]
    · change ((t.put d ⟨role, n⟩).entry d).role = _
      rw [entry_put]
      exact hput

/-- A role is taken away exactly if there was one. -/
theorem clear_answer : (t.clear d).2 = true ↔ t.role d ≠ .none := by
  simp only [clear, RoleTable.role, entry]
  cases t.entries.get? d with
  | none => simp
  | some e =>
    dsimp only [Option.getD_some]
    split <;> simp [*]

theorem entry_clear : (t.clear d).1.entry d = ⟨.none, (t.entry d).epoch⟩ := by
  simp only [clear]
  split
  · next h => simp [entry, h]
  · next e h =>
    split
    · next hr =>
      obtain ⟨role, epoch⟩ := e
      obtain rfl : role = .none := hr
      simp [entry, h]
    · simp [entry, put, h]

theorem role_clear : (t.clear d).1.role d = .none := by
  rw [role, entry_clear]

theorem entry_forget : (t.forget d).entry d = {} := by
  simp [entry, forget]

theorem role_forget : (t.forget d).role d = .none := by
  rw [role, entry_forget]

private theorem get?_put (e : Entry) : (t.put d e).entries.get? d = some e :=
  Table.get?_insert_self _ _ _

theorem get?_observe_self (epoch : Nat) :
    (t.observe d epoch).1.entries.get? d = some ((t.observe d epoch).1.entry d) := by
  simp only [observe]
  split <;> rw [get?_put, entry_put]

theorem get?_record_self (role : Role) (epoch : Option Nat) :
    (t.record d role epoch).1.entries.get? d = some ((t.record d role epoch).1.entry d) := by
  cases epoch with
  | none => simp only [record, get?_put, entry_put]
  | some n =>
    simp only [record]
    split <;> rw [get?_put, entry_put]

theorem get?_clear_self :
    (t.clear d).1.entries.get? d = (t.entries.get? d).map fun e => { e with role := .none } := by
  simp only [clear]
  cases h : t.entries.get? d with
  | none => simpa using h
  | some e =>
    dsimp only
    split
    · next hr =>
      obtain ⟨role, epoch⟩ := e
      obtain rfl : role = .none := hr
      simpa using h
    · exact get?_put t d _

/-- Of a device with an epoch something is known. -/
private theorem put_entry {n : Nat} (h : n < (t.entry d).epoch) : t.put d (t.entry d) = t := by
  have hknown : t.entries.get? d = some (t.entry d) := by
    cases he : t.entries.get? d with
    | none => simp [entry, he] at h
    | some e => simp [entry, he]
  rw [put, Table.insert_eq_self hknown]

theorem observe_of_stale {epoch : Nat} (h : epoch < (t.entry d).epoch) :
    t.observe d epoch = (t, false) := by
  simp only [observe, if_pos h, put_entry t d h]

theorem record_of_stale {n : Nat} (role : Role) (h : n < (t.entry d).epoch) :
    t.record d role (some n) = (t, false) := by
  simp only [record, if_pos h, put_entry t d h]

/-- A role is recorded with the answer that the role changed exactly if it did. -/
theorem record_answer (role : Role) (epoch : Option Nat) :
    (t.record d role epoch).2 = true ↔ (t.record d role epoch).1.role d ≠ t.role d := by
  cases epoch with
  | none =>
    simp only [record, RoleTable.role, entry_put, bne_iff_ne]
    exact ne_comm
  | some n =>
    simp only [record]
    split
    · simp [RoleTable.role, entry_put]
    · simp only [RoleTable.role, entry_put, bne_iff_ne]
      exact ne_comm

section Congr

variable {t t' : RoleTable} {d : DeviceId}

theorem observe_congr (h : t'.entries.get? d = t.entries.get? d) (epoch : Nat) :
    (t'.observe d epoch).1.entries.get? d = (t.observe d epoch).1.entries.get? d ∧
      (t'.observe d epoch).2 = (t.observe d epoch).2 := by
  simp only [observe, entry, h]
  by_cases he : epoch < ((t.entries.get? d).getD {}).epoch <;> simp [he, get?_put]

theorem record_congr (h : t'.entries.get? d = t.entries.get? d) (role : Role)
    (epoch : Option Nat) :
    (t'.record d role epoch).1.entries.get? d = (t.record d role epoch).1.entries.get? d ∧
      (t'.record d role epoch).2 = (t.record d role epoch).2 := by
  simp only [record, entry, h]
  cases epoch with
  | none => simp [get?_put]
  | some n => by_cases hn : n < ((t.entries.get? d).getD {}).epoch <;> simp [hn, get?_put]

theorem clear_congr (h : t'.entries.get? d = t.entries.get? d) :
    (t'.clear d).1.entries.get? d = (t.clear d).1.entries.get? d ∧
      (t'.clear d).2 = (t.clear d).2 := by
  simp only [clear, h]
  cases ht : t.entries.get? d with
  | none => exact ⟨h, rfl⟩
  | some e => by_cases he : e.role = .none <;> simp [he, h, ht, get?_put]

end Congr

end RoleTable
end Mastership
