import Mathlib.Data.List.DropRight
import Mastership.RoleTable

namespace Mastership.RoleTable

/-- What may be done to a role table. -/
inductive Op where
  | observe (d : DeviceId) (epoch : Nat)
  | record (d : DeviceId) (role : Role) (epoch : Option Nat)
  | clear (d : DeviceId)
  | forget (d : DeviceId)
deriving DecidableEq, Repr

namespace Op

def device : Op → DeviceId
  | .observe d _ | .record d _ _ | .clear d | .forget d => d

/-- The epoch that is given with an operation. -/
def epoch? : Op → Option Nat
  | .observe _ epoch => some epoch
  | .record _ _ epoch => epoch
  | .clear _ | .forget _ => none

/-- The device is known after the operation, whatever the answer. -/
def tracks : Op → Bool
  | .observe .. | .record .. => true
  | .clear _ | .forget _ => false

end Op

def apply (t : RoleTable) : Op → RoleTable
  | .observe d epoch => (t.observe d epoch).1
  | .record d role epoch => (t.record d role epoch).1
  | .clear d => (t.clear d).1
  | .forget d => t.forget d

/-- The table after operations, of which the first finds it empty. -/
def after (ops : List Op) : RoleTable := ops.foldl apply {}

/-- What was done about a device since it was last forgotten. -/
def since (d : DeviceId) (ops : List Op) : List Op :=
  (ops.filter (·.device = d)).rtakeWhile (· ≠ .forget d)

def known (d : DeviceId) (ops : List Op) : Bool := (since d ops).any Op.tracks

/-- The maximum of all epochs given for a device since it was last forgotten. -/
def highest (d : DeviceId) (ops : List Op) : Nat :=
  ((since d ops).filterMap Op.epoch?).foldr max 0

/-- The epoch, if there is one, is not below the highest one given. -/
def current (d : DeviceId) (ops : List Op) (epoch : Option Nat) : Bool :=
  epoch.all (highest d ops ≤ ·)

/-- The role in which an operation leaves a device, if it has a say in it. A record has, unless newer
epochs were given before. -/
def Op.leaves? (d : DeviceId) (before : List Op) : Op → Option Role
  | .observe _ _ => none
  | .record d' role epoch => if d' = d ∧ current d before epoch then some role else none
  | .clear d' | .forget d' => if d' = d then some .none else none

/-- The roles in which operations leave a device, in this order. -/
def left (d : DeviceId) (before : List Op) : List Op → List Role
  | [] => []
  | op :: ops => (op.leaves? d before).toList ++ left d (before ++ [op]) ops

/-- The role of the last record that took effect, or NONE if it was taken away since or none did. -/
def lastRole (d : DeviceId) (ops : List Op) : Role := (left d [] ops).getLast?.getD .none

variable {d : DeviceId} {op : Op} {ops : List Op} {t : RoleTable}

theorem since_append_of_ne (h : op.device ≠ d) : since d (ops ++ [op]) = since d ops := by
  simp [since, h]

theorem since_append_forget (d : DeviceId) (ops : List Op) : since d (ops ++ [.forget d]) = [] := by
  simp [since, Op.device]

theorem since_append (hd : op.device = d) (h : op ≠ .forget d) :
    since d (ops ++ [op]) = since d ops ++ [op] := by
  simp [since, hd, h]

theorem known_append (op : Op) (hd : op.device = d) (h : op ≠ .forget d) :
    known d (ops ++ [op]) = (known d ops || op.tracks) := by
  simp [known, since_append hd h]

theorem foldr_max_append (xs : List Nat) (x : Nat) :
    (xs ++ [x]).foldr max 0 = max (xs.foldr max 0) x := by
  induction xs with
  | nil => simp
  | cons y ys ih => simp only [List.cons_append, List.foldr_cons, ih, Nat.max_assoc]

theorem highest_append (op : Op) (hd : op.device = d) (h : op ≠ .forget d) :
    highest d (ops ++ [op]) = max (highest d ops) (op.epoch?.getD 0) := by
  rw [highest, since_append hd h, List.filterMap_append]
  cases he : op.epoch? with
  | none => simp [he, highest]
  | some epoch => simp [he, highest, -List.foldr_append, foldr_max_append]

theorem left_append (d : DeviceId) (before ops : List Op) (op : Op) :
    left d before (ops ++ [op]) = left d before ops ++ (op.leaves? d (before ++ ops)).toList := by
  induction ops generalizing before with
  | nil => simp [left]
  | cons o os ih => simp only [List.cons_append, left, ih, List.append_assoc, List.nil_append]

theorem lastRole_append (d : DeviceId) (ops : List Op) (op : Op) :
    lastRole d (ops ++ [op]) = (op.leaves? d ops).getD (lastRole d ops) := by
  rw [lastRole, left_append, List.nil_append]
  cases op.leaves? d ops <;> simp [lastRole]

theorem leaves?_of_ne (h : op.device ≠ d) : op.leaves? d ops = none := by
  cases op <;> simp_all [Op.device, Op.leaves?]

theorem Op.tracks_of_epoch {epoch : Nat} (h : op.epoch? = some epoch) : op.tracks = true := by
  cases op <;> first | rfl | cases h

theorem highest_of_unknown (h : known d ops = false) : highest d ops = 0 := by
  have hnone : (since d ops).filterMap Op.epoch? = [] := by
    rw [List.filterMap_eq_nil_iff]
    intro op hop
    rw [Option.eq_none_iff_forall_ne_some]
    intro epoch he
    have := List.any_eq_false.mp h op hop
    exact this (Op.tracks_of_epoch he)
  rw [highest, hnone, List.foldr_nil]

theorem lastRole_of_unknown (h : known d ops = false) : lastRole d ops = .none := by
  induction ops using List.reverseRecOn with
  | nil => rfl
  | append_singleton ops op ih =>
    rw [lastRole_append]
    by_cases hd : op.device = d
    · cases op with
      | clear d' => simp [Op.leaves?, show d' = d from hd]
      | forget d' => simp [Op.leaves?, show d' = d from hd]
      | _ => simp [known_append _ hd, Op.tracks] at h
    · rw [leaves?_of_ne hd]
      refine ih ?_
      rwa [known, since_append_of_ne hd] at h

/-- What is known of a device by its history. -/
def remembered (d : DeviceId) (ops : List Op) : Option Entry :=
  if known d ops then some ⟨lastRole d ops, highest d ops⟩ else none

/-- What is known, or nothing, is given by the last role and the highest epoch either way. -/
theorem remembered_getD (d : DeviceId) (ops : List Op) :
    (remembered d ops).getD {} = ⟨lastRole d ops, highest d ops⟩ := by
  unfold remembered
  split
  · rfl
  · next h =>
    have hunknown := Bool.eq_false_iff.mpr h
    rw [lastRole_of_unknown hunknown, highest_of_unknown hunknown]
    rfl

theorem entry_of_remembered (h : t.entries.get? d = remembered d ops) :
    t.entry d = ⟨lastRole d ops, highest d ops⟩ := by
  rw [entry, h, remembered_getD]

theorem remembered_append_of_ne (h : op.device ≠ d) :
    remembered d (ops ++ [op]) = remembered d ops := by
  have hknown : known d (ops ++ [op]) = known d ops := by
    rw [known, since_append_of_ne h, known]
  have hhighest : highest d (ops ++ [op]) = highest d ops := by
    rw [highest, since_append_of_ne h, highest]
  have hrole : lastRole d (ops ++ [op]) = lastRole d ops := by
    rw [lastRole_append, leaves?_of_ne h, Option.getD_none]
  rw [remembered, hknown, hhighest, hrole, remembered]

theorem get?_apply_of_ne (h : op.device ≠ d) :
    (t.apply op).entries.get? d = t.entries.get? d := by
  cases op with
  | observe d' epoch => exact t.get?_observe_of_ne d' (Ne.symm h) epoch
  | record d' role epoch => exact t.get?_record_of_ne d' (Ne.symm h) role epoch
  | clear d' => exact t.get?_clear_of_ne d' (Ne.symm h)
  | forget d' => exact t.get?_forget_of_ne d' (Ne.symm h)

theorem current_iff {epoch : Option Nat} :
    current d ops epoch = true ↔ ∀ n, epoch = some n → highest d ops ≤ n := by
  simp [current, Option.all_eq_true]

theorem current_eq_false_iff {epoch : Option Nat} :
    current d ops epoch = false ↔ ∃ n, epoch = some n ∧ n < highest d ops := by
  cases epoch <;> simp [current]

theorem observe_remembers (h : t.entries.get? d = remembered d ops) (epoch : Nat) :
    (t.observe d epoch).1.entries.get? d = remembered d (ops ++ [.observe d epoch]) := by
  have hknown : known d (ops ++ [.observe d epoch]) = true :=
    (known_append (.observe d epoch) rfl (by simp)).trans (Bool.or_true _)
  have hhighest : highest d (ops ++ [.observe d epoch]) = max (highest d ops) epoch :=
    highest_append (.observe d epoch) rfl (by simp)
  rw [get?_observe_self, entry_observe, entry_of_remembered h, remembered, if_pos hknown, hhighest,
    lastRole_append]
  simp [Op.leaves?]

theorem record_remembers (h : t.entries.get? d = remembered d ops) (role : Role)
    (epoch : Option Nat) :
    (t.record d role epoch).1.entries.get? d = remembered d (ops ++ [.record d role epoch]) := by
  have hentry := entry_of_remembered h
  have hknown : known d (ops ++ [.record d role epoch]) = true :=
    (known_append (.record d role epoch) rfl (by simp)).trans (Bool.or_true _)
  have hhighest : highest d (ops ++ [.record d role epoch]) =
      max (highest d ops) (epoch.getD 0) :=
    highest_append (.record d role epoch) rfl (by simp)
  rw [get?_record_self, remembered, if_pos hknown, hhighest, lastRole_append, Op.leaves?]
  cases hc : current d ops epoch with
  | true =>
    have hle := current_iff.mp hc
    rw [entry_record t d role (by rwa [hentry]), hentry]
    cases epoch with
    | none => simp
    | some n => simp [Nat.max_eq_right (hle n rfl)]
  | false =>
    obtain ⟨n, rfl, hlt⟩ := current_eq_false_iff.mp hc
    rw [entry_record_stale t d role (by rwa [hentry]), hentry]
    simp [Nat.max_eq_left (Nat.le_of_lt hlt)]

theorem clear_remembers (h : t.entries.get? d = remembered d ops) :
    (t.clear d).1.entries.get? d = remembered d (ops ++ [.clear d]) := by
  have hknown : known d (ops ++ [.clear d]) = known d ops :=
    (known_append (.clear d) rfl (by simp)).trans (Bool.or_false _)
  have hhighest : highest d (ops ++ [.clear d]) = highest d ops :=
    (highest_append (.clear d) rfl (by simp)).trans (Nat.max_zero _)
  rw [get?_clear_self, h, remembered, remembered, hknown, hhighest, lastRole_append]
  cases known d ops <;> simp [Op.leaves?]

theorem forget_remembers (t : RoleTable) (d : DeviceId) (ops : List Op) :
    (t.forget d).entries.get? d = remembered d (ops ++ [.forget d]) := by
  have hknown : known d (ops ++ [.forget d]) = false := by
    rw [known, since_append_forget, List.any_nil]
  rw [remembered, hknown]
  exact Table.get?_erase_self _ _

/-- Each operation adds to what is remembered what it adds to the history. -/
theorem get?_apply (h : t.entries.get? d = remembered d ops) (op : Op) :
    (t.apply op).entries.get? d = remembered d (ops ++ [op]) := by
  by_cases hd : op.device = d
  · cases op with
    | observe d' epoch =>
      obtain rfl : d' = d := hd
      exact observe_remembers h epoch
    | record d' role epoch =>
      obtain rfl : d' = d := hd
      exact record_remembers h role epoch
    | clear d' =>
      obtain rfl : d' = d := hd
      exact clear_remembers h
    | forget d' =>
      obtain rfl : d' = d := hd
      exact forget_remembers t d' ops
  · rw [get?_apply_of_ne hd, h, remembered_append_of_ne hd]

theorem get?_after (d : DeviceId) (ops : List Op) :
    (after ops).entries.get? d = remembered d ops := by
  induction ops using List.reverseRecOn with
  | nil => rfl
  | append_singleton ops op ih =>
    rw [after, List.foldl_append]
    exact get?_apply ih op

theorem entry_after (d : DeviceId) (ops : List Op) :
    (after ops).entry d = ⟨lastRole d ops, highest d ops⟩ :=
  entry_of_remembered (get?_after d ops)

theorem mem_toList_after {e : Entry} :
    (d, e) ∈ (after ops).toList ↔ known d ops = true ∧ e = ⟨lastRole d ops, highest d ops⟩ := by
  rw [toList, Table.mem_entries, get?_after, remembered]
  cases known d ops <;> simp [eq_comm]

/-- What is recorded on an epoch that is not below the highest one given is found afterwards, and what
is recorded on a lower one leaves no trace. -/
theorem record_after (d : DeviceId) (ops : List Op) (role : Role) (epoch : Option Nat) :
    (current d ops epoch = true ↔
      ((after ops).record d role epoch).1.entries.get? d =
        some ⟨role, epoch.getD (highest d ops)⟩) ∧
      (current d ops epoch = false → ((after ops).record d role epoch).1 = after ops) := by
  have hentry := entry_after d ops
  cases hc : current d ops epoch with
  | true =>
    have hle := current_iff.mp hc
    have hrecord := entry_record (after ops) d role (by simpa only [hentry] using hle)
    rw [hentry] at hrecord
    simp [get?_record_self, hrecord]
  | false =>
    obtain ⟨n, rfl, hlt⟩ := current_eq_false_iff.mp hc
    have hstale := record_of_stale (after ops) d role (n := n) (by simpa only [hentry] using hlt)
    simp only [hstale, get?_after, remembered, Option.getD_some, Bool.false_eq_true, false_iff,
      true_implies, and_true]
    split
    · simp [Nat.ne_of_gt hlt]
    · nofun

theorem observe_after (d : DeviceId) (ops : List Op) (epoch : Nat) :
    ((after ops).observe d epoch).2 = decide (highest d ops ≤ epoch) := by
  rw [observe_current, entry_after]

/-- A role table keeps the newest decision about each device. Whatever was observed, recorded, cleared
and forgotten, of whatever devices: the epoch of a device that is known is the maximum of all epochs
given for it since it was last forgotten; to observe an epoch is answered by whether it is not below
that maximum, and a role is recorded exactly if its epoch, if it has one, is not, while what is below
changes nothing; the role is that of the last record that took effect, unless it was taken away since;
recording and clearing are answered by whether the role changed; and the devices that are known are
listed once each, in ascending order, with these values. -/
theorem keeps_newest_decision (ops : List Op) :
    let t := after ops
    (∀ d, t.epoch? d = if known d ops then some (highest d ops) else none) ∧
    (∀ d, t.role d = lastRole d ops) ∧
    (∀ d epoch, ((t.observe d epoch).2 = true ↔ highest d ops ≤ epoch) ∧
      ((t.observe d epoch).2 = false → (t.observe d epoch).1 = t)) ∧
    (∀ d role epoch,
      (current d ops epoch = true ↔ (t.record d role epoch).1.entries.get? d =
        some ⟨role, epoch.getD (highest d ops)⟩) ∧
      (current d ops epoch = false → (t.record d role epoch).1 = t)) ∧
    (∀ d role epoch, (t.record d role epoch).2 = true ↔
      (t.record d role epoch).1.role d ≠ t.role d) ∧
    (∀ d, (t.clear d).2 = true ↔ (t.clear d).1.role d ≠ t.role d) ∧
    (t.toList.map Prod.fst).Pairwise (· < ·) ∧
    ∀ d e, (d, e) ∈ t.toList ↔ known d ops = true ∧ e = ⟨lastRole d ops, highest d ops⟩ := by
  intro t
  refine ⟨fun d => ?_, fun d => ?_, fun d epoch => ⟨?_, fun hstale => ?_⟩,
    fun d => record_after d ops, t.record_answer, fun d => ?_, t.entries.keys_ascending,
    fun d e => mem_toList_after⟩
  · rw [epoch?, get?_after, remembered]
    split <;> rfl
  · rw [role, entry_after]
  · rw [observe_after, decide_eq_true_eq]
  · rw [observe_after, decide_eq_false_iff_not, Nat.not_le] at hstale
    have hbelow : epoch < (t.entry d).epoch := by rwa [entry_after]
    rw [observe_of_stale t d hbelow]
  · rw [clear_answer, role_clear]
    exact ne_comm

/-- A role recorded on an older epoch than one that was only observed does not count, unless the device
was forgotten in between. -/
example :
    let old : List Op := [.observe ⟨"of:1"⟩ 3, .record ⟨"of:1"⟩ .standby none,
      .record ⟨"of:1"⟩ .master (some 2)]
    (after old).toList = [(⟨"of:1"⟩, ⟨.standby, 3⟩)] ∧
      (after (old ++ [.forget ⟨"of:1"⟩, .record ⟨"of:1"⟩ .master (some 2)])).toList =
        [(⟨"of:1"⟩, ⟨.master, 2⟩)] := by
  decide +kernel

end Mastership.RoleTable
