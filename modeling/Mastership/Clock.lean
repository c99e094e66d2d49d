import Mastership.Role

namespace Mastership

/-- When, in terms of ownership, a device was written. -/
structure Timestamp where
  epoch : Nat
  sequence : Nat
deriving DecidableEq, Repr, Inhabited

namespace Timestamp

instance : LT Timestamp where
  lt a b := a.epoch < b.epoch ∨ a.epoch = b.epoch ∧ a.sequence < b.sequence

instance (a b : Timestamp) : Decidable (a < b) :=
  inferInstanceAs (Decidable (a.epoch < b.epoch ∨ a.epoch = b.epoch ∧ a.sequence < b.sequence))

theorem lt_def {a b : Timestamp} :
    a < b ↔ a.epoch < b.epoch ∨ a.epoch = b.epoch ∧ a.sequence < b.sequence := Iff.rfl

def compare (a b : Timestamp) : Ordering :=
  if a < b then .lt else if b < a then .gt else .eq

def sort (ts : List Timestamp) : List Timestamp :=
  ts.mergeSort (fun a b => decide (¬ b < a))

end Timestamp

/-- Newest term of a device and the number of stamps issued under its epoch. -/
structure Clock.Entry where
  term : Term
  sequence : Nat
deriving DecidableEq, Repr, Inhabited

/-- The clock of a member, which may stamp a device only while the newest term it was told of names it
as owner. Stamps of a device ascend by epoch, then by a counter that starts anew with each epoch. -/
structure Clock where
  node : NodeId
  entries : Table DeviceId Clock.Entry := ∅
deriving DecidableEq, Repr

namespace Clock

def term? (c : Clock) (d : DeviceId) : Option Term :=
  (c.entries.get? d).map Entry.term

/-- Takes note of a term. A term of an older epoch than the recorded one is refused; one of a newer
epoch starts the counter anew. -/
def setTerm (c : Clock) (d : DeviceId) (t : Term) : Clock × Bool :=
  match c.entries.get? d with
  | none => ({ c with entries := c.entries.insert d ⟨t, 0⟩ }, true)
  | some e =>
    if t.epoch < e.term.epoch then (c, false)
    else
      let sequence := if e.term.epoch < t.epoch then 0 else e.sequence
      ({ c with entries := c.entries.insert d ⟨t, sequence⟩ }, true)

def available (c : Clock) (d : DeviceId) : Bool :=
  match c.entries.get? d with
  | none => false
  | some e => e.term.owner == c.node

/-- Issues the next stamp, if the member may stamp the device. -/
def next (c : Clock) (d : DeviceId) : Clock × Option Timestamp :=
  match c.entries.get? d with
  | none => (c, none)
  | some e =>
    if e.term.owner = c.node then
      ({ c with entries := c.entries.insert d ⟨e.term, e.sequence + 1⟩ },
        some ⟨e.term.epoch, e.sequence + 1⟩)
    else (c, none)

theorem get?_setTerm_of_ne (c : Clock) {d d' : DeviceId} (h : d' ≠ d) (t : Term) :
    (c.setTerm d t).1.entries.get? d' = c.entries.get? d' := by
  simp only [setTerm]
  split
  · exact Table.get?_insert_of_ne _ _ h.symm
  · split
    · rfl
    · exact Table.get?_insert_of_ne _ _ h.symm

theorem get?_next_of_ne (c : Clock) {d d' : DeviceId} (h : d' ≠ d) :
    (c.next d).1.entries.get? d' = c.entries.get? d' := by
  simp only [next]
  split
  · rfl
  · split
    · exact Table.get?_insert_of_ne _ _ h.symm
    · rfl

variable (c : Clock) (d : DeviceId)

theorem node_setTerm (t : Term) : (c.setTerm d t).1.node = c.node := by
  simp only [setTerm]
  split
  · rfl
  · split <;> rfl

theorem node_next : (c.next d).1.node = c.node := by
  simp only [next]
  split
  · rfl
  · split <;> rfl

/-- A clock takes a term that is not older than its own. -/
theorem term?_setTerm {t : Term} (h : ∀ old, c.term? d = some old → old.epoch ≤ t.epoch) :
    (c.setTerm d t).1.term? d = some t := by
  simp only [setTerm]
  split
  · simp [term?]
  · next e he =>
    have hle : e.term.epoch ≤ t.epoch := h e.term (by simp [term?, he])
    rw [if_neg (Nat.not_lt.mpr hle)]
    simp [term?]

/-- The terms that a clock holds are those that it held, but for the one that it takes. -/
theorem term?_setTerm_cases {t u : Term} {d' : DeviceId}
    (h : (c.setTerm d t).1.term? d' = some u) : c.term? d' = some u ∨ d' = d ∧ u = t := by
  by_cases hd : d' = d
  · subst hd
    simp only [setTerm] at h
    split at h
    · exact .inr ⟨rfl, by simpa [term?] using h.symm⟩
    · split at h
      · exact .inl h
      · exact .inr ⟨rfl, by simpa [term?] using h.symm⟩
  · rw [term?, c.get?_setTerm_of_ne hd] at h
    exact .inl h

theorem term?_next (d' : DeviceId) : (c.next d).1.term? d' = c.term? d' := by
  by_cases hd : d' = d
  · subst hd
    simp only [next]
    split
    · rfl
    · next e he =>
      split
      · simp [term?, he]
      · rfl
  · rw [term?, term?, c.get?_next_of_ne hd]

/-- A stamp is of the epoch of the clock's term, which is its own node's. -/
theorem term?_of_next {x : Timestamp} (h : (c.next d).2 = some x) :
    c.term? d = some ⟨c.node, x.epoch⟩ := by
  simp only [next] at h
  split at h
  · cases h
  · next e he =>
    split at h
    · next ho =>
      cases h
      simp [term?, he, ← ho]
    · cases h

theorem next_of_none (h : (c.next d).2 = none) : (c.next d).1 = c := by
  simp only [next] at h ⊢
  split at h
  · rfl
  · split at h
    · cases h
    · next ho => rw [if_neg ho]

/-- A device may be stamped by the owner of the newest term that the clock has heard of. -/
theorem next_isSome_iff :
    (c.next d).2.isSome ↔ ∃ t, c.term? d = some t ∧ t.owner = c.node := by
  simp only [next, term?]
  cases c.entries.get? d with
  | none => simp
  | some e =>
    dsimp only
    split
    · next h => simpa using h
    · next h => simpa using h

end Clock
end Mastership
