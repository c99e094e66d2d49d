import Mathlib.Data.List.Basic
import Mastership.Clock

namespace Mastership

namespace Timestamp

theorem ne_of_lt {x y : Timestamp} (h : x < y) : x ≠ y := by
  rintro rfl
  rw [lt_def] at h
  omega

/-- Each stamp is greater than all before it, and its number counts those of its epoch. -/
structure Ascending (xs : List Timestamp) : Prop where
  increasing : xs.Pairwise (· < ·)
  counting : ∀ before x after, xs = before ++ x :: after →
    x.sequence = before.countP (·.epoch = x.epoch) + 1

theorem ascending_nil : Ascending [] := ⟨.nil, by simp⟩

theorem Ascending.append {xs : List Timestamp} {x : Timestamp} (h : Ascending xs)
    (hx : ∀ y ∈ xs, y < x) (hcount : x.sequence = xs.countP (·.epoch = x.epoch) + 1) :
    Ascending (xs ++ [x]) := by
  refine ⟨List.pairwise_append.mpr ⟨h.increasing, by simp, by simpa using hx⟩, ?_⟩
  intro before y after he
  rcases List.eq_nil_or_concat after with rfl | ⟨mid, z, rfl⟩
  · obtain ⟨rfl, rfl⟩ : xs = before ∧ x = y := by simpa using List.append_inj' he rfl
    exact hcount
  · rw [List.concat_eq_append, ← List.cons_append, ← List.append_assoc] at he
    exact h.counting before y mid (List.append_inj' he rfl).1

end Timestamp

namespace Term

/-- The last of those terms that have the highest epoch. -/
def Newest (t : Term) (ts : List Term) : Prop :=
  ∃ before after, ts = before ++ t :: after ∧
    (∀ u ∈ before, u.epoch ≤ t.epoch) ∧ ∀ u ∈ after, u.epoch < t.epoch

variable {t u : Term} {ts : List Term}

theorem Newest.epoch_le (h : t.Newest ts) (hu : u ∈ ts) : u.epoch ≤ t.epoch := by
  obtain ⟨before, after, rfl, hb, ha⟩ := h
  rcases List.mem_append.mp hu with hu | hu
  · exact hb u hu
  · rcases List.mem_cons.mp hu with rfl | hu
    · exact Nat.le_refl _
    · exact Nat.le_of_lt (ha u hu)

/-- An older term than the newest one does not count. -/
theorem Newest.append (h : t.Newest ts) (hu : u.epoch < t.epoch) : t.Newest (ts ++ [u]) := by
  obtain ⟨before, after, rfl, hb, ha⟩ := h
  refine ⟨before, after ++ [u], by simp, hb, ?_⟩
  intro v hv
  rcases List.mem_append.mp hv with hv | hv
  · exact ha v hv
  · rwa [List.mem_singleton.mp hv]

theorem newest_append_self (h : ∀ u ∈ ts, u.epoch ≤ t.epoch) : t.Newest (ts ++ [t]) :=
  ⟨ts, [], rfl, h, by simp⟩

theorem Newest.unique (h : t.Newest ts) (h' : u.Newest ts) : t = u := by
  obtain ⟨before, after, rfl, hb, ha⟩ := h
  obtain ⟨before', after', he, hb', ha'⟩ := h'
  rcases List.append_eq_append_iff.mp he with ⟨mid, rfl, hmid⟩ | ⟨mid, rfl, hmid⟩
  · cases mid with
    | nil => exact (List.cons.inj hmid).1
    | cons v mid =>
      obtain ⟨rfl, rfl⟩ := List.cons.inj hmid
      have hle := hb' t (by simp)
      have hlt := ha u (by simp)
      omega
  · cases mid with
    | nil => exact (List.cons.inj hmid).1.symm
    | cons v mid =>
      obtain ⟨rfl, rfl⟩ := List.cons.inj hmid
      have hle := hb u (by simp)
      have hlt := ha' t (by simp)
      omega

end Term

namespace Clock

/-- What a clock may be told or asked. -/
inductive Op where
  | setTerm (d : DeviceId) (t : Term)
  | next (d : DeviceId)
deriving DecidableEq, Repr

/-- The clock after an operation, and the stamp that it issues. -/
def apply (c : Clock) : Op → Clock × Option Timestamp
  | .setTerm d t => ((c.setTerm d t).1, none)
  | .next d => c.next d

def after (c : Clock) (ops : List Op) : Clock := ops.foldl (fun c op => (c.apply op).1) c

/-- The term of a device that an operation tells. -/
def Op.term? (d : DeviceId) : Op → Option Term
  | .setTerm d' t => if d' = d then some t else none
  | .next _ => none

/-- The terms of a device that operations tell, in this order. -/
def told (d : DeviceId) (ops : List Op) : List Term := ops.filterMap (Op.term? d)

/-- The stamp of a device that an operation issues. -/
def stamp? (c : Clock) (d : DeviceId) : Op → Option Timestamp
  | .setTerm _ _ => none
  | .next d' => if d' = d then (c.next d').2 else none

/-- The stamps of a device that operations issue, in this order. -/
def issued (c : Clock) (d : DeviceId) : List Op → List Timestamp
  | [] => []
  | op :: ops => (c.stamp? d op).toList ++ issued (c.apply op).1 d ops

variable {c : Clock} {d : DeviceId} {op : Op} {x y : Timestamp}

theorem told_cons (d : DeviceId) (op : Op) (ops : List Op) :
    told d (op :: ops) = (op.term? d).toList ++ told d ops := by
  cases h : op.term? d <;> simp [told, h]

theorem node_apply (c : Clock) (op : Op) : (c.apply op).1.node = c.node := by
  cases op with
  | setTerm d t => exact c.node_setTerm d t
  | next d => exact c.node_next d

theorem node_after (c : Clock) (ops : List Op) : (c.after ops).node = c.node := by
  induction ops generalizing c with
  | nil => rfl
  | cons op ops ih => exact (ih _).trans (c.node_apply op)

/-- What a term makes of an entry: nothing if its epoch is older, a counter started anew if it is
newer, and another owner with the same counter if it is the same. -/
def Entry.hear (e : Entry) (t : Term) : Entry :=
  if t.epoch < e.term.epoch then e
  else ⟨t, if e.term.epoch < t.epoch then 0 else e.sequence⟩

theorem get?_setTerm_of_none (h : c.entries.get? d = none) (t : Term) :
    (c.setTerm d t).1.entries.get? d = some ⟨t, 0⟩ := by
  simp [setTerm, h]

theorem get?_setTerm_of_some {e : Entry} (h : c.entries.get? d = some e) (t : Term) :
    (c.setTerm d t).1.entries.get? d = some (e.hear t) := by
  simp only [setTerm, h, Entry.hear]
  split
  · exact h
  · simp

/-- A stamp takes the next number of its entry. -/
theorem get?_next_of_some (h : (c.next d).2 = some x) :
    ∃ e, c.entries.get? d = some e ∧ x = ⟨e.term.epoch, e.sequence + 1⟩ ∧
      (c.next d).1.entries.get? d = some ⟨e.term, e.sequence + 1⟩ := by
  cases he : c.entries.get? d with
  | none => simp [next, he] at h
  | some e =>
    simp only [next, he] at h ⊢
    split at h
    · next ho =>
      cases h
      exact ⟨e, rfl, rfl, by simp [ho]⟩
    · cases h

theorem get?_apply_of_quiet (h : op.term? d = none) (hx : c.stamp? d op = none) :
    (c.apply op).1.entries.get? d = c.entries.get? d := by
  cases op with
  | setTerm d' t =>
    have hd : d ≠ d' := by
      rintro rfl
      simp [Op.term?] at h
    exact c.get?_setTerm_of_ne hd t
  | next d' =>
    by_cases hd : d = d'
    · subst hd
      rw [stamp?, if_pos rfl] at hx
      exact congrArg (fun c => c.entries.get? d) (c.next_of_none d hx)
    · exact c.get?_next_of_ne hd

/-- An entry of a device that was told these terms and given these stamps. -/
structure Entry.Recalls (e : Entry) (ts : List Term) (xs : List Timestamp) : Prop where
  newest : e.term.Newest ts
  /-- The entry stands at the last stamp of its epoch, or past all stamps. -/
  reached : ∀ x ∈ xs, x.epoch < e.term.epoch ∨ x.epoch = e.term.epoch ∧ x.sequence ≤ e.sequence
  count : e.sequence = xs.countP (·.epoch = e.term.epoch)

/-- A clock that was told these terms of a device and issued these stamps for it. -/
structure Recalls (c : Clock) (d : DeviceId) (ts : List Term) (xs : List Timestamp) : Prop where
  ascending : Timestamp.Ascending xs
  fresh : c.entries.get? d = none → ts = [] ∧ xs = []
  entry : ∀ e, c.entries.get? d = some e → e.Recalls ts xs

namespace Entry

variable {e : Entry} {ts : List Term} {xs : List Timestamp} {t : Term}

theorem recalls_first (t : Term) : (⟨t, 0⟩ : Entry).Recalls [t] [] := by
  have hnewest : t.Newest ([] ++ [t]) := Term.newest_append_self (by simp)
  exact ⟨hnewest, by simp, rfl⟩

theorem Recalls.hear (h : e.Recalls ts xs) (t : Term) : (e.hear t).Recalls (ts ++ [t]) xs := by
  unfold Entry.hear
  split
  · next hlt => exact ⟨h.newest.append hlt, h.reached, h.count⟩
  · next hle =>
    have hnewest : t.Newest (ts ++ [t]) := by
      refine Term.newest_append_self fun u hu => ?_
      have := h.newest.epoch_le hu
      omega
    split
    · next hlt =>
      -- No stamp of a newer epoch has been issued yet.
      have hreached : ∀ x ∈ xs, x.epoch < t.epoch := by
        intro x hx
        have := h.reached x hx
        omega
      refine ⟨hnewest, fun x hx => .inl (hreached x hx), ?_⟩
      refine (List.countP_eq_zero.mpr fun x hx => ?_).symm
      have := hreached x hx
      simp only [decide_eq_true_eq]
      omega
    · have hsame : e.term.epoch = t.epoch := by omega
      exact ⟨hnewest, hsame ▸ h.reached, hsame ▸ h.count⟩

/-- The next stamp is greater than all before it, and its number counts those of its epoch. -/
theorem Recalls.issue (h : e.Recalls ts xs) (ha : Timestamp.Ascending xs) :
    Timestamp.Ascending (xs ++ [⟨e.term.epoch, e.sequence + 1⟩]) ∧
      (⟨e.term, e.sequence + 1⟩ : Entry).Recalls ts (xs ++ [⟨e.term.epoch, e.sequence + 1⟩]) := by
  refine ⟨ha.append (fun y hy => ?_) (congrArg (· + 1) h.count), h.newest, fun y hy => ?_, ?_⟩
  · have := h.reached y hy
    simp only [Timestamp.lt_def]
    omega
  · rcases List.mem_append.mp hy with hy | hy
    · have := h.reached y hy
      simp only
      omega
    · rw [List.mem_singleton.mp hy]
      exact .inr ⟨rfl, Nat.le_refl _⟩
  · simp [List.countP_append, h.count]

end Entry

namespace Recalls

variable {ts : List Term} {xs : List Timestamp}

theorem quiet (h : c.Recalls d ts xs) (ht : op.term? d = none) (hx : c.stamp? d op = none) :
    (c.apply op).1.Recalls d ts xs := by
  have hsame := get?_apply_of_quiet ht hx
  exact ⟨h.ascending, hsame ▸ h.fresh, hsame ▸ h.entry⟩

theorem setTerm (h : c.Recalls d ts xs) (t : Term) :
    (c.setTerm d t).1.Recalls d (ts ++ [t]) xs := by
  cases he : c.entries.get? d with
  | none =>
    obtain ⟨rfl, rfl⟩ := h.fresh he
    have hfirst := get?_setTerm_of_none he t
    exact ⟨h.ascending, by simp [hfirst], by simp [hfirst, Entry.recalls_first]⟩
  | some e =>
    have hheard := get?_setTerm_of_some he t
    exact ⟨h.ascending, by simp [hheard], by simp [hheard, (h.entry e he).hear t]⟩

theorem next (h : c.Recalls d ts xs) (hx : (c.next d).2 = some x) :
    (c.next d).1.Recalls d ts (xs ++ [x]) := by
  obtain ⟨e, he, rfl, hnext⟩ := get?_next_of_some hx
  obtain ⟨hascending, hentry⟩ := (h.entry e he).issue h.ascending
  exact ⟨hascending, by simp [hnext], by simp [hnext, hentry]⟩

/-- An operation adds to the history what it tells and what it issues. -/
theorem apply (h : c.Recalls d ts xs) (op : Op) :
    (c.apply op).1.Recalls d (ts ++ (op.term? d).toList) (xs ++ (c.stamp? d op).toList) := by
  cases ht : op.term? d with
  | some t =>
    cases op with
    | setTerm d' t' =>
      obtain ⟨rfl, rfl⟩ : d' = d ∧ t' = t := by simpa [Op.term?] using ht
      rw [stamp?, Option.toList_none, List.append_nil]
      exact h.setTerm t'
    | next d' => simp [Op.term?] at ht
  | none =>
    rw [Option.toList_none, List.append_nil]
    cases hx : c.stamp? d op with
    | none => simpa using h.quiet ht hx
    | some x =>
      cases op with
      | setTerm d' t => simp [stamp?] at hx
      | next d' =>
        obtain ⟨rfl, hissued⟩ : d' = d ∧ (c.next d').2 = some x := by simpa [stamp?] using hx
        exact h.next hissued

theorem run (h : c.Recalls d ts xs) (ops : List Op) :
    (c.after ops).Recalls d (ts ++ told d ops) (xs ++ c.issued d ops) := by
  induction ops generalizing c ts xs with
  | nil => simpa [after, told, issued] using h
  | cons op ops ih =>
    rw [told_cons, issued, ← List.append_assoc, ← List.append_assoc]
    exact ih (h.apply op)

theorem term?_eq_some (h : c.Recalls d ts xs) (t : Term) : c.term? d = some t ↔ t.Newest ts := by
  unfold term?
  cases he : c.entries.get? d with
  | none => simp [(h.fresh he).1, Term.Newest]
  | some e =>
    have hnewest := (h.entry e he).newest
    simp only [Option.map_some, Option.some.injEq]
    exact ⟨fun ht => ht ▸ hnewest, fun ht => hnewest.unique ht⟩

end Recalls

theorem recalls_fresh (n : NodeId) (d : DeviceId) : Recalls { node := n } d [] [] :=
  ⟨Timestamp.ascending_nil, fun _ => ⟨rfl, rfl⟩, by simp⟩

theorem recalls_history (n : NodeId) (d : DeviceId) (ops : List Op) :
    (after { node := n } ops).Recalls d (told d ops) (issued { node := n } d ops) :=
  (recalls_fresh n d).run ops

/-- A stamp's number counts the stamps of its epoch that were issued up to it. Numbers are unbounded
here: 64 bits hold those of fewer than 2⁶⁴ stamps of a term. -/
theorem sequence_counts (n : NodeId) (d : DeviceId) (ops : List Op) {before after : List Timestamp}
    {x : Timestamp} (h : issued { node := n } d ops = before ++ x :: after) :
    x.sequence = before.countP (·.epoch = x.epoch) + 1 :=
  (recalls_history n d ops).ascending.counting before x after h

/-- Whatever terms a clock is told, of whatever devices and in whatever order: the stamps that it issues
for a device ascend, so that none is issued twice; the clock goes by the last term told among those of
the highest epoch told; and the device can be stamped exactly if that term names the clock's own node. -/
theorem timestamps_ascend (n : NodeId) (ops : List Op) (d : DeviceId) :
    let c : Clock := { node := n }
    (c.issued d ops).Pairwise (· < ·) ∧ (c.issued d ops).Nodup ∧
    (∀ t, (c.after ops).term? d = some t ↔ Term.Newest t (told d ops)) ∧
    (((c.after ops).next d).2.isSome ↔ ∃ t, Term.Newest t (told d ops) ∧ t.owner = n) := by
  intro c
  have hrecalls := recalls_history n d ops
  have hascend : (c.issued d ops).Pairwise (· < ·) := hrecalls.ascending.increasing
  refine ⟨hascend, ?_, hrecalls.term?_eq_some, ?_⟩
  · exact hascend.imp Timestamp.ne_of_lt
  · rw [next_isSome_iff, node_after]
    exact exists_congr fun t => and_congr_left' (hrecalls.term?_eq_some t)

/-- A device that goes to another member and comes back within one epoch is stamped on from where the
count was, and an older term in between does not matter. -/
example : issued { node := ⟨"east"⟩ } ⟨"of:1"⟩
    [.setTerm ⟨"of:1"⟩ ⟨⟨"east"⟩, 2⟩, .next ⟨"of:1"⟩, .setTerm ⟨"of:1"⟩ ⟨⟨"west"⟩, 2⟩, .next ⟨"of:1"⟩,
      .setTerm ⟨"of:1"⟩ ⟨⟨"east"⟩, 1⟩, .setTerm ⟨"of:1"⟩ ⟨⟨"east"⟩, 2⟩, .next ⟨"of:1"⟩] =
    [⟨2, 1⟩, ⟨2, 2⟩] := by
  decide +kernel

end Clock
end Mastership
