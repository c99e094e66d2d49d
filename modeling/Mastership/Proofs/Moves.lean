import Mathlib.Data.List.Nodup
import Mastership.Election

namespace Mastership

/-- A step of a member in the election of a device. -/
inductive Seat.Move where
  | request (n : NodeId)
  | relinquish (n : NodeId)
  | promote (n : NodeId)
deriving DecidableEq, Repr

namespace Seat

/-- The member that moves. -/
def Move.node : Move → NodeId
  | .request n | .relinquish n | .promote n => n

def move (s : Seat) : Move → Seat × Option Announcement.Kind
  | .request n => s.request n
  | .relinquish n => s.relinquish n
  | .promote n => s.promote n

/-- Nobody queues twice, and nobody waits for a device that has no master. -/
structure Orderly (s : Seat) : Prop where
  nodup : s.queue.Nodup
  led : s.master = none → s.backups = []

/-- The seat `s'` is `s` or comes after it: it has a later epoch, or the same epoch and still the same
master if it has one. -/
def Precedes (s s' : Seat) : Prop :=
  s.epoch < s'.epoch ∨ s.epoch = s'.epoch ∧ (s'.master = s.master ∨ s'.master = none)

theorem Precedes.refl (s : Seat) : s.Precedes s := .inr ⟨rfl, .inl rfl⟩

theorem Precedes.trans {s s' s'' : Seat} (h : s.Precedes s') (h' : s'.Precedes s'') :
    s.Precedes s'' := by
  rcases h with h | ⟨he, hm⟩ <;> rcases h' with h' | ⟨he', hm'⟩
  · exact .inl (Nat.lt_trans h h')
  · exact .inl (he' ▸ h)
  · exact .inl (he ▸ h')
  · refine .inr ⟨he.trans he', ?_⟩
    rcases hm' with hm' | hm'
    · exact hm.imp hm'.trans hm'.trans
    · exact .inr hm'

theorem Precedes.epoch_le {s s' : Seat} (h : s.Precedes s') : s.epoch ≤ s'.epoch := by
  rcases h with h | ⟨h, _⟩ <;> omega

theorem mem_queue {s : Seat} {n : NodeId} : n ∈ s.queue ↔ s.master = some n ∨ n ∈ s.backups := by
  simp [queue]

theorem roleOf_eq_none_iff {s : Seat} {n : NodeId} : s.roleOf n = .none ↔ n ∉ s.queue := by
  rw [mem_queue, not_or]
  by_cases hm : s.master = some n
  · simp [roleOf, standing, Standing.roleOf, hm]
  · by_cases hb : n ∈ s.backups <;> simp [roleOf, standing, Standing.roleOf, hm, hb]

theorem request_of_unowned {s : Seat} (n : NodeId) (h : s.master = none) :
    s.request n = (s.assign n, some .master) := by
  simp [request, h]

theorem request_of_mem {s : Seat} {n m : NodeId} (h : s.master = some m) (hn : n ∈ s.queue) :
    s.request n = (s, none) := by
  have hr : s.roleOf n ≠ .none := fun hr => roleOf_eq_none_iff.mp hr hn
  simp only [request, h]

theorem request_of_not_mem {s : Seat} {n m : NodeId} (h : s.master = some m) (hn : n ∉ s.queue) :
    s.request n = ({ s with backups := s.backups ++ [n] }, some .backups) := by
  simp only [request, h, roleOf_eq_none_iff.mpr hn]

/-- After a request there is a master, and whoever asked queues. -/
theorem request_queued (s : Seat) (n : NodeId) :
    (s.request n).1.master ≠ none ∧ n ∈ (s.request n).1.queue := by
  cases h : s.master with
  | none => simp [request_of_unowned n h, assign, queue]
  | some m =>
    by_cases hn : n ∈ s.queue
    · rw [request_of_mem h hn]
      exact ⟨by simp [h], hn⟩
    · simp [request_of_not_mem h hn, h, mem_queue]

/-- A request leaves the term of a device that has a master as it is. -/
theorem term?_request {s : Seat} (n : NodeId) (h : s.master ≠ none) :
    (s.request n).1.term? = s.term? := by
  obtain ⟨m, hm⟩ := Option.ne_none_iff_exists'.mp h
  by_cases hn : n ∈ s.queue
  · rw [request_of_mem hm hn]
  · rw [request_of_not_mem hm hn]
    rfl

theorem relinquish_of_not_mem {s : Seat} {n : NodeId} (hn : n ∉ s.queue) :
    s.relinquish n = (s, none) := by
  rw [mem_queue, not_or] at hn
  simp [relinquish, hn]

theorem relinquish_not_mem {s : Seat} (ho : s.Orderly) (n : NodeId) :
    n ∉ (s.relinquish n).1.queue := by
  have hd := ho.nodup
  by_cases hm : s.master = some n
  · cases hb : s.backups with
    | nil => simp [relinquish, hm, hb, queue]
    | cons b bs =>
      simp only [queue, hm, hb, Option.toList_some, List.cons_append, List.nil_append,
        List.nodup_cons, List.mem_cons, not_or] at hd
      simp [relinquish, hm, hb, assign, queue, hd.1.1, hd.1.2]
  · by_cases hn : n ∈ s.backups <;> simp [relinquish, hm, hn, mem_queue]

/-- A move that announces nothing changes nothing. -/
theorem move_quiet {s : Seat} {m : Move} (h : (s.move m).2 = none) : (s.move m).1 = s := by
  cases m with
  | request n =>
    simp only [move, request] at h ⊢
    split at h
    · cases h
    · split at h
      · cases h
      · rfl
  | relinquish n =>
    simp only [move, relinquish] at h ⊢
    split at h
    · split at h <;> cases h
    · split at h
      · cases h
      · simp_all
  | promote n =>
    simp only [move, promote] at h ⊢
    split at h
    · simp_all
    · cases h

theorem move_precedes (s : Seat) (m : Move) : s.Precedes (s.move m).1 := by
  cases m with
  | request n =>
    simp only [move, request]
    split
    · exact .inl (Nat.lt_succ_self _)
    · split <;> exact .inr ⟨rfl, .inl rfl⟩
  | relinquish n =>
    simp only [move, relinquish]
    split
    · split
      · exact .inr ⟨rfl, .inr rfl⟩
      · exact .inl (Nat.lt_succ_self _)
    · split <;> exact .inr ⟨rfl, .inl rfl⟩
  | promote n =>
    simp only [move, promote]
    split
    · exact .refl s
    · exact .inl (Nat.lt_succ_self _)

/-- A move that is not announced as one of the master leaves the master and the epoch. -/
theorem move_keeps_master {s : Seat} {m : Move} (h : (s.move m).2 ≠ some .master) :
    (s.move m).1.master = s.master ∧ (s.move m).1.epoch = s.epoch := by
  cases m with
  | request n =>
    simp only [move, request] at h ⊢
    split at h
    · exact absurd rfl h
    · split <;> exact ⟨rfl, rfl⟩
  | relinquish n =>
    simp only [move, relinquish] at h ⊢
    split at h
    · split at h <;> exact absurd rfl h
    · next hm =>
      rw [if_neg hm]
      split <;> exact ⟨rfl, rfl⟩
  | promote n =>
    simp only [move, promote] at h ⊢
    split at h
    · simp_all
    · exact absurd rfl h

/-- A move that leaves a device without a master leaves nobody waiting for it. -/
theorem move_leads {s : Seat} {m : Move} (h : (s.move m).2 = some .master)
    (hn : (s.move m).1.master = none) : (s.move m).1.backups = [] := by
  cases m with
  | request n =>
    simp only [move, request] at h hn ⊢
    split at hn
    · cases hn
    · split <;> simp_all
  | relinquish n =>
    simp only [move, relinquish] at h hn ⊢
    split at hn
    · split at hn
      · simp_all
      · cases hn
    · split at hn <;> simp_all
  | promote n =>
    simp only [move, promote] at h hn ⊢
    split at hn
    · simp_all
    · cases hn

theorem assign_nodup {s : Seat} (n : NodeId) (h : s.backups.Nodup) : (s.assign n).queue.Nodup := by
  simp only [assign, queue, Option.toList_some, List.cons_append, List.nil_append, List.nodup_cons]
  exact ⟨by simp, h.filter _⟩

theorem Orderly.backups_nodup {s : Seat} (h : s.Orderly) : s.backups.Nodup :=
  (List.nodup_append.mp h.nodup).2.1

theorem move_nodup {s : Seat} (h : s.Orderly) (m : Move) : (s.move m).1.queue.Nodup := by
  have hb := h.backups_nodup
  cases m with
  | request n =>
    cases hm : s.master with
    | none =>
      simpa only [move, request_of_unowned n hm] using assign_nodup n hb
    | some x =>
      by_cases hn : n ∈ s.queue
      · simpa only [move, request_of_mem hm hn] using h.nodup
      · have hd := List.nodup_append.mpr
          ⟨h.nodup, List.nodup_singleton n, fun a ha b hb => by
            rw [List.mem_singleton.mp hb]
            exact fun hab => hn (hab ▸ ha)⟩
        simpa only [move, request_of_not_mem hm hn, queue, List.append_assoc] using hd
  | relinquish n =>
    simp only [move, relinquish]
    split
    · split
      · simp [queue, *]
      · next b bs hs =>
        apply assign_nodup b
        rw [hs] at hb
        exact (List.nodup_cons.mp hb).2
    · split
      · exact h.nodup.sublist (List.Sublist.append_left List.filter_sublist _)
      · exact h.nodup
  | promote n =>
    simp only [move, promote]
    split
    · exact h.nodup
    · exact assign_nodup n h.nodup

/-- Only who moves can come to queue. -/
theorem mem_queue_move {s : Seat} {m : Move} {n : NodeId} (h : n ∈ (s.move m).1.queue) :
    n ∈ s.queue ∨ n = m.node := by
  cases m with
  | request m =>
    simp only [move, request] at h
    split at h
    · simp only [assign, mem_queue, Option.some.injEq, List.mem_filter] at h ⊢
      rcases h with rfl | h
      · exact .inr rfl
      · exact .inl (.inr h.1)
    · split at h
      · simp only [mem_queue, List.mem_append, List.mem_singleton] at h ⊢
        rcases h with h | h | h
        · exact .inl (.inl h)
        · exact .inl (.inr h)
        · exact .inr h
      · exact .inl h
  | relinquish m =>
    simp only [move, relinquish] at h
    split at h
    · split at h
      · next hb => simp [mem_queue, hb] at h
      · next b bs hb =>
        simp only [assign, mem_queue, Option.some.injEq, List.mem_filter, hb, List.mem_cons] at h ⊢
        rcases h with rfl | h
        · exact .inl (.inr (.inl rfl))
        · exact .inl (.inr (.inr h.1))
    · split at h
      · simp only [mem_queue, List.mem_filter] at h ⊢
        exact .inl (h.imp id And.left)
      · exact .inl h
  | promote m =>
    simp only [move, promote] at h
    split at h
    · exact .inl h
    · simp only [assign, mem_queue, Option.some.injEq, List.mem_filter, List.mem_append,
        Option.mem_toList] at h ⊢
      rcases h with rfl | ⟨h | h, _⟩
      · exact .inr rfl
      · exact .inl (.inl h)
      · exact .inl (.inr h)

/-- Whoever queues goes on to queue until moving itself. -/
theorem mem_queue_move_of_ne {s : Seat} {m : Move} {n : NodeId} (hn : n ≠ m.node)
    (h : n ∈ s.queue) : n ∈ (s.move m).1.queue := by
  cases m with
  | request m =>
    have hnm : n ≠ m := hn
    simp only [move, request]
    split
    · next hm =>
      simp only [mem_queue, hm, assign, List.mem_filter] at h ⊢
      rcases h with h | h
      · cases h
      · exact .inr ⟨h, by simpa using hnm⟩
    · split
      · simp only [mem_queue, List.mem_append] at h ⊢
        exact h.imp id .inl
      · exact h
  | relinquish m =>
    have hnm : n ≠ m := hn
    simp only [move, relinquish]
    split
    · next hm =>
      have hb : n ∈ s.backups := by
        rcases mem_queue.mp h with h | h
        · exact absurd (Option.some.inj (h.symm.trans hm)) hnm
        · exact h
      split
      · next he =>
        rw [he] at hb
        cases hb
      · next b bs he =>
        rw [he] at hb
        simp only [assign, mem_queue, Option.some.injEq, List.mem_filter]
        by_cases hbn : b = n
        · exact .inl hbn
        · refine .inr ⟨?_, by simpa using Ne.symm hbn⟩
          rcases List.mem_cons.mp hb with hb | hb
          · exact absurd hb.symm hbn
          · exact hb
    · split
      · simp only [mem_queue, List.mem_filter] at h ⊢
        exact h.imp id fun h => ⟨h, by simpa using hnm⟩
      · exact h
  | promote m =>
    have hnm : n ≠ m := hn
    simp only [move, promote]
    split
    · exact h
    · simp only [assign, mem_queue, Option.some.injEq, List.mem_filter, List.mem_append,
        Option.mem_toList] at h ⊢
      exact .inr ⟨h, by simpa using hnm⟩

/-- Somebody queues for a device only if it has a master. -/
theorem Orderly.master_ne_none {s : Seat} (h : s.Orderly) {n : NodeId} (hn : n ∈ s.queue) :
    s.master ≠ none := by
  intro hm
  rw [queue, hm, h.led hm] at hn
  cases hn

theorem move_orderly {s : Seat} (h : s.Orderly) (m : Move) : (s.move m).1.Orderly := by
  refine ⟨move_nodup h m, ?_⟩
  intro hn
  by_cases hk : (s.move m).2 = some .master
  · exact move_leads hk hn
  · have hm := (move_keeps_master hk).1
    rw [hm] at hn
    -- Only a request adds a member that waits, and it does so only behind a master.
    cases m with
    | request n => simp [move, request, hn] at hk
    | relinquish n => simp [move, relinquish, hn, h.led hn]
    | promote n => simp [move, promote, hn] at hk

end Seat

namespace Election

/-- One move in the election of a device. -/
def move (e : Election) (d : DeviceId) (m : Seat.Move) : Election × List Announcement :=
  e.settle d ((e.seat d).move m)

/-- A series of moves in the election of a device, with all that they announce. -/
def moves (e : Election) (d : DeviceId) : List Seat.Move → Election × List Announcement
  | [] => (e, [])
  | m :: ms =>
    let (e₁, as₁) := e.move d m
    let (e₂, as₂) := e₁.moves d ms
    (e₂, as₁ ++ as₂)

@[simp] theorem moves_nil (e : Election) (d : DeviceId) : e.moves d [] = (e, []) := rfl

theorem moves_cons (e : Election) (d : DeviceId) (m : Seat.Move) (ms : List Seat.Move) :
    e.moves d (m :: ms) =
      (((e.move d m).1.moves d ms).1, (e.move d m).2 ++ ((e.move d m).1.moves d ms).2) := rfl

theorem moves_singleton (e : Election) (d : DeviceId) (m : Seat.Move) :
    e.moves d [m] = e.move d m := by
  simp [moves_cons]

theorem moves_append (e : Election) (d : DeviceId) (ms ms' : List Seat.Move) :
    e.moves d (ms ++ ms') =
      (((e.moves d ms).1.moves d ms').1, (e.moves d ms).2 ++ ((e.moves d ms).1.moves d ms').2) := by
  induction ms generalizing e with
  | nil => simp
  | cons m ms ih => simp [moves_cons, ih, List.append_assoc]

theorem seat_settle (e : Election) (d d' : DeviceId) (r : Seat × Option Announcement.Kind)
    (h : r.2 = none → r.1 = e.seat d) :
    (e.settle d r).1.seat d' = if d = d' then r.1 else e.seat d' := by
  obtain ⟨s, kind⟩ := r
  cases kind with
  | none =>
    obtain rfl : s = e.seat d := h rfl
    by_cases hd : d = d' <;> simp [settle, hd]
  | some kind => by_cases hd : d = d' <;> simp [settle, seat, Table.get?_insert, hd]

/-- A move about a device concerns this device alone. -/
theorem seat_move (e : Election) (d d' : DeviceId) (m : Seat.Move) :
    (e.move d m).1.seat d' = if d = d' then ((e.seat d).move m).1 else e.seat d' :=
  seat_settle e d d' _ Seat.move_quiet

theorem seat_move_self (e : Election) (d : DeviceId) (m : Seat.Move) :
    (e.move d m).1.seat d = ((e.seat d).move m).1 := by
  simp [seat_move]

theorem seat_moves_ne (e : Election) {d d' : DeviceId} (h : d' ≠ d) (ms : List Seat.Move) :
    (e.moves d ms).1.seat d' = e.seat d' := by
  induction ms generalizing e with
  | nil => rfl
  | cons m ms ih => rw [moves_cons, ih, seat_move, if_neg h.symm]

/-- Whatever holds of a device's seat and is kept by each move is kept by a series of them. -/
theorem seat_moves_keeps {P : Seat → Prop} (hP : ∀ s m, P s → P (s.move m).1) (e : Election)
    (d : DeviceId) (ms : List Seat.Move) (h : P (e.seat d)) : P ((e.moves d ms).1.seat d) := by
  induction ms generalizing e with
  | nil => exact h
  | cons m ms ih =>
    rw [moves_cons]
    exact ih _ (seat_move_self e d m ▸ hP _ m h)

theorem moves_precedes (e : Election) (d d' : DeviceId) (ms : List Seat.Move) :
    (e.seat d').Precedes ((e.moves d ms).1.seat d') := by
  by_cases h : d' = d
  · subst h
    exact seat_moves_keeps (P := (e.seat d').Precedes)
      (fun s m hs => hs.trans (s.move_precedes m)) e d' ms (.refl _)
  · rw [seat_moves_ne e h]
    exact .refl _

theorem moves_orderly {e : Election} (h : ∀ d, (e.seat d).Orderly) (d : DeviceId)
    (ms : List Seat.Move) (d' : DeviceId) : ((e.moves d ms).1.seat d').Orderly := by
  by_cases hd : d' = d
  · subst hd
    exact seat_moves_keeps (P := Seat.Orderly) (fun s m hs => Seat.move_orderly hs m) e d' ms (h d')
  · rw [seat_moves_ne e hd]
    exact h d'

theorem mem_queue_moves {e : Election} {d d' : DeviceId} {ms : List Seat.Move} {n : NodeId}
    (h : n ∈ ((e.moves d ms).1.seat d').queue) :
    n ∈ (e.seat d').queue ∨ ∃ m ∈ ms, n = m.node := by
  by_cases hd : d' = d
  · subst hd
    induction ms generalizing e with
    | nil => exact .inl h
    | cons m ms ih =>
      rw [moves_cons] at h
      rcases ih h with h | ⟨m', hm', rfl⟩
      · rw [seat_move_self] at h
        exact (Seat.mem_queue_move h).imp id fun hn => ⟨m, List.mem_cons_self, hn⟩
      · exact .inr ⟨m', List.mem_cons_of_mem m hm', rfl⟩
  · rw [seat_moves_ne e hd] at h
    exact .inl h

/-- Moves of one member leave the others in the queue or out of it. -/
theorem mem_queue_moves_of_ne {e : Election} {d : DeviceId} {ms : List Seat.Move} {n n' : NodeId}
    (hms : ∀ m ∈ ms, m.node = n) (hn : n' ≠ n) (d' : DeviceId) :
    n' ∈ ((e.moves d ms).1.seat d').queue ↔ n' ∈ (e.seat d').queue := by
  constructor
  · intro h
    rcases mem_queue_moves h with h | ⟨m, hm, rfl⟩
    · exact h
    · exact absurd (hms m hm) hn
  · intro h
    by_cases hd : d' = d
    · subst hd
      induction ms generalizing e with
      | nil => exact h
      | cons m ms ih =>
        rw [moves_cons]
        refine ih (fun m' hm' => hms m' (List.mem_cons_of_mem m hm')) ?_
        rw [seat_move_self]
        exact Seat.mem_queue_move_of_ne (hms m List.mem_cons_self ▸ hn) h
    · rw [seat_moves_ne e hd]
      exact h

/-- A move that would announce nothing does nothing. -/
theorem move_of_quiet {e : Election} {d : DeviceId} {m : Seat.Move}
    (h : ((e.seat d).move m).2 = none) : e.move d m = (e, []) := by
  rw [move]
  generalize (e.seat d).move m = r at h
  obtain ⟨s, kind⟩ := r
  obtain rfl : kind = none := h
  rfl

theorem move_announces {e : Election} {d : DeviceId} {m : Seat.Move} {kind : Announcement.Kind}
    (h : ((e.seat d).move m).2 = some kind) :
    (e.move d m).2 = [⟨kind, d, ((e.seat d).move m).1.standing⟩] := by
  rw [move]
  generalize (e.seat d).move m = r at h ⊢
  obtain ⟨s, k⟩ := r
  obtain rfl : k = some kind := h
  rfl

/-- What a move announces, if it announces anything, is about its device and gives the standing
that the move leaves. -/
theorem mem_move_iff {e : Election} {d : DeviceId} {m : Seat.Move} {a : Announcement} :
    a ∈ (e.move d m).2 ↔
      ∃ kind, ((e.seat d).move m).2 = some kind ∧ a = ⟨kind, d, ((e.seat d).move m).1.standing⟩ := by
  rw [move]
  obtain ⟨s, kind⟩ := (e.seat d).move m
  cases kind <;> simp [settle]

theorem moves_about {e : Election} {d : DeviceId} {ms : List Seat.Move} {a : Announcement}
    (h : a ∈ (e.moves d ms).2) : a.device = d := by
  induction ms generalizing e with
  | nil => simp at h
  | cons m ms ih =>
    rw [moves_cons, List.mem_append] at h
    rcases h with h | h
    · obtain ⟨kind, _, rfl⟩ := mem_move_iff.mp h
      rfl
    · exact ih h

theorem move_length (e : Election) (d : DeviceId) (m : Seat.Move) : (e.move d m).2.length ≤ 1 := by
  rw [move]
  obtain ⟨s, kind⟩ := (e.seat d).move m
  cases kind <;> simp [settle]

theorem moves_length (e : Election) (d : DeviceId) (ms : List Seat.Move) :
    (e.moves d ms).2.length ≤ ms.length := by
  induction ms generalizing e with
  | nil => simp
  | cons m ms ih =>
    have h₁ := move_length e d m
    have h₂ := ih (e.move d m).1
    rw [moves_cons, List.length_append, List.length_cons]
    omega

/-- Whom an announcement gives a place in the queue either had it before or moved. -/
theorem mem_moves_standing {e : Election} {d : DeviceId} {ms : List Seat.Move} {a : Announcement}
    (h : a ∈ (e.moves d ms).2) {n : NodeId} (hn : a.standing.roleOf n ≠ .none) :
    n ∈ (e.seat d).queue ∨ ∃ m ∈ ms, n = m.node := by
  induction ms generalizing e with
  | nil => simp at h
  | cons m ms ih =>
    rw [moves_cons, List.mem_append] at h
    rcases h with h | h
    · obtain ⟨kind, _, rfl⟩ := mem_move_iff.mp h
      have hq : n ∈ ((e.seat d).move m).1.queue := by
        by_contra hq
        exact hn (Seat.roleOf_eq_none_iff.mpr hq)
      exact (Seat.mem_queue_move hq).imp id fun hm => ⟨m, List.mem_cons_self, hm⟩
    · rcases ih h with hq | ⟨m', hm', rfl⟩
      · rw [seat_move_self] at hq
        exact (Seat.mem_queue_move hq).imp id fun hm => ⟨m, List.mem_cons_self, hm⟩
      · exact .inr ⟨m', List.mem_cons_of_mem m hm', rfl⟩

/-- Announced as of the master, a standing without a master has nobody waiting. -/
theorem moves_led {e : Election} {d : DeviceId} {ms : List Seat.Move} {a : Announcement}
    (h : a ∈ (e.moves d ms).2) (hk : a.kind = .master) (hm : a.standing.master = none) :
    a.standing.backups = [] := by
  induction ms generalizing e with
  | nil => simp at h
  | cons m ms ih =>
    rw [moves_cons, List.mem_append] at h
    rcases h with h | h
    · obtain ⟨kind, hkind, rfl⟩ := mem_move_iff.mp h
      dsimp only at hk
      subst hk
      exact Seat.move_leads hkind hm
    · exact ih h

end Election

/-- The master of a device as told by what was announced so far: `before` if nothing was said of
it yet. -/
def Announcement.told (d : DeviceId) (before : Option NodeId) (as : List Announcement) :
    Option NodeId :=
  as.foldl (fun m a => if a.kind = .master ∧ a.device = d then a.standing.master else m) before

namespace Announcement

theorem told_append (d : DeviceId) (before : Option NodeId) (as bs : List Announcement) :
    told d before (as ++ bs) = told d (told d before as) bs := by
  simp [told]

/-- None of the announcements is of the master of a device. -/
def Silent (d : DeviceId) (as : List Announcement) : Prop :=
  ∀ a ∈ as, a.kind = .master → a.device ≠ d

theorem silent_append {d : DeviceId} {as bs : List Announcement} :
    Silent d (as ++ bs) ↔ Silent d as ∧ Silent d bs := by
  simp only [Silent, List.mem_append]
  exact ⟨fun h => ⟨fun a ha => h a (.inl ha), fun a ha => h a (.inr ha)⟩,
    fun h a ha => ha.elim (h.1 a) (h.2 a)⟩

/-- Announcements that are not of a device's master say nothing of it. -/
theorem told_of_silent {d : DeviceId} {before : Option NodeId} {as : List Announcement}
    (h : Silent d as) : told d before as = before := by
  induction as generalizing before with
  | nil => rfl
  | cons a as ih =>
    have hn : ¬ (a.kind = .master ∧ a.device = d) := fun ha => h a List.mem_cons_self ha.1 ha.2
    rw [told, List.foldl_cons, if_neg hn]
    exact ih fun b hb => h b (List.mem_cons_of_mem _ hb)

/-- Announcements of which one is of a device's master tell it, whatever was said before. -/
theorem told_of_not_silent {d : DeviceId} {as : List Announcement} (h : ¬ Silent d as)
    (before before' : Option NodeId) : told d before as = told d before' as := by
  induction as generalizing before before' with
  | nil => exact absurd nofun h
  | cons a as ih =>
    simp only [told, List.foldl_cons]
    by_cases ha : a.kind = .master ∧ a.device = d
    · rw [if_pos ha, if_pos ha]
    · rw [if_neg ha, if_neg ha]
      refine ih (fun hs => h ?_) before before'
      intro b hb hk
      rcases List.mem_cons.mp hb with rfl | hb
      · exact fun hd => ha ⟨hk, hd⟩
      · exact hs b hb hk

end Announcement

namespace Election

theorem told_move (e : Election) (d d' : DeviceId) (m : Seat.Move) :
    Announcement.told d' (e.seat d').master (e.move d m).2 = ((e.move d m).1.seat d').master := by
  rw [seat_move]
  by_cases hd : d = d'
  · subst hd
    rw [if_pos rfl]
    cases hk : ((e.seat d).move m).2 with
    | none =>
      rw [move_of_quiet hk, Seat.move_quiet hk]
      rfl
    | some kind =>
      rw [move_announces hk]
      cases kind with
      | master => simp [Announcement.told, Seat.standing]
      | backups =>
        have := (Seat.move_keeps_master (s := e.seat d) (m := m) (by simp [hk])).1
        simp [Announcement.told, this]
  · rw [if_neg hd]
    apply Announcement.told_of_silent
    intro a ha _
    obtain ⟨kind, _, rfl⟩ := mem_move_iff.mp ha
    exact hd

/-- What a series of moves announces tells who is master after it. -/
theorem told_moves (e : Election) (d d' : DeviceId) (ms : List Seat.Move) :
    Announcement.told d' (e.seat d').master (e.moves d ms).2 =
      ((e.moves d ms).1.seat d').master := by
  induction ms generalizing e with
  | nil => rfl
  | cons m ms ih => rw [moves_cons, Announcement.told_append, told_move, ih]

/-- If no change of master is announced, there is none. -/
theorem master_moves_of_silent {e : Election} {d d' : DeviceId} {ms : List Seat.Move}
    (h : Announcement.Silent d' (e.moves d ms).2) :
    (e.moves d ms).1.master? d' = e.master? d' := by
  rw [master?, ← told_moves, Announcement.told_of_silent h]
  rfl

theorem request_eq_moves (e : Election) (n : NodeId) (d : DeviceId) :
    e.request n d = e.moves d [.request n] :=
  (moves_singleton e d (.request n)).symm

theorem relinquish_eq_moves (e : Election) (n : NodeId) (d : DeviceId) :
    e.relinquish n d = e.moves d [.relinquish n] :=
  (moves_singleton e d (.relinquish n)).symm

/-- The moves that giving a role by hand amounts to. -/
def byHand (e : Election) (n : NodeId) (d : DeviceId) : Role → List Seat.Move
  | .none => [.relinquish n]
  | .master => [.promote n]
  | .standby => if e.master? d = some n then [.relinquish n, .request n] else [.request n]

theorem byHand_node {e : Election} {n : NodeId} {d : DeviceId} {r : Role} {m : Seat.Move}
    (h : m ∈ e.byHand n d r) : m.node = n := by
  cases r with
  | none => simp_all [byHand, Seat.Move.node]
  | master => simp_all [byHand, Seat.Move.node]
  | standby =>
    simp only [byHand] at h
    split at h
    · simp only [List.mem_cons, List.not_mem_nil, or_false] at h
      rcases h with rfl | rfl <;> rfl
    · simp only [List.mem_singleton] at h
      rw [h]
      rfl

theorem setRole_eq_moves (e : Election) (n : NodeId) (d : DeviceId) (r : Role) :
    e.setRole n d r = e.moves d (e.byHand n d r) := by
  cases r with
  | none => exact relinquish_eq_moves e n d
  | master => exact (moves_singleton e d (.promote n)).symm
  | standby =>
    simp only [setRole, stepDown, byHand]
    split
    · simp only [moves_cons, moves_nil, List.append_nil]
      rfl
    · exact request_eq_moves e n d

end Election
end Mastership
