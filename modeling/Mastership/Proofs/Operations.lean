import Mastership.Proofs.Moves

namespace Mastership
namespace Seat

/-- The role of a member that stands in a queue, or does not. -/
def place (q : List NodeId) (n : NodeId) : Role :=
  if q.head? = some n then .master
  else if n ∈ q then .standby
  else .none

/-- Appends a member that does not stand in the queue yet. -/
def enqueue (q : List NodeId) (n : NodeId) : List NodeId := if n ∈ q then q else q ++ [n]

variable {s : Seat}

theorem Orderly.queue_unowned (h : s.Orderly) (hm : s.master = none) : s.queue = [] := by
  simp [queue, hm, h.led hm]

theorem queue_owned {m : NodeId} (hm : s.master = some m) : s.queue = m :: s.backups := by
  simp [queue, hm]

theorem Orderly.standing_eq (h : s.Orderly) : s.standing = ⟨s.queue.head?, s.queue.tail⟩ := by
  cases hm : s.master with
  | none => simp [standing, h.queue_unowned hm, hm, h.led hm]
  | some m => simp [standing, queue_owned hm, hm]

theorem Orderly.roleOf_eq (h : s.Orderly) (n : NodeId) : s.roleOf n = place s.queue n := by
  have hhead : s.master = s.queue.head? := congrArg Standing.master h.standing_eq
  simp only [roleOf, Standing.roleOf, place, standing, ← hhead, mem_queue]
  by_cases hm : s.master = some n
  · simp [hm]
  · by_cases hb : n ∈ s.backups <;> simp [hm, hb]

theorem erase_eq_filter {q : List NodeId} (h : q.Nodup) (n : NodeId) :
    q.erase n = q.filter (· ≠ n) := by
  rw [h.erase_eq_filter]
  exact List.filter_congr fun x _ => by by_cases hx : x = n <;> simp [hx]

theorem Orderly.queue_request (h : s.Orderly) (n : NodeId) :
    (s.request n).1.queue = enqueue s.queue n := by
  cases hm : s.master with
  | none => simp [request_of_unowned n hm, enqueue, assign, queue, hm, h.led hm]
  | some m =>
    by_cases hn : n ∈ s.queue
    · simp [request_of_mem hm hn, enqueue, hn]
    · rw [request_of_not_mem hm hn, enqueue, if_neg hn]
      simp [queue]

theorem Orderly.queue_relinquish (h : s.Orderly) (n : NodeId) :
    (s.relinquish n).1.queue = s.queue.erase n := by
  by_cases hm : s.master = some n
  · rw [queue_owned hm, List.erase_cons_head]
    cases hb : s.backups with
    | nil => simp [relinquish, hm, hb, queue]
    | cons b bs =>
      have hd := h.backups_nodup
      rw [hb, List.nodup_cons] at hd
      have hf : bs.filter (· ≠ b) = bs :=
        List.filter_eq_self.mpr fun x hx => by simpa using fun hxb : x = b => hd.1 (hxb ▸ hx)
      simp only [relinquish, hm, hb, assign, queue, hf, if_true, Option.toList_some,
        List.singleton_append]
  · have hl : n ∉ s.master.toList := by simpa using hm
    by_cases hn : n ∈ s.backups
    · simp [relinquish, hm, hn, queue, List.erase_append_right _ hl,
        erase_eq_filter h.backups_nodup]
    · simp [relinquish, hm, hn, queue, List.erase_append_right _ hl, List.erase_of_not_mem hn]

theorem Orderly.queue_promote (h : s.Orderly) (n : NodeId) :
    (s.promote n).1.queue = n :: s.queue.erase n := by
  by_cases hm : s.master = some n
  · simp [promote, hm, queue_owned hm]
  · rw [erase_eq_filter h.nodup]
    simp [promote, hm, assign, queue]

/-- Whoever asks is told the place in the queue that this leads to. -/
theorem Orderly.granted_eq (h : s.Orderly) (n : NodeId) :
    s.granted n = if (enqueue s.queue n).head? = some n then .master else .standby := by
  cases hm : s.master with
  | none => simp [granted, hm, h.queue_unowned hm, enqueue]
  | some m =>
    have hhead : (enqueue s.queue n).head? = some m := by
      simp only [enqueue, queue_owned hm]
      split <;> rfl
    rw [hhead]
    simp only [granted, hm, h.roleOf_eq, place, queue_owned hm, List.head?_cons]
    by_cases hn : n = m
    · simp [hn]
    · by_cases hb : n ∈ s.backups <;> simp [hn, Ne.symm hn, hb]

end Seat

namespace Election

/-- What a member, or somebody on its behalf, may ask of the election. -/
inductive Op where
  | request (n : NodeId) (d : DeviceId)
  | relinquish (n : NodeId) (d : DeviceId)
  | setRole (n : NodeId) (d : DeviceId) (role : Role)
deriving DecidableEq, Repr

def Op.device : Op → DeviceId
  | .request _ d | .relinquish _ d | .setRole _ d _ => d

/-- What an operation makes of the queue of its device. A head that is made STANDBY goes to the end,
anybody else is made STANDBY by asking. -/
def Op.arrange (q : List NodeId) : Op → List NodeId
  | .request n _ => Seat.enqueue q n
  | .relinquish n _ => q.erase n
  | .setRole n _ .none => q.erase n
  | .setRole n _ .master => n :: q.erase n
  | .setRole n _ .standby => if q.head? = some n then q.tail ++ [n] else Seat.enqueue q n

def apply (e : Election) : Op → Election × List Announcement
  | .request n d => e.request n d
  | .relinquish n d => e.relinquish n d
  | .setRole n d role => e.setRole n d role

/-- The election once operations were carried out, one after the other. -/
def after (e : Election) (ops : List Op) : Election := ops.foldl (fun e op => (e.apply op).1) e

def queue (e : Election) (d : DeviceId) : List NodeId := (e.seat d).queue

/-- The moves that an operation amounts to. -/
def steps (e : Election) : Op → List Seat.Move
  | .request n _ => [.request n]
  | .relinquish n _ => [.relinquish n]
  | .setRole n d role => e.byHand n d role

theorem apply_eq_moves (e : Election) (op : Op) : e.apply op = e.moves op.device (e.steps op) := by
  cases op with
  | request n d => exact request_eq_moves e n d
  | relinquish n d => exact relinquish_eq_moves e n d
  | setRole n d role => exact setRole_eq_moves e n d role

variable {e : Election}

theorem apply_orderly (h : ∀ d, (e.seat d).Orderly) (op : Op) (d : DeviceId) :
    ((e.apply op).1.seat d).Orderly := by
  rw [apply_eq_moves]
  exact moves_orderly h _ _ d

theorem empty_orderly (d : DeviceId) : (({} : Election).seat d).Orderly :=
  ⟨List.nodup_nil, fun _ => rfl⟩

theorem after_orderly (h : ∀ d, (e.seat d).Orderly) (ops : List Op) (d : DeviceId) :
    ((e.after ops).seat d).Orderly := by
  induction ops generalizing e with
  | nil => exact h d
  | cons op ops ih => exact ih (apply_orderly h op)

theorem queue_apply_self (h : ∀ d, (e.seat d).Orderly) (op : Op) :
    (e.apply op).1.queue op.device = op.arrange (e.queue op.device) := by
  have hone : ∀ d m, (e.moves d [m]).1.queue d = ((e.seat d).move m).1.queue := fun d m => by
    rw [queue, moves_singleton, seat_move_self]
  rw [apply_eq_moves]
  cases op with
  | request n d => exact (hone d _).trans ((h d).queue_request n)
  | relinquish n d => exact (hone d _).trans ((h d).queue_relinquish n)
  | setRole n d role =>
    cases role with
    | none => exact (hone d _).trans ((h d).queue_relinquish n)
    | master => exact (hone d _).trans ((h d).queue_promote n)
    | standby =>
      have hhead : e.master? d = (e.queue d).head? := congrArg Standing.master (h d).standing_eq
      simp only [steps, byHand, Op.arrange, Op.device, ← hhead]
      split
      · next hm =>
        -- Giving the device up has taken the head off, so that asking appends it.
        have hq : e.queue d = n :: (e.seat d).backups := Seat.queue_owned hm
        have hn : n ∉ (e.seat d).backups := by
          have hd := (h d).nodup
          rw [Seat.queue_owned hm, List.nodup_cons] at hd
          exact hd.1
        have hr : (e.move d (.relinquish n)).1.queue d = (e.seat d).backups := by
          rw [queue, seat_move_self]
          exact ((h d).queue_relinquish n).trans (by rw [Seat.queue_owned hm]; simp)
        have ho : ((e.move d (.relinquish n)).1.seat d).Orderly := by
          rw [seat_move_self]
          exact Seat.move_orderly (h d) _
        rw [moves_cons, moves_singleton, queue, seat_move_self]
        refine (ho.queue_request n).trans ?_
        rw [show ((e.move d (.relinquish n)).1.seat d).queue = _ from hr, hq]
        simp [Seat.enqueue, hn]
      · exact (hone d _).trans ((h d).queue_request n)

theorem queue_apply (h : ∀ d, (e.seat d).Orderly) (op : Op) (d : DeviceId) :
    (e.apply op).1.queue d = if op.device = d then op.arrange (e.queue d) else e.queue d := by
  split
  · next hd =>
    subst hd
    exact queue_apply_self h op
  · next hd =>
    rw [apply_eq_moves, queue, seat_moves_ne e (Ne.symm hd)]
    rfl

/-- What operations make of a device's queue is for those about the device to say. -/
theorem queue_after (h : ∀ d, (e.seat d).Orderly) (ops : List Op) (d : DeviceId) :
    (e.after ops).queue d = (ops.filter (·.device = d)).foldl Op.arrange (e.queue d) := by
  induction ops generalizing e with
  | nil => rfl
  | cons op ops ih =>
    refine (ih (apply_orderly h op)).trans ?_
    rw [queue_apply h]
    by_cases hd : op.device = d <;> simp [hd]

/-- From the empty election on, operations work on a queue for each device in which nobody stands
twice: what they leave is what they make of plain lists, a request is answered by the place that it
leads to, and who asks for a role, the master or the standing is told by the place in the queue. -/
theorem queue_of_operations (ops : List Op) (d : DeviceId) :
    let e := ({} : Election).after ops
    e.queue d = (ops.filter (·.device = d)).foldl Op.arrange [] ∧
      (e.queue d).Nodup ∧
      ((e.seat d).backups ≠ [] → (e.seat d).master ≠ none) ∧
      (∀ n, e.granted n d =
        if ((Op.request n d).arrange (e.queue d)).head? = some n then .master else .standby) ∧
      e.master? d = (e.queue d).head? ∧
      e.standing d = ⟨(e.queue d).head?, (e.queue d).tail⟩ ∧
      ∀ n, e.role n d = Seat.place (e.queue d) n ∧
        (e.standing d).roleOf n = Seat.place (e.queue d) n := by
  intro e
  have h : (e.seat d).Orderly := after_orderly empty_orderly ops d
  refine ⟨queue_after empty_orderly ops d, h.nodup, ?_, fun n => h.granted_eq n, ?_, h.standing_eq,
    fun n => ⟨h.roleOf_eq n, h.roleOf_eq n⟩⟩
  · exact fun hb hm => hb (h.led hm)
  · exact congrArg Standing.master h.standing_eq

end Election
end Mastership
