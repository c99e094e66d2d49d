import Mastership.Proofs.Audience

namespace Mastership
namespace Site

variable {d : DeviceId} {ms : List Seat.Move} {ps : List Push} {s s' : Site}

/-- A device that is reached and stored. -/
def Near (s : Site) (d : DeviceId) : Prop := s.reachable? d = some true ∧ s.stored d = true

/-- A device that refuses roles, and that the controller can ask for and give up. -/
def Bounces (s : Site) (d : DeviceId) : Prop :=
  s.Near d ∧ s.accepts d = false ∧ s.node.faults.request = false ∧
    s.node.faults.relinquish = false

/-- A device that the controller asks for when told that it has no place in the queue, and that it
never gives up. -/
def Asks (s : Site) (d : DeviceId) : Prop :=
  s.Near d ∧ s.node.faults.request = false ∧
    (s.accepts d = true ∨ s.node.faults.relinquish = true)

/-- A device that the controller gives up when told that it has a place in the queue. -/
def Leaves (s : Site) (d : DeviceId) : Prop :=
  s.node.faults.relinquish = false ∧
    (s.reachable? d = some false ∨ s.Near d ∧ s.accepts d = false)

theorem Bounces.leaves (h : s.Bounces d) : s.Leaves d := ⟨h.2.2.2, .inr ⟨h.1, h.2.1⟩⟩

theorem Asks.not_leaves (h : s.Asks d) : ¬ s.Leaves d := by
  rintro ⟨hf, hr | ⟨_, ha⟩⟩
  · rw [h.1.1] at hr
    cases hr
  · rcases h.2.2 with ha' | hf'
    · rw [ha] at ha'
      cases ha'
    · rw [hf] at hf'
      cases hf'

/-- The moves of a controller that hears of a device's master, by what it makes of the device. -/
inductive Reacts (s : Site) (x : Announcement) : List Seat.Move → Prop
  | idle : Reacts s x []
  | asks : s.Asks x.device → x.standing.roleOf s.node.id = .none → Reacts s x [.request s.node.id]
  | leaves : s.Leaves x.device → Reacts s x [.relinquish s.node.id]
  | bounces : s.Bounces x.device → x.standing.roleOf s.node.id = .none →
    Reacts s x [.request s.node.id, .relinquish s.node.id]

theorem asking_cases (s : Site) (requested : Role) :
    s.asking requested = [] ∨ requested = .none ∧ s.node.faults.request = false ∧
      s.asking requested = [.request s.node.id] := by
  unfold asking requests
  by_cases hn : requested = .none
  · cases hq : s.node.faults.request with
    | true => exact .inl (by simp)
    | false => exact .inr ⟨hn, rfl, by simp [hn]⟩
  · exact .inl (if_neg hn)

theorem yielding_cases (s : Site) (d : DeviceId) :
    (s.accepts d = true ∨ s.node.faults.relinquish = true) ∧ s.yielding d = [] ∨
      s.accepts d = false ∧ s.node.faults.relinquish = false ∧
        s.yielding d = [.relinquish s.node.id] := by
  unfold yielding withdrawals
  cases ha : s.accepts d with
  | true => exact .inl ⟨.inl rfl, by simp⟩
  | false =>
    cases hl : s.node.faults.relinquish with
    | true => exact .inl ⟨.inr rfl, by simp⟩
    | false => exact .inr ⟨rfl, rfl, by simp⟩

theorem hearing_reacts (s : Site) (x : Announcement) : s.Reacts x (s.hearing x) := by
  unfold hearing
  split
  · exact .idle
  · exact .idle
  · next hr =>
    split
    · exact .idle
    · cases hf : s.node.faults.relinquish with
      | true => simpa [withdrawals, hf] using .idle
      | false => simpa [withdrawals, hf] using .leaves ⟨hf, .inl hr⟩
  · next hr =>
    split
    · next hs =>
      have hnear : s.Near x.device := ⟨hr, hs⟩
      rcases s.asking_cases (x.standing.roleOf s.node.id) with ha | ⟨hn, hq, ha⟩ <;>
        rcases s.yielding_cases x.device with ⟨hk, hy⟩ | ⟨hk, hl, hy⟩ <;> rw [ha, hy]
      · exact .idle
      · exact .leaves ⟨hl, .inr ⟨hnear, hk⟩⟩
      · exact .asks ⟨hnear, hq, hk⟩ hn
      · exact .bounces ⟨hnear, hk, hq, hl⟩ hn
    · exact .idle

/-- Whoever takes a device asks for it when told of it. -/
theorem Asks.hearing (h : s.Asks d) {x : Announcement} (hd : x.device = d) (hk : x.kind = .master) :
    s.hearing x =
      if x.standing.roleOf s.node.id = .none then [.request s.node.id] else [] := by
  subst hd
  obtain ⟨⟨hr, hs⟩, hq, ha⟩ := h
  simp only [Site.hearing, hk, hr, hs, if_true, asking, requests, hq, yielding, withdrawals]
  rcases ha with ha | hl
  · simp [ha]
  · simp [hl]

/-- A member that is out of its place: not in the queue though it asks for the device, or in it though
it gives the device up. -/
def Astray (s : Site) (d : DeviceId) (queue : List NodeId) : Prop :=
  s.Asks d ∧ s.node.id ∉ queue ∨ s.Leaves d ∧ s.node.id ∈ queue

section Reactions

variable {x : Announcement} {e : Election} (ho : ∀ d, (e.seat d).Orderly)

include ho

theorem request_outside {n : NodeId} (hn : n ∈ (e.seat d).queue) :
    e.moves d [.request n] = (e, []) := by
  obtain ⟨m, hm⟩ := Option.ne_none_iff_exists'.mp ((ho d).master_ne_none hn)
  rw [Election.moves_singleton]
  apply Election.move_of_quiet
  rw [Seat.move, Seat.request_of_mem hm hn]

omit ho in
theorem relinquish_outside {n : NodeId} (hn : n ∉ (e.seat d).queue) :
    e.moves d [.relinquish n] = (e, []) := by
  rw [Election.moves_singleton]
  apply Election.move_of_quiet
  rw [Seat.move, Seat.relinquish_of_not_mem hn]

theorem relinquish_leaves (ms : List Seat.Move) (n : NodeId) :
    n ∉ ((e.moves d (ms ++ [.relinquish n])).1.seat d).queue := by
  rw [Election.moves_append, Election.moves_singleton, Election.seat_move_self]
  exact Seat.relinquish_not_mem (Election.moves_orderly ho d ms d) n

omit ho in
/-- Asked for and given up at once, an owned device keeps its master. -/
theorem bounce_backups {n : NodeId} (hn : n ∉ (e.seat d).queue) (hm : (e.seat d).master ≠ none) :
    ∀ a ∈ (e.moves d [.request n, .relinquish n]).2, a.kind = .backups := by
  obtain ⟨m, hm⟩ := Option.ne_none_iff_exists'.mp hm
  have hne : m ≠ n := by
    rintro rfl
    exact hn (Seat.mem_queue.mpr (.inl hm))
  have hseat : (e.move d (.request n)).1.seat d =
      { e.seat d with backups := (e.seat d).backups ++ [n] } := by
    rw [Election.seat_move_self, Seat.move, Seat.request_of_not_mem hm hn]
  intro a ha
  rw [Election.moves_cons, Election.moves_singleton, List.mem_append] at ha
  rcases ha with ha | ha
  · obtain ⟨kind, hk, rfl⟩ := Election.mem_move_iff.mp ha
    rw [Seat.move, Seat.request_of_not_mem hm hn] at hk
    exact (Option.some.inj hk).symm
  · obtain ⟨kind, hk, rfl⟩ := Election.mem_move_iff.mp ha
    simp only [hseat, Seat.move, Seat.relinquish, hm, Option.some.injEq, hne, if_false,
      List.mem_append, List.mem_singleton, or_true, if_true] at hk
    exact hk.symm

/-- Nobody goes astray by reacting. -/
theorem Reacts.astray (h : s.Reacts x ms)
    (ha : s.Astray x.device ((e.moves x.device ms).1.seat x.device).queue) :
    s.Astray x.device (e.seat x.device).queue := by
  cases h with
  | idle => exact ha
  | asks hs _ =>
    rcases ha with ⟨_, hn⟩ | ⟨hl, _⟩
    · refine .inl ⟨hs, fun hq => hn ?_⟩
      rw [request_outside ho hq]
      exact hq
    · exact absurd hl hs.not_leaves
  | leaves hl =>
    rcases ha with ⟨hs, _⟩ | ⟨_, hn⟩
    · exact absurd hl hs.not_leaves
    · exact absurd hn (relinquish_leaves ho [] _)
  | bounces hb _ =>
    rcases ha with ⟨hs, _⟩ | ⟨_, hn⟩
    · exact absurd hb.leaves hs.not_leaves
    · exact absurd hn (relinquish_leaves ho [.request s.node.id] _)

/-- Who makes a change of master known has come to its place, or bounces a device without a
master. -/
theorem Reacts.master (h : s.Reacts x ms) {a : Announcement} (ha : a ∈ (e.moves x.device ms).2)
    (hk : a.kind = .master) :
    s.Astray x.device (e.seat x.device).queue ∧
        ¬ s.Astray x.device ((e.moves x.device ms).1.seat x.device).queue ∨
      s.Bounces x.device ∧ (e.seat x.device).queue = [] := by
  cases h with
  | idle => simp at ha
  | asks hs _ =>
    have hq : s.node.id ∉ (e.seat x.device).queue := by
      intro hq
      rw [request_outside ho hq] at ha
      cases ha
    refine .inl ⟨.inl ⟨hs, hq⟩, ?_⟩
    rintro (⟨_, hn⟩ | ⟨hl, _⟩)
    · rw [Election.moves_singleton, Election.seat_move_self] at hn
      exact hn (Seat.request_queued _ _).2
    · exact hs.not_leaves hl
  | leaves hl =>
    have hq : s.node.id ∈ (e.seat x.device).queue := by
      by_contra hq
      rw [relinquish_outside hq] at ha
      cases ha
    refine .inl ⟨.inr ⟨hl, hq⟩, ?_⟩
    rintro (⟨hs, _⟩ | ⟨_, hn⟩)
    · exact hs.not_leaves hl
    · exact relinquish_leaves ho [] _ hn
  | bounces hb _ =>
    by_cases hq : s.node.id ∈ (e.seat x.device).queue
    · refine .inl ⟨.inr ⟨hb.leaves, hq⟩, ?_⟩
      rintro (⟨hs, _⟩ | ⟨_, hn⟩)
      · exact hs.not_leaves hb.leaves
      · exact relinquish_leaves ho [.request s.node.id] _ hn
    · refine .inr ⟨hb, ?_⟩
      by_contra hne
      obtain ⟨n, hn⟩ := List.exists_mem_of_ne_nil _ hne
      rw [bounce_backups hq ((ho _).master_ne_none hn) a ha] at hk
      cases hk

omit ho in
theorem Reacts.own (h : s.Reacts x ms) : ∀ m ∈ ms, m.node = s.node.id := by
  cases h <;> simp [Seat.Move.node]

omit ho in
theorem Reacts.length_le (h : s.Reacts x ms) : ms.length ≤ 2 := by
  cases h <;> simp

end Reactions

theorem Bounces.hearing (h : s.Bounces d) {x : Announcement} (hd : x.device = d)
    (hk : x.kind = .master) :
    s.hearing x = (if x.standing.roleOf s.node.id = .none then [.request s.node.id] else []) ++
      [.relinquish s.node.id] := by
  subst hd
  obtain ⟨⟨hr, hs⟩, ha, hq, hl⟩ := h
  simp [Site.hearing, hk, hr, hs, asking, requests, hq, yielding, withdrawals, ha, hl]

/-- What decides on how a controller reacts is the same. -/
structure Same (s s' : Site) : Prop where
  id : s'.node.id = s.node.id
  reachable : ∀ d, s'.reachable? d = s.reachable? d
  stored : ∀ d, s'.stored d = s.stored d
  accepts : ∀ d, s'.accepts d = s.accepts d
  request : s'.node.faults.request = s.node.faults.request
  relinquish : s'.node.faults.relinquish = s.node.faults.relinquish

theorem Hears.same {x : Announcement} (h : Hears x s s') : Same s s' := by
  obtain ⟨ps, hd⟩ := h.does
  refine ⟨hd.id, hd.reachable?, ?_, hd.accepts_eq, hd.request, hd.relinquish⟩
  intro d
  by_cases hx : d = x.device
  · rw [hx, h.stored]
  · exact hd.stored_ne hx

theorem Same.near_iff (h : Same s s') (d : DeviceId) : s'.Near d ↔ s.Near d := by
  simp only [Near, h.reachable, h.stored]

theorem Same.asks_iff (h : Same s s') (d : DeviceId) : s'.Asks d ↔ s.Asks d := by
  simp only [Asks, h.near_iff, h.accepts, h.request, h.relinquish]

theorem Same.leaves_iff (h : Same s s') (d : DeviceId) : s'.Leaves d ↔ s.Leaves d := by
  simp only [Leaves, h.near_iff, h.reachable, h.accepts, h.relinquish]

theorem Same.bounces_iff (h : Same s s') (d : DeviceId) : s'.Bounces d ↔ s.Bounces d := by
  simp only [Bounces, h.near_iff, h.accepts, h.request, h.relinquish]

end Site

end Mastership
