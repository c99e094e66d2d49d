import Mathlib.Data.List.Chain
import Mastership.Proofs.Operations

namespace Mastership
namespace Seat

variable {s s' s'' : Seat}

theorem term?_eq_some {t : Term} :
    s.term? = some t ↔ s.master = some t.owner ∧ s.epoch = t.epoch := by
  obtain ⟨owner, epoch⟩ := t
  simp [term?]

/-- Two terms of one epoch are one term, and there was no other between them. -/
theorem Precedes.same_tenure (h : s.Precedes s') (h' : s'.Precedes s'') {t t' : Term}
    (ht : s.term? = some t) (ht' : s''.term? = some t') (he : t.epoch = t'.epoch) :
    t' = t ∧ s'.term? = some t := by
  obtain ⟨hm, hepoch⟩ := term?_eq_some.mp ht
  obtain ⟨hm'', hepoch''⟩ := term?_eq_some.mp ht'
  have hle := h.epoch_le
  have hle' := h'.epoch_le
  have hkept : s'.master = s.master ∨ s'.master = none :=
    (h.resolve_left (by omega)).2
  have hmaster : s''.master = s'.master := by
    rcases (h'.resolve_left (by omega)).2 with hk | hn
    · exact hk
    · rw [hm''] at hn
      cases hn
  have hsame : s'.master = some t.owner := by
    rcases hkept with hk | hn
    · exact hk.trans hm
    · rw [hn, hm''] at hmaster
      cases hmaster
  have howner : t'.owner = t.owner := Option.some.inj (hm''.symm.trans (hmaster.trans hsame))
  refine ⟨?_, term?_eq_some.mpr ⟨hsame, by omega⟩⟩
  obtain ⟨owner, epoch⟩ := t
  obtain ⟨owner', epoch'⟩ := t'
  simp_all

/-- Who comes to be master opens an epoch. -/
theorem Precedes.opens (h : s.Precedes s') {n : NodeId} (hn : s'.master = some n)
    (hne : s.master ≠ some n) : s.epoch < s'.epoch := by
  rcases h with hlt | ⟨_, hm | hm⟩
  · exact hlt
  · exact absurd (hm.symm.trans hn) hne
  · rw [hm] at hn
    cases hn

/-- A move that is announced as one of the master, and leaves one, opens an epoch; no other does. -/
theorem epoch_move (s : Seat) (m : Move) : (s.move m).1.epoch =
    s.epoch + if (s.move m).2 = some .master ∧ (s.move m).1.master ≠ none then 1 else 0 := by
  cases m with
  | request n =>
    cases hm : s.master with
    | none => simp [move, request_of_unowned n hm, assign]
    | some x =>
      by_cases hn : n ∈ s.queue
      · simp [move, request_of_mem hm hn]
      · simp [move, request_of_not_mem hm hn]
  | relinquish n =>
    by_cases hm : s.master = some n
    · cases hb : s.backups <;> simp [move, relinquish, hm, hb, assign]
    · by_cases hn : n ∈ s.backups <;> simp [move, relinquish, hm, hn]
  | promote n => by_cases hm : s.master = some n <;> simp [move, promote, hm, assign]

end Seat

/-- Whether an announcement is of a new master of a device. -/
def Announcement.assigns (d : DeviceId) (a : Announcement) : Bool :=
  a.kind = .master ∧ a.device = d ∧ a.standing.master ≠ none

namespace Election

/-- In each device's election, `e'` is what `e` has become. -/
def Follows (e e' : Election) : Prop := ∀ d, (e.seat d).Precedes (e'.seat d)

/-- The election that others may see while an operation is under way: a master that steps down gives
the device up before it asks for it again. -/
def between (e : Election) : Op → List Election
  | .setRole n d .standby => if e.master? d = some n then [(e.relinquish n d).1] else []
  | _ => []

/-- What the election becomes while operations are carried out, moment by moment. -/
def trail (e : Election) : List Op → List Election
  | [] => []
  | op :: ops => e.between op ++ (e.apply op).1 :: (e.apply op).1.trail ops

/-- The moments of a run of operations, from the empty election on. -/
def moments (ops : List Op) : List Election := {} :: ({} : Election).trail ops

/-- What operations announce, in order. -/
def published (e : Election) : List Op → List Announcement
  | [] => []
  | op :: ops => (e.apply op).2 ++ (e.apply op).1.published ops

instance : Trans Follows Follows Follows := ⟨fun h h' d => (h d).trans (h' d)⟩

variable {e e' : Election}

theorem moves_follow (e : Election) (d : DeviceId) (ms : List Seat.Move) :
    Follows e (e.moves d ms).1 :=
  fun d' => moves_precedes e d d' ms

theorem apply_follows (e : Election) (op : Op) : Follows e (e.apply op).1 :=
  apply_eq_moves e op ▸ moves_follow e _ _

/-- Each moment of an operation follows the one before. -/
theorem between_isChain (e : Election) (op : Op) {l : List Election}
    (h : ((e.apply op).1 :: l).IsChain Follows) :
    (e :: (e.between op ++ (e.apply op).1 :: l)).IsChain Follows := by
  have hdirect : (e :: (e.apply op).1 :: l).IsChain Follows :=
    List.isChain_cons_cons.mpr ⟨apply_follows e op, h⟩
  unfold between
  split
  · next n d =>
    split
    · next hm =>
      have hdown : (e.apply (.setRole n d .standby)).1 = ((e.relinquish n d).1.request n d).1 := by
        simp only [apply, setRole, stepDown, hm, if_true]
      have hfirst : Follows e (e.relinquish n d).1 :=
        relinquish_eq_moves e n d ▸ moves_follow e d _
      have hsecond : Follows (e.relinquish n d).1 (e.apply (.setRole n d .standby)).1 := by
        rw [hdown, request_eq_moves]
        exact moves_follow _ d _
      exact List.isChain_cons_cons.mpr ⟨hfirst, List.isChain_cons_cons.mpr ⟨hsecond, h⟩⟩
    · exact hdirect
  · exact hdirect

theorem trail_isChain (e : Election) (ops : List Op) : (e :: e.trail ops).IsChain Follows := by
  induction ops generalizing e with
  | nil => exact .singleton e
  | cons op ops ih => exact between_isChain e op (ih _)

/-- Of any two moments of a run, the later one follows the other. -/
theorem moments_follow {ops : List Op} {i j : Nat} (hij : i ≤ j)
    (hi : (moments ops)[i]? = some e) (hj : (moments ops)[j]? = some e') : Follows e e' := by
  rcases Nat.eq_or_lt_of_le hij with rfl | hlt
  · obtain rfl : e = e' := Option.some.inj (hi.symm.trans hj)
    exact fun d => .refl _
  · obtain ⟨hil, rfl⟩ := List.getElem?_eq_some_iff.mp hi
    obtain ⟨hjl, rfl⟩ := List.getElem?_eq_some_iff.mp hj
    have hpair := List.isChain_iff_pairwise.mp (trail_isChain {} ops)
    exact List.pairwise_iff_getElem.mp hpair i j hil hjl hlt

/-- Whatever operations are carried out, the epochs of a device's terms never decrease; terms of one
epoch, read at any two moments, have one owner, who owned the device at every moment between; and a
member that comes to be master, be it after nobody was or after itself, does so in an epoch greater
than all that the device ever had. -/
theorem epochs_name_tenures (ops : List Op) (d : DeviceId) :
    (∀ (i j : Nat) (e e' : Election) (t t' : Term), i ≤ j →
      (moments ops)[i]? = some e → (moments ops)[j]? = some e' →
      e.term? d = some t → e'.term? d = some t' →
        t.epoch ≤ t'.epoch ∧ (t.epoch = t'.epoch → t'.owner = t.owner ∧
          ∀ (k : Nat) (m : Election), i ≤ k → k ≤ j → (moments ops)[k]? = some m →
            m.term? d = some t)) ∧
    (∀ (j : Nat) (e e' : Election) (n : NodeId),
      (moments ops)[j]? = some e → (moments ops)[j + 1]? = some e' →
      e.master? d ≠ some n → e'.master? d = some n →
        ∃ epoch, e'.term? d = some ⟨n, epoch⟩ ∧
          ∀ (i : Nat) (m : Election), i ≤ j → (moments ops)[i]? = some m →
            (m.seat d).epoch < epoch) := by
  constructor
  · intro i j e e' t t' hij hi hj ht ht'
    have hfollows := moments_follow hij hi hj d
    have hle := hfollows.epoch_le
    rw [(Seat.term?_eq_some.mp ht).2, (Seat.term?_eq_some.mp ht').2] at hle
    refine ⟨hle, fun he => ⟨?_, fun k m hik hkj hk => ?_⟩⟩
    · rw [(hfollows.same_tenure (.refl _) ht ht' he).1]
    · exact ((moments_follow hik hi hk d).same_tenure (moments_follow hkj hk hj d) ht ht' he).2
  · intro j e e' n hj hj' hne hn
    have hopens := (moments_follow (Nat.le_succ j) hj hj' d).opens hn hne
    refine ⟨_, Seat.term?_eq_some.mpr ⟨hn, rfl⟩, fun i m hij hi => ?_⟩
    exact Nat.lt_of_le_of_lt (moments_follow hij hi hj d).epoch_le hopens

/-- A sole master that steps down is elected again, in a new epoch. -/
example : (moments [.request ⟨"east"⟩ ⟨"of:1"⟩, .setRole ⟨"east"⟩ ⟨"of:1"⟩ .standby]).map
    (·.term? ⟨"of:1"⟩) = [none, some ⟨⟨"east"⟩, 1⟩, none, some ⟨⟨"east"⟩, 2⟩] := by
  decide +kernel

theorem epoch_move (e : Election) (d d' : DeviceId) (m : Seat.Move) :
    ((e.move d m).1.seat d').epoch =
      (e.seat d').epoch + (e.move d m).2.countP (Announcement.assigns d') := by
  by_cases hd : d = d'
  · subst hd
    rw [seat_move_self, Seat.epoch_move, move]
    obtain ⟨s, kind⟩ := (e.seat d).move m
    cases kind with
    | none => simp [settle]
    | some kind => cases kind <;> simp [settle, Announcement.assigns, Seat.standing]
  · have hnone : (e.move d m).2.countP (Announcement.assigns d') = 0 := by
      refine List.countP_eq_zero.mpr fun a ha => ?_
      obtain ⟨kind, _, rfl⟩ := mem_move_iff.mp ha
      simp [Announcement.assigns, hd]
    rw [seat_move, if_neg hd, hnone]
    rfl

theorem epoch_moves (e : Election) (d d' : DeviceId) (ms : List Seat.Move) :
    ((e.moves d ms).1.seat d').epoch =
      (e.seat d').epoch + (e.moves d ms).2.countP (Announcement.assigns d') := by
  induction ms generalizing e with
  | nil => rfl
  | cons m ms ih => rw [moves_cons, ih, epoch_move, List.countP_append, Nat.add_assoc]

/-- A device has had as many epochs as masters were announced for it. Epochs are unbounded here: 64
bits hold those of fewer than 2⁶⁴ assignments. -/
theorem epoch_eq_assignments (e : Election) (ops : List Op) (d : DeviceId) :
    ((e.after ops).seat d).epoch =
      (e.seat d).epoch + (e.published ops).countP (Announcement.assigns d) := by
  induction ops generalizing e with
  | nil => rfl
  | cons op ops ih =>
    refine (ih (e.apply op).1).trans ?_
    rw [published, List.countP_append, ← Nat.add_assoc, apply_eq_moves, epoch_moves]

end Election
end Mastership
