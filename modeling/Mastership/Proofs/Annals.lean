import Mastership.Proofs.Tenures

namespace Mastership

/-- Who becomes master of a device, if an announcement tells of somebody. -/
def Announcement.owner? (d : DeviceId) (a : Announcement) : Option NodeId :=
  if a.kind = .master ∧ a.device = d then a.standing.master else none

/-- The owners of a device that announcements tell of, that of epoch 1 first. -/
def owners (d : DeviceId) (as : List Announcement) : List NodeId := as.filterMap (·.owner? d)

/-- The announcements tell that the term's owner was given its epoch of the device. -/
def Term.On (t : Term) (d : DeviceId) (as : List Announcement) : Prop :=
  ∃ k, t.epoch = k + 1 ∧ (owners d as)[k]? = some t.owner

variable {d : DeviceId} {as bs : List Announcement} {t t' : Term}

theorem owners_append (d : DeviceId) (as bs : List Announcement) :
    owners d (as ++ bs) = owners d as ++ owners d bs :=
  List.filterMap_append

theorem length_owners (d : DeviceId) (as : List Announcement) :
    (owners d as).length = as.countP (Announcement.assigns d) := by
  rw [owners, List.length_filterMap_eq_countP]
  refine List.countP_congr fun a _ => ?_
  simp only [Announcement.owner?, Announcement.assigns, decide_eq_true_eq]
  by_cases h : a.kind = .master ∧ a.device = d
  · simp [h, Option.isSome_iff_ne_none]
  · rw [if_neg h]
    constructor
    · intro ha
      cases ha
    · intro ha
      exact absurd ⟨ha.1, ha.2.1⟩ h

/-- What was told of a term stays told. -/
theorem Term.On.append (h : t.On d as) (bs : List Announcement) : t.On d (as ++ bs) := by
  obtain ⟨k, he, ho⟩ := h
  refine ⟨k, he, ?_⟩
  rw [owners_append, List.getElem?_append_left (List.getElem?_eq_some_iff.mp ho).1, ho]

/-- No epoch has two owners. -/
theorem Term.On.owner_eq (h : t.On d as) (h' : t'.On d as) (he : t.epoch = t'.epoch) :
    t.owner = t'.owner := by
  obtain ⟨k, hk, ho⟩ := h
  obtain ⟨k', hk', ho'⟩ := h'
  obtain rfl : k = k' := by omega
  exact Option.some.inj (ho.symm.trans ho')

theorem Term.On.epoch_le (h : t.On d as) : t.epoch ≤ (owners d as).length := by
  obtain ⟨k, hk, ho⟩ := h
  have := (List.getElem?_eq_some_iff.mp ho).1
  omega

namespace Election

/-- The announcements tell of every epoch that the election has opened, and of its owner. -/
structure Recorded (e : Election) (as : List Announcement) : Prop where
  epochs : ∀ d, (owners d as).length = (e.seat d).epoch
  present : ∀ d n, e.master? d = some n → (owners d as).getLast? = some n

variable {e : Election}

theorem empty_recorded : ({} : Election).Recorded [] := ⟨fun _ => rfl, fun _ _ h => nomatch h⟩

theorem Recorded.move (h : e.Recorded as) (d : DeviceId) (m : Seat.Move) :
    (e.move d m).1.Recorded (as ++ (e.move d m).2) where
  epochs d' := by
    rw [owners_append, List.length_append, h.epochs, length_owners, epoch_move]
  present d' n hn := by
    rw [master?, seat_move] at hn
    rw [owners_append]
    cases hk : ((e.seat d).move m).2 with
    | none =>
      rw [Seat.move_quiet hk] at hn
      have hsame : e.master? d' = some n := by
        split at hn
        · next hd => exact hd ▸ hn
        · exact hn
      rw [move_of_quiet hk]
      simpa [owners] using h.present d' n hsame
    | some kind =>
      rw [move_announces hk]
      by_cases hd : d = d'
      · subst hd
        rw [if_pos rfl] at hn
        cases kind with
        | master => simp [owners, Announcement.owner?, Seat.standing, hn]
        | backups =>
          have hkept := (Seat.move_keeps_master (s := e.seat d) (m := m) (by rw [hk]; simp)).1
          rw [hkept] at hn
          simpa [owners, Announcement.owner?] using h.present d n hn
      · rw [if_neg hd] at hn
        simpa [owners, Announcement.owner?, hd] using h.present d' n hn

theorem Recorded.moves (h : e.Recorded as) (d : DeviceId) (ms : List Seat.Move) :
    (e.moves d ms).1.Recorded (as ++ (e.moves d ms).2) := by
  induction ms generalizing e as with
  | nil => simpa using h
  | cons m ms ih =>
    rw [moves_cons, ← List.append_assoc]
    exact ih (h.move d m)

/-- The present term of a device is one that was told of. -/
theorem Recorded.on (h : e.Recorded as) (ht : e.term? d = some t) : t.On d as := by
  obtain ⟨hm, he⟩ := Seat.term?_eq_some.mp ht
  have hlast := h.present d t.owner hm
  have hlength := h.epochs d
  have hpos : (owners d as).length ≠ 0 := by
    intro h0
    rw [List.length_eq_zero_iff.mp h0] at hlast
    cases hlast
  refine ⟨(owners d as).length - 1, by omega, ?_⟩
  rw [← List.getLast?_eq_getElem?]
  exact hlast

/-- No term that was told of is newer than the election. -/
theorem Recorded.epoch_le (h : e.Recorded as) (ht : t.On d as) :
    t.epoch ≤ (e.seat d).epoch :=
  h.epochs d ▸ ht.epoch_le

end Election
end Mastership
