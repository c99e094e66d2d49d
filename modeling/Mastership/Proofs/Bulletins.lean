import Mathlib.Data.List.ReduceOption
import Mastership.Channel
import Mastership.Proofs.Tenures

namespace Mastership
namespace Announcement

/-- The announcements that are about a device. -/
def about (d : DeviceId) (as : List Announcement) : List Announcement := as.filter (·.device = d)

/-- The standing that the last of some announcements about a device tells; `before` if there are
none. -/
def latest (before : Standing) (as : List Announcement) : Standing :=
  (as.getLast?.map standing).getD before

/-- The announcement tells another standing than the one before, and its kind says what changed. -/
structure Reports (a : Announcement) (before : Standing) : Prop where
  differs : a.standing ≠ before
  master : a.kind = .master ↔ a.standing.master ≠ before.master
  backups : a.kind = .backups ↔
    a.standing.master = before.master ∧ a.standing.backups ≠ before.backups

/-- Each announcement reports a change of what the one before it has told. -/
def Exact (before : Standing) : List Announcement → Prop
  | [] => True
  | a :: as => a.Reports before ∧ Exact a.standing as

variable {before : Standing} {as bs : List Announcement}

theorem about_append (d : DeviceId) (as bs : List Announcement) :
    about d (as ++ bs) = about d as ++ about d bs :=
  List.filter_append ..

theorem latest_cons (before : Standing) (a : Announcement) (as : List Announcement) :
    latest before (a :: as) = latest a.standing as := by
  cases as with
  | nil => rfl
  | cons b bs => simp [latest, List.getLast?_cons]

theorem latest_append (before : Standing) (as bs : List Announcement) :
    latest before (as ++ bs) = latest (latest before as) bs := by
  induction as generalizing before with
  | nil => rfl
  | cons a as ih => rw [List.cons_append, latest_cons, latest_cons, ih]

theorem exact_append : Exact before (as ++ bs) ↔ Exact before as ∧ Exact (latest before as) bs := by
  induction as generalizing before with
  | nil => exact ⟨fun h => ⟨trivial, h⟩, And.right⟩
  | cons a as ih =>
    rw [List.cons_append, Exact, Exact, latest_cons, ih]
    exact and_assoc.symm

theorem Exact.reports {a : Announcement} (h : Exact before (as ++ a :: bs)) :
    a.Reports (latest before as) :=
  (exact_append.mp h).2.1

end Announcement

open Announcement

namespace Seat

variable {s : Seat} {m : Move}

/-- A move that is announced as one of the master changes the master: a backup that follows was not
master before, since nobody queues twice. -/
theorem move_master_ne (h : s.Orderly) (hk : (s.move m).2 = some .master) :
    (s.move m).1.master ≠ s.master := by
  cases m with
  | request n =>
    cases hm : s.master with
    | none => simp [move, request_of_unowned n hm, assign]
    | some x =>
      by_cases hn : n ∈ s.queue
      · simp [move, request_of_mem hm hn] at hk
      · simp [move, request_of_not_mem hm hn] at hk
  | relinquish n =>
    by_cases hm : s.master = some n
    · have hd := h.nodup
      rw [queue_owned hm, List.nodup_cons] at hd
      cases hb : s.backups with
      | nil => simp [move, relinquish, hm, hb]
      | cons b bs =>
        have hbn : b ≠ n := fun he => hd.1 (by simp [hb, he])
        simpa [move, relinquish, hm, hb, assign] using hbn
    · by_cases hn : n ∈ s.backups <;> simp [move, relinquish, hm, hn] at hk
  | promote n =>
    by_cases hm : s.master = some n
    · simp [move, promote, hm] at hk
    · simpa [move, promote, hm, assign] using Ne.symm hm

theorem move_backups_ne (hk : (s.move m).2 = some .backups) :
    (s.move m).1.backups ≠ s.backups := by
  cases m with
  | request n =>
    cases hm : s.master with
    | none => simp [move, request_of_unowned n hm] at hk
    | some x =>
      by_cases hn : n ∈ s.queue
      · simp [move, request_of_mem hm hn] at hk
      · simp [move, request_of_not_mem hm hn]
  | relinquish n =>
    by_cases hm : s.master = some n
    · cases hb : s.backups <;> simp [move, relinquish, hm, hb] at hk
    · by_cases hn : n ∈ s.backups
      · simp only [move, relinquish, hm, hn, if_true, if_false]
        intro he
        rw [← he] at hn
        simp at hn
      · simp [move, relinquish, hm, hn] at hk
  | promote n => by_cases hm : s.master = some n <;> simp [move, promote, hm] at hk

/-- What a move announces reports the change that it makes. -/
theorem move_reports (h : s.Orderly) {kind : Kind} (hk : (s.move m).2 = some kind)
    (d : DeviceId) : Reports ⟨kind, d, (s.move m).1.standing⟩ s.standing := by
  cases kind with
  | master =>
    have hm := move_master_ne h hk
    refine ⟨fun he => hm (congrArg Standing.master he), ⟨fun _ => hm, fun _ => rfl⟩, ?_⟩
    exact ⟨nofun, fun hb => absurd hb.1 hm⟩
  | backups =>
    have hb := move_backups_ne hk
    have hm := (move_keeps_master (s := s) (m := m) (by rw [hk]; simp)).1
    refine ⟨fun he => hb (congrArg Standing.backups he), ⟨nofun, fun hne => absurd hm hne⟩, ?_⟩
    exact ⟨fun _ => ⟨hm, hb⟩, fun _ => rfl⟩

end Seat

namespace Election

/-- The announcements tell, change by change, how each device's standing became what it is. -/
structure Narrates (as : List Announcement) (e e' : Election) : Prop where
  exact : ∀ d, Exact (e.standing d) (about d as)
  latest : ∀ d, latest (e.standing d) (about d as) = e'.standing d

variable {e e' e'' : Election} {as bs : List Announcement}

theorem Narrates.trans (h : Narrates as e e') (h' : Narrates bs e' e'') :
    Narrates (as ++ bs) e e'' where
  exact d := by
    rw [about_append, exact_append, h.latest]
    exact ⟨h.exact d, h'.exact d⟩
  latest d := by rw [about_append, latest_append, h.latest, h'.latest]

theorem Narrates.refl (e : Election) : Narrates [] e e := ⟨fun _ => trivial, fun _ => rfl⟩

theorem move_narrates {d : DeviceId} (h : (e.seat d).Orderly) (m : Seat.Move) :
    Narrates (e.move d m).2 e (e.move d m).1 := by
  cases hk : ((e.seat d).move m).2 with
  | none =>
    rw [move_of_quiet hk]
    exact .refl e
  | some kind =>
    have hr := Seat.move_reports h hk d
    have hkept : ∀ d' ≠ d, (e.move d m).1.standing d' = e.standing d' := fun d' hd => by
      rw [standing, seat_move, if_neg (Ne.symm hd), standing]
    rw [move_announces hk]
    constructor <;> intro d' <;> by_cases hd : d' = d
    · subst hd
      simpa [about, Exact, standing] using hr
    · simp [about, Ne.symm hd, Exact]
    · subst hd
      simp [about, Announcement.latest, standing, seat_move_self]
    · simp [about, Ne.symm hd, Announcement.latest, hkept d' hd]

theorem moves_narrate (h : ∀ d, (e.seat d).Orderly) (d : DeviceId) (ms : List Seat.Move) :
    Narrates (e.moves d ms).2 e (e.moves d ms).1 := by
  induction ms generalizing e with
  | nil => exact .refl e
  | cons m ms ih =>
    have ho := moves_orderly h d [m]
    rw [moves_singleton] at ho
    rw [moves_cons]
    exact (move_narrates (h d) m).trans (ih ho)

theorem published_narrates (h : ∀ d, (e.seat d).Orderly) (ops : List Op) :
    Narrates (e.published ops) e (e.after ops) := by
  induction ops generalizing e with
  | nil => exact .refl e
  | cons op ops ih =>
    refine Narrates.trans ?_ (ih (apply_orderly h op))
    rw [apply_eq_moves]
    exact moves_narrate h _ _

theorem moves_of_silence {d : DeviceId} {ms : List Seat.Move} (h : (e.moves d ms).2 = []) :
    (e.moves d ms).1 = e := by
  induction ms generalizing e with
  | nil => rfl
  | cons m ms ih =>
    rw [moves_cons, List.append_eq_nil_iff] at h
    have hm : (e.move d m).1 = e := by
      cases hk : ((e.seat d).move m).2 with
      | none => rw [move_of_quiet hk]
      | some kind =>
        have hmem := mem_move_iff.mpr ⟨kind, hk, rfl⟩
        rw [h.1] at hmem
        cases hmem
    rw [moves_cons]
    exact (ih h.2).trans hm

/-- A single move that leaves everything as it is announces nothing. -/
theorem move_silent (h : ∀ d, (e.seat d).Orderly) {d : DeviceId} {m : Seat.Move}
    (hm : (e.move d m).1 = e) : (e.move d m).2 = [] := by
  cases hk : ((e.seat d).move m).2 with
  | none => rw [move_of_quiet hk]
  | some kind =>
    have hs := seat_move_self e d m
    rw [hm] at hs
    exact absurd (congrArg Seat.standing hs).symm (Seat.move_reports (h d) hk d).differs

/-- A master that steps down leaves its epoch behind, even if it is elected again. -/
theorem stepDown_epoch {n : NodeId} {d : DeviceId} (hm : e.master? d = some n) :
    (e.seat d).epoch < ((e.moves d [.relinquish n, .request n]).1.seat d).epoch := by
  rw [moves_cons, moves_singleton, seat_move_self, seat_move_self]
  have hseat : (e.seat d).master = some n := hm
  generalize e.seat d = s at hseat
  have hle := (s.relinquish n).1.move_precedes (.request n) |>.epoch_le
  cases hb : s.backups with
  | nil => simp [Seat.move, Seat.relinquish, hseat, hb, Seat.request, Seat.assign]
  | cons b bs =>
    have hr : (s.relinquish n).1.epoch = s.epoch + 1 := by
      simp [Seat.relinquish, hseat, hb, Seat.assign]
    exact Nat.lt_of_lt_of_le (by omega) hle

/-- An operation announces nothing if it changes nothing, and only then. -/
theorem apply_silent_iff (h : ∀ d, (e.seat d).Orderly) (op : Op) :
    (e.apply op).2 = [] ↔ (e.apply op).1 = e := by
  rw [apply_eq_moves]
  refine ⟨moves_of_silence, fun he => ?_⟩
  have hone : ∀ d m, (e.moves d [m]).1 = e → (e.moves d [m]).2 = [] := fun d m hm => by
    rw [moves_singleton] at hm ⊢
    exact move_silent h hm
  cases op with
  | request n d => exact hone d _ he
  | relinquish n d => exact hone d _ he
  | setRole n d role =>
    cases role with
    | none => exact hone d _ he
    | master => exact hone d _ he
    | standby =>
      simp only [steps, byHand, Op.device] at he ⊢
      split at he
      · next hm =>
        have hlt := stepDown_epoch hm
        rw [he] at hlt
        exact absurd hlt (Nat.lt_irrefl _)
      · next hm =>
        rw [if_neg hm]
        exact hone d _ he

/-- What a reader of a channel gets of the announcements of operations. It reads at the moments
where there is no operation, and once more at the end. -/
def overheard (e : Election) (c : Channel Announcement) (reader : Nat) :
    List (Option Op) → List (Delivery Announcement)
  | [] => (c.drain reader).2.getD []
  | none :: beats => (c.drain reader).2.getD [] ++ e.overheard (c.drain reader).1 reader beats
  | some op :: beats => (e.apply op).1.overheard (c.sendAll (e.apply op).2) reader beats

end Election

theorem Delivery.ofUnread_of_prompt {α : Type} {capacity : Nat} {unread : List α}
    (h : ∀ n, .lagged n ∉ ofUnread capacity unread) :
    ofUnread capacity unread = unread.map .message := by
  simp only [ofUnread] at h ⊢
  split at h
  · next hl => simp [hl]
  · exact absurd List.mem_cons_self (h _)

namespace Election

/-- A reader that never lags gets all that it has not read yet, and then whatever is announced. -/
theorem overheard_of_prompt {e : Election} {c : Channel Announcement} {reader : Nat}
    {unread : List Announcement} (hr : c.readers[reader]? = some (some unread))
    {beats : List (Option Op)} (hlag : ∀ n, .lagged n ∉ e.overheard c reader beats) :
    e.overheard c reader beats =
      (unread ++ e.published beats.reduceOption).map .message := by
  have hdrain : c.drain reader = ({ c with readers := c.readers.set reader (some []) },
      some (Delivery.ofUnread c.capacity unread)) := by
    simp only [Channel.drain, hr]
  induction beats generalizing e c unread with
  | nil =>
    simp only [overheard, hdrain, Option.getD_some] at hlag ⊢
    have hnil : e.published ([] : List (Option Op)).reduceOption = [] := rfl
    rw [hnil, List.append_nil]
    exact Delivery.ofUnread_of_prompt hlag
  | cons beat beats ih =>
    cases beat with
    | none =>
      simp only [overheard, hdrain, Option.getD_some, List.mem_append, not_or] at hlag ⊢
      have hread : (c.readers.set reader (some []))[reader]? = some (some []) := by
        rw [List.getElem?_set_self (List.getElem?_eq_some_iff.mp hr).1]
      rw [Delivery.ofUnread_of_prompt fun n => (hlag n).1,
        ih (c := { c with readers := c.readers.set reader (some []) }) hread
          (fun n => (hlag n).2) (by simp only [Channel.drain, hread]), ← List.map_append]
      rfl
    | some op =>
      have hsent : (c.sendAll (e.apply op).2).readers[reader]? =
          some (some (unread ++ (e.apply op).2)) := by
        simp [Channel.sendAll, hr]
      refine (ih hsent hlag (by simp only [Channel.drain, hsent])).trans ?_
      rw [List.append_assoc]
      rfl

/-- A subscriber from the start that does not lag gets each change of each device's standing, and
nothing but changes: what it heard last of a device is the device's standing, what it heard before
differs from that, and the kind of an announcement says whether the master is another one or only
the waiting members are. An operation announces nothing if and only if it changes nothing. -/
theorem subscriber_hears_each_change (c : Channel Announcement) (beats : List (Option Op))
    (hlag : ∀ n, .lagged n ∉ ({} : Election).overheard c.subscribe.1 c.subscribe.2 beats) :
    let e := ({} : Election).after beats.reduceOption
    ∃ as, ({} : Election).overheard c.subscribe.1 c.subscribe.2 beats = as.map .message ∧
      (∀ d, latest {} (about d as) = e.standing d) ∧
      (∀ d before a rest, about d as = before ++ a :: rest → a.Reports (latest {} before)) ∧
      ∀ op, (e.apply op).2 = [] ↔ (e.apply op).1 = e := by
  intro e
  have hsub : c.subscribe.1.readers[c.subscribe.2]? = some (some []) := by
    simp [Channel.subscribe]
  have hn := published_narrates empty_orderly beats.reduceOption
  refine ⟨_, overheard_of_prompt hsub hlag, hn.latest, ?_, ?_⟩
  · intro d before a rest hd
    have hexact : Exact {} (before ++ a :: rest) := hd ▸ hn.exact d
    exact hexact.reports
  · exact apply_silent_iff (after_orderly empty_orderly _)

/-- A reader of a small buffer hears a master step down and come back. -/
theorem stepping_down_overheard :
    let c : Channel Announcement := { capacity := 2 }
    let beats : List (Option Op) := [some (.request ⟨"east"⟩ ⟨"of:1"⟩), none,
      some (.setRole ⟨"east"⟩ ⟨"of:1"⟩ .standby), none]
    let heard := ({} : Election).overheard c.subscribe.1 c.subscribe.2 beats
    (∀ n, .lagged n ∉ heard) ∧ ∃ as, heard = as.map .message ∧ as.length = 3 ∧
      Announcement.latest {} (about ⟨"of:1"⟩ as) = ⟨some ⟨"east"⟩, []⟩ := by
  intro c beats heard
  have hheard : heard = [⟨.master, ⟨"of:1"⟩, ⟨some ⟨"east"⟩, []⟩⟩,
      ⟨.master, ⟨"of:1"⟩, ⟨none, []⟩⟩,
      ⟨.master, ⟨"of:1"⟩, ⟨some ⟨"east"⟩, []⟩⟩].map .message := by decide +kernel
  have hlag : ∀ n, .lagged n ∉ heard := by simp [hheard]
  obtain ⟨as, has, hlatest, _⟩ := subscriber_hears_each_change c beats hlag
  refine ⟨hlag, as, has, ?_, ?_⟩
  · have hlength := congrArg List.length (has.symm.trans hheard)
    simpa using hlength
  · rw [hlatest]
    decide +kernel

end Election
end Mastership
