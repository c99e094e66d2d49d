import Mathlib.Algebra.GroupWithZero.Nat
import Mathlib.Algebra.Order.BigOperators.Group.Finset
import Mastership.Proofs.Reactions

namespace Mastership
namespace Audience

variable {a a' : Audience} {n : NodeId} {s : Site} {d : DeviceId} {x : Announcement}
  {rest : List Announcement}

/-- The members, each of which reacts as before. -/
def Similar (a a' : Audience) : Prop :=
  ∀ n, Option.Rel Site.Same (a.cluster.site? n) (a'.cluster.site? n)

/-- Some member of this name, with a property. -/
def Is (a : Audience) (P : Site → Prop) (n : NodeId) : Prop :=
  ∃ s, a.cluster.site? n = some s ∧ P s

theorem Similar.is_iff (h : Similar a a') {P : Site → Prop}
    (hP : ∀ s s', Site.Same s s' → (P s' ↔ P s)) (n : NodeId) : a'.Is P n ↔ a.Is P n := by
  have hn := h n
  unfold Is
  generalize a.cluster.site? n = o, a'.cluster.site? n = o' at hn
  cases hn with
  | none => simp
  | some hs => simpa using hP _ _ hs

theorem Delivers.similar (h : Delivers a n s x rest a') (hs : a.cluster.site? n = some s) :
    Similar a a' := by
  intro m
  rw [h.cluster]
  by_cases hm : m = n
  · subst hm
    rw [hs, Cluster.site?_setSite_self]
    exact .some h.hears.same
  · rw [Cluster.site?_setSite_of_ne _ hm]
    cases a.cluster.site? m with
    | none => exact .none
    | some t => exact .some ⟨rfl, fun _ => rfl, fun _ => rfl, fun _ => rfl, rfl, rfl⟩

theorem Delivers.lawful (h : Delivers a n s x rest a') (hl : World.Lawful ⟨a.cluster, []⟩)
    (hs : a.cluster.site? n = some s) : World.Lawful ⟨a'.cluster, []⟩ := by
  obtain ⟨ps, hd⟩ := h.hears.does
  rw [h.cluster]
  exact hl.setSite hs hd.id h.hears.truthful hd.election nofun

def members (a : Audience) : Finset NodeId := a.cluster.nodes.keys.toFinset

theorem mem_members : n ∈ a.members ↔ (a.cluster.site? n).isSome := by
  rw [members, List.mem_toFinset, Table.mem_keys]
  simp [Cluster.site?]

theorem Similar.isSome_iff (h : Similar a a') (n : NodeId) :
    (a'.cluster.site? n).isSome ↔ (a.cluster.site? n).isSome := by
  have hn := h n
  generalize a.cluster.site? n = o, a'.cluster.site? n = o' at hn
  cases hn <;> rfl

theorem Similar.members_eq (h : Similar a a') : a'.members = a.members := by
  ext n
  rw [mem_members, mem_members, h.isSome_iff]

open Classical in
/-- The members that are out of their places in the queue for a device. -/
noncomputable def astray (a : Audience) (d : DeviceId) : Finset NodeId :=
  a.members.filter (a.Is (·.Astray d (a.cluster.election.seat d).queue))

/-- What an announcement weighs in the mail: more than all that can be announced of the waiting
members when one member hears of a change of master. -/
def price (a : Audience) (x : Announcement) : Nat :=
  match x.kind with
  | .master => 2 * a.members.card + 1
  | .backups => 1

def cost (a : Audience) (xs : List Announcement) : Nat := (xs.map a.price).sum

/-- The weight of all mail. -/
def load (a : Audience) : Nat := ∑ n ∈ a.members, a.cost (a.mail n)

/-- More than all the mail that one delivery can cause. -/
def toll (a : Audience) : Nat := a.members.card * (2 * (2 * a.members.card + 1))

/-- What is left to do about some devices: the mail, and the members that are still to come to their
places. -/
noncomputable def debt (a : Audience) (ds : Finset DeviceId) : Nat :=
  a.load + a.toll * ∑ d ∈ ds, (a.astray d).card

theorem price_le (a : Audience) (x : Announcement) : a.price x ≤ 2 * a.members.card + 1 := by
  unfold price
  split <;> omega

theorem cost_le (a : Audience) (xs : List Announcement) {p : Nat} (h : ∀ x ∈ xs, a.price x ≤ p) :
    a.cost xs ≤ xs.length * p := by
  have := List.sum_le_card_nsmul (xs.map a.price) p (by simpa using h)
  simpa [cost] using this

theorem Delivers.load (h : Delivers a n s x rest a') (hs : a.cluster.site? n = some s)
    (hm : a.mail n = x :: rest) :
    a'.load + a.price x = a.load +
      a.members.card * a.cost (a.cluster.election.moves x.device (s.hearing x)).2 := by
  have hmem := (h.similar hs).members_eq
  have hcost : ∀ xs, a'.cost xs = a.cost xs := by
    intro xs
    have hp : a'.price = a.price := funext fun y => by simp only [price, hmem]
    rw [cost, cost, hp]
  have hn : n ∈ a.members := mem_members.mpr (by simp [hs])
  have happ : ∀ xs ys, a.cost (xs ++ ys) = a.cost xs + a.cost ys := by simp [cost]
  simp only [Audience.load, hmem, hcost, h.mail, happ, Finset.sum_add_distrib,
    Finset.sum_const, Nat.nsmul_eq_mul]
  rw [← Finset.add_sum_erase _ _ hn, ← Finset.add_sum_erase _ (fun m => a.cost (a.mail m)) hn,
    Function.update_self, hm]
  have hrest : ∑ m ∈ a.members.erase n, a.cost (Function.update a.mail n rest m) =
      ∑ m ∈ a.members.erase n, a.cost (a.mail m) :=
    Finset.sum_congr rfl fun m hm => by rw [Function.update_of_ne (Finset.ne_of_mem_erase hm)]
  rw [hrest]
  have hhead : a.cost (x :: rest) = a.price x + a.cost rest := by simp [cost]
  omega

theorem mem_astray :
    n ∈ a.astray d ↔ a.Is (·.Astray d (a.cluster.election.seat d).queue) n := by
  simp only [astray, Finset.mem_filter, mem_members]
  exact ⟨And.right, fun h => ⟨by obtain ⟨s, hs, _⟩ := h; simp [hs], h⟩⟩

theorem is_iff {P : Site → Prop} (hs : a.cluster.site? n = some s) : a.Is P n ↔ P s := by
  simp [Is, hs]

theorem astray_iff_of_queue (h : Similar a a') {m : NodeId}
    (hid : ∀ t, a.cluster.site? m = some t → t.node.id = m)
    (hq : m ∈ (a'.cluster.election.seat d).queue ↔ m ∈ (a.cluster.election.seat d).queue) :
    m ∈ a'.astray d ↔ m ∈ a.astray d := by
  rw [mem_astray, mem_astray]
  have hm := h m
  cases ht : a.cluster.site? m with
  | none =>
    rw [ht] at hm
    cases ht' : a'.cluster.site? m with
    | none => simp [Is, ht, ht']
    | some t' =>
      rw [ht'] at hm
      cases hm
  | some t =>
    rw [ht] at hm
    cases ht' : a'.cluster.site? m with
    | none =>
      rw [ht'] at hm
      cases hm
    | some t' =>
      rw [ht'] at hm
      obtain ⟨hsame⟩ := hm
      rw [is_iff ht, is_iff ht', Site.Astray, Site.Astray, hsame.asks_iff, hsame.leaves_iff, hsame.id,
        hid t ht, hq]

theorem Delivers.astray_self (h : Delivers a n s x rest a') : n ∈ a'.astray x.device ↔
    s.Astray x.device (a'.cluster.election.seat x.device).queue := by
  have hsame := h.hears.same
  have hs' : a'.cluster.site? n = some (s.heed x) := by
    rw [h.cluster, Cluster.site?_setSite_self]
  rw [mem_astray, is_iff hs', Site.Astray, Site.Astray, hsame.asks_iff, hsame.leaves_iff, hsame.id]

section Delivery

variable (h : Delivers a n s x rest a') (hl : World.Lawful ⟨a.cluster, []⟩)
  (hs : a.cluster.site? n = some s)

include h hl hs

theorem Delivers.queue_iff {m : NodeId} (hm : m ≠ n) (d' : DeviceId) :
    m ∈ (a'.cluster.election.seat d').queue ↔ m ∈ (a.cluster.election.seat d').queue := by
  rw [h.election]
  refine Election.mem_queue_moves_of_ne (n := n) ?_ hm d'
  intro move hmove
  rw [(s.hearing_reacts x).own move hmove, hl.id n s hs]

theorem Delivers.astray_ne {d' : DeviceId} (hd : d' ≠ x.device) : a'.astray d' = a.astray d' := by
  ext m
  refine astray_iff_of_queue (h.similar hs) (fun t => hl.id m t) ?_
  rw [h.election, Election.seat_moves_ne _ hd]

/-- A delivery sends nobody astray. -/
theorem Delivers.astray_subset : a'.astray x.device ⊆ a.astray x.device := by
  intro m hm
  by_cases hmn : m = n
  · subst hmn
    rw [h.astray_self, h.election] at hm
    rw [mem_astray, is_iff hs]
    exact (s.hearing_reacts x).astray hl.orderly hm
  · exact (astray_iff_of_queue (h.similar hs) (fun t => hl.id m t)
      (h.queue_iff hl hs hmn _)).mp hm

/-- What becomes known of a master is that of a member that has come to its place, or of one that
bounces a device for which nobody queues. -/
theorem Delivers.astray_ssubset {y : Announcement}
    (hy : y ∈ (a.cluster.election.moves x.device (s.hearing x)).2) (hk : y.kind = .master) :
    a'.astray x.device ⊂ a.astray x.device ∨
      s.Bounces x.device ∧ (a.cluster.election.seat x.device).queue = [] := by
  apply ((s.hearing_reacts x).master hl.orderly hy hk).imp_left
  rintro ⟨hb, hn⟩
  refine Finset.ssubset_iff_subset_ne.mpr ⟨h.astray_subset hl hs, fun he => hn ?_⟩
  have hmem : n ∈ a.astray x.device := by
    rw [mem_astray, is_iff hs]
    exact hb
  rw [← he, h.astray_self, h.election] at hmem
  exact hmem

theorem Delivers.card_astray_le (d : DeviceId) : (a'.astray d).card ≤ (a.astray d).card := by
  by_cases hd : d = x.device
  · subst hd
    exact Finset.card_le_card (h.astray_subset hl hs)
  · rw [h.astray_ne hl hs hd]

theorem Delivers.sum_astray_lt {ds : Finset DeviceId} (hx : x.device ∈ ds)
    (hlt : a'.astray x.device ⊂ a.astray x.device) :
    ∑ d ∈ ds, (a'.astray d).card < ∑ d ∈ ds, (a.astray d).card :=
  Finset.sum_lt_sum (fun d _ => h.card_astray_le hl hs d) ⟨x.device, hx, Finset.card_lt_card hlt⟩

omit h hl hs in
/-- Only announced changes of master make a member move. -/
theorem kind_of_announces {e : Election} {d : DeviceId} {y : Announcement}
    (hy : y ∈ (e.moves d (s.hearing x)).2) : x.kind = .master := by
  cases hk : x.kind with
  | master => rfl
  | backups => simp [Site.hearing, hk] at hy

/-- A delivery that makes no change of master known, unless a member comes to its place by it, lowers
what is left to do. -/
theorem Delivers.debt_lt {ds : Finset DeviceId} (hm : a.mail n = x :: rest)
    (hx : x.kind = .master → x.device ∈ ds)
    (hcase : ∀ y ∈ (a.cluster.election.moves x.device (s.hearing x)).2, y.kind = .master →
      a'.astray x.device ⊂ a.astray x.device) : a'.debt ds < a.debt ds := by
  have hload := h.load hs hm
  have htoll : a'.toll = a.toll := by simp only [toll, (h.similar hs).members_eq]
  have hsum : ∑ d ∈ ds, (a'.astray d).card ≤ ∑ d ∈ ds, (a.astray d).card :=
    Finset.sum_le_sum fun d _ => h.card_astray_le hl hs d
  have hlen := Nat.le_trans (Election.moves_length a.cluster.election x.device (s.hearing x))
    (s.hearing_reacts x).length_le
  simp only [debt, htoll]
  by_cases hk : ∃ y ∈ (a.cluster.election.moves x.device (s.hearing x)).2, y.kind = .master
  · obtain ⟨y, hy, hky⟩ := hk
    have hlt := h.sum_astray_lt hl hs (hx (kind_of_announces hy)) (hcase y hy hky)
    have hcost := a.cost_le (a.cluster.election.moves x.device (s.hearing x)).2
      fun z _ => a.price_le z
    have hpaid : a.members.card * a.cost (a.cluster.election.moves x.device (s.hearing x)).2 ≤
        a.toll :=
      Nat.mul_le_mul_left _ (Nat.le_trans hcost (Nat.mul_le_mul_right _ hlen))
    have htolls := Nat.mul_le_mul_left a.toll hlt
    have hprice : 0 < a.price x := by
      unfold price
      split <;> omega
    rw [Nat.mul_succ] at htolls
    omega
  · have htolls := Nat.mul_le_mul_left a.toll hsum
    have hcost := a.cost_le (a.cluster.election.moves x.device (s.hearing x)).2 (p := 1)
      fun z hz => by
        cases hz' : z.kind with
        | master => exact absurd ⟨z, hz, hz'⟩ hk
        | backups => simp [price, hz']
    cases hkx : x.kind with
    | backups =>
      have hquiet : s.hearing x = [] := by simp [Site.hearing, hkx]
      simp only [hquiet, Election.moves_nil, cost, List.map_nil, List.sum_nil, price, hkx] at hload
      omega
    | master =>
      have hpaid := Nat.mul_le_mul_left a.members.card (Nat.le_trans hcost
        (Nat.mul_le_mul_right 1 hlen))
      simp only [price, hkx] at hload
      omega

/-- Nobody bounces the device, or somebody who will not give it up queues for it. -/
def Held (a : Audience) (d : DeviceId) : Prop :=
  (∀ n, ¬ a.Is (·.Bounces d) n) ∨
    ∃ n ∈ (a.cluster.election.seat d).queue, a.Is (·.Asks d) n

/-- An announcement that makes a member ask for the device. -/
def Calls (n : NodeId) (d : DeviceId) (y : Announcement) : Prop :=
  y.kind = .master ∧ y.device = d ∧ y.standing.roleOf n = .none

/-- Somebody has yet to hear that the device is to be asked for. -/
def Called (a : Audience) (d : DeviceId) : Prop :=
  ∃ n, a.Is (·.Asks d) n ∧ ∃ y ∈ a.mail n, Calls n d y

/-- A member bounces a device for which nobody queues and nobody will stay, and is yet to hear that it
has no place in the queue. -/
structure Spins (d : DeviceId) (n : NodeId) (a : Audience) : Prop where
  bounces : a.Is (·.Bounces d) n
  alone : ∀ m, ¬ a.Is (·.Asks d) m
  queue : (a.cluster.election.seat d).queue = []
  called : ∃ y ∈ a.mail n, Calls n d y

omit h hl hs in
/-- Who bounces a device without a master makes something known only when told to ask for it. -/
theorem calls_of_announces (hb : s.Bounces x.device) {e : Election}
    (hq : (e.seat x.device).queue = []) (hid : s.node.id = n) {y : Announcement}
    (hy : y ∈ (e.moves x.device (s.hearing x)).2) : Calls n x.device x := by
  have hkx := kind_of_announces hy
  refine ⟨hkx, rfl, ?_⟩
  by_contra hr
  rw [← hid] at hr
  rw [hb.hearing rfl hkx, if_neg hr, List.nil_append, Site.relinquish_outside (by simp [hq])] at hy
  cases hy

omit hl in
theorem Delivers.asks_iff (m : NodeId) (d : DeviceId) :
    a'.Is (·.Asks d) m ↔ a.Is (·.Asks d) m :=
  (h.similar hs).is_iff (fun _ _ hsame => hsame.asks_iff d) m

omit hl in
theorem Delivers.bounces_iff (m : NodeId) (d : DeviceId) :
    a'.Is (·.Bounces d) m ↔ a.Is (·.Bounces d) m :=
  (h.similar hs).is_iff (fun _ _ hsame => hsame.bounces_iff d) m

/-- Whoever asks for a device stays in the queue. -/
theorem Delivers.keeps_place {m : NodeId} (hm : a.Is (·.Asks d) m)
    (hq : m ∈ (a.cluster.election.seat d).queue) : m ∈ (a'.cluster.election.seat d).queue := by
  by_cases hmn : m = n
  · subst hmn
    have ha := (is_iff hs).mp hm
    by_cases hd : d = x.device
    · subst hd
      have hid := hl.id m s hs
      rw [h.election]
      cases hk : x.kind with
      | backups => simpa [Site.hearing, hk] using hq
      | master =>
        rw [ha.hearing rfl hk, hid]
        split
        · rw [Site.request_outside hl.orderly hq]
          exact hq
        · exact hq
    · rw [h.election, Election.seat_moves_ne _ hd]
      exact hq
  · exact (h.queue_iff hl hs hmn d).mpr hq

theorem Delivers.held (hd : a.Held d) : a'.Held d := by
  rcases hd with hd | ⟨m, hq, hm⟩
  · exact .inl fun m hm => hd m ((h.bounces_iff hs m d).mp hm)
  · exact .inr ⟨m, h.keeps_place hl hs hm hq, (h.asks_iff hs m d).mpr hm⟩

/-- A member that hears that it is to ask for the device holds it. -/
theorem Delivers.held_of_calls (ha : s.Asks d) (hc : Calls n d x) : a'.Held d := by
  obtain ⟨hk, hd, hr⟩ := hc
  subst hd
  have hid := hl.id n s hs
  refine .inr ⟨n, ?_, (h.asks_iff hs n _).mpr ((is_iff hs).mpr ha)⟩
  rw [h.election, ha.hearing rfl hk, hid, if_pos hr, Election.moves_singleton,
    Election.seat_move_self]
  exact (Seat.request_queued _ n).2

omit hl hs in
/-- What a delivery leaves in the mail of a member: all but the announcement that is heard. -/
theorem Delivers.getElem?_mail (hm : a.mail n = x :: rest) {m : NodeId} {i : Nat}
    {y : Announcement} (hy : (a.mail m)[i]? = some y) :
    m ≠ n ∧ (a'.mail m)[i]? = some y ∨ m = n ∧
      (i = 0 ∧ y = x ∨ ∃ j, i = j + 1 ∧ (a'.mail m)[j]? = some y) := by
  by_cases hmn : m = n
  · subst hmn
    refine .inr ⟨rfl, ?_⟩
    rw [hm] at hy
    cases i with
    | zero => exact .inl ⟨rfl, by simpa using hy.symm⟩
    | succ j =>
      refine .inr ⟨j, rfl, ?_⟩
      have hj : rest[j]? = some y := by simpa using hy
      rw [h.mail, Function.update_self, List.getElem?_append_left]
      · exact hj
      · exact (List.getElem?_eq_some_iff.mp hj).1
  · refine .inl ⟨hmn, ?_⟩
    rw [h.mail, Function.update_of_ne hmn, List.getElem?_append_left]
    · exact hy
    · exact (List.getElem?_eq_some_iff.mp hy).1

theorem Delivers.held_or_called (hm : a.mail n = x :: rest) (hc : a.Called d) :
    a'.Held d ∨ a'.Called d := by
  obtain ⟨m, ha, y, hy, hcall⟩ := hc
  obtain ⟨i, hi⟩ := List.mem_iff_getElem?.mp hy
  rcases h.getElem?_mail hm hi with ⟨_, hi'⟩ | ⟨rfl, ⟨_, rfl⟩ | ⟨j, _, hj⟩⟩
  · exact .inr ⟨m, (h.asks_iff hs m d).mpr ha, y, List.mem_of_getElem? hi', hcall⟩
  · exact .inl (h.held_of_calls hl hs ((is_iff hs).mp ha) hcall)
  · exact .inr ⟨m, (h.asks_iff hs m d).mpr ha, y, List.mem_of_getElem? hj, hcall⟩

/-- A change of master that nobody who asks for the device queues for calls them all. -/
theorem Delivers.called {m : NodeId} (hnot : ¬ a.Held x.device) (hm : a.Is (·.Asks x.device) m)
    (hn : ¬ s.Asks x.device) {y : Announcement}
    (hy : y ∈ (a.cluster.election.moves x.device (s.hearing x)).2) (hk : y.kind = .master) :
    a'.Called x.device := by
  refine ⟨m, (h.asks_iff hs m _).mpr hm, y, ?_, hk, Election.moves_about hy, ?_⟩
  · rw [h.mail]
    exact List.mem_append_right _ hy
  · by_contra hr
    rcases Election.mem_moves_standing hy hr with hq | ⟨move, hmove, rfl⟩
    · exact hnot (.inr ⟨m, hq, hm⟩)
    · rw [(s.hearing_reacts x).own move hmove, hl.id n s hs, is_iff hs] at hm
      exact hn hm

open Classical in
/-- How far a device is from being held: it is held, somebody is called to it, or neither. -/
noncomputable def rank (a : Audience) (d : DeviceId) : Nat :=
  if a.Held d then 0 else if a.Called d then 1 else 2

omit h hl hs in
theorem rank_of_held (hd : a.Held d) : a.rank d = 0 := if_pos hd

omit h hl hs in
theorem rank_pos (hd : ¬ a.Held d) : 0 < a.rank d := by
  rw [rank, if_neg hd]
  split <;> omega

omit h hl hs in
theorem rank_le_one (hd : a.Held d ∨ a.Called d) : a.rank d ≤ 1 := by
  rw [rank]
  split
  · omega
  · next hn =>
    rw [if_pos (hd.resolve_left hn)]

theorem Delivers.rank_le (hm : a.mail n = x :: rest) (d : DeviceId) : a'.rank d ≤ a.rank d := by
  by_cases hd : a.Held d
  · rw [rank_of_held (h.held hl hs hd)]
    exact Nat.zero_le _
  · by_cases hc : a.Called d
    · exact Nat.le_trans (rank_le_one (h.held_or_called hl hs hm hc)) (rank_pos hd)
    · rw [rank.eq_def a d, if_neg hd, if_neg hc, rank]
      split
      · omega
      · split <;> omega

/-- How far some devices are from being held, all in all. -/
noncomputable def hazard (a : Audience) (ds : Finset DeviceId) : Nat := ∑ d ∈ ds, a.rank d

theorem Delivers.hazard_le (hm : a.mail n = x :: rest) (ds : Finset DeviceId) :
    a'.hazard ds ≤ a.hazard ds :=
  Finset.sum_le_sum fun d _ => h.rank_le hl hs hm d

theorem Delivers.hazard_lt (hm : a.mail n = x :: rest) {ds : Finset DeviceId} (hd : d ∈ ds)
    (hlt : a'.rank d < a.rank d) : a'.hazard ds < a.hazard ds :=
  Finset.sum_lt_sum (fun d _ => h.rank_le hl hs hm d) ⟨d, hd, hlt⟩

/-- While nobody is called to the device that is heard of, hearing of it brings a device nearer to
being held, or leaves less to do, unless it is given up and asked for in turns. -/
theorem Delivers.progress (hm : a.mail n = x :: rest) {ds : Finset DeviceId}
    (hx : x.kind = .master → x.device ∈ ds) (hspin : ¬ Spins x.device n a)
    (hcalled : x.kind = .master → a.rank x.device ≠ 1) :
    a'.hazard ds < a.hazard ds ∨ a'.hazard ds ≤ a.hazard ds ∧ a'.debt ds < a.debt ds := by
  have hle := h.hazard_le hl hs hm ds
  by_cases hcase : ∀ y ∈ (a.cluster.election.moves x.device (s.hearing x)).2, y.kind = .master →
      a'.astray x.device ⊂ a.astray x.device
  · exact .inr ⟨hle, h.debt_lt hl hs hm hx hcase⟩
  · simp only [not_forall] at hcase
    obtain ⟨y, hy, hky, hkept⟩ := hcase
    obtain ⟨hb, hqueue⟩ := (h.astray_ssubset hl hs hy hky).resolve_left hkept
    have hcalls := calls_of_announces hb hqueue (hl.id n s hs) hy
    obtain ⟨m, hma⟩ : ∃ m, a.Is (·.Asks x.device) m := by
      by_contra halone
      exact hspin ⟨(is_iff hs).mpr hb, not_exists.mp halone, hqueue, x, by simp [hm], hcalls⟩
    have hnot : ¬ a.Held x.device := by
      rintro (hnone | ⟨k, hk, _⟩)
      · exact hnone n ((is_iff hs).mpr hb)
      · rw [hqueue] at hk
        cases hk
    have hnc : ¬ a.Called x.device := fun hc =>
      hcalled hcalls.1 (by rw [rank, if_neg hnot, if_pos hc])
    have hc := h.called hl hs hnot hma (fun ha => ha.not_leaves hb.leaves) hy hky
    refine .inl (h.hazard_lt hl hs hm (hx hcalls.1) ?_)
    rw [rank.eq_def a, if_neg hnot, if_neg hnc]
    exact Nat.lt_succ_of_le (rank_le_one (.inr hc))

end Delivery

/-- What comes of deliveries to the members named, in turn. -/
def after (a : Audience) (turn : Nat → NodeId) : Nat → Audience
  | 0 => a
  | k + 1 => (a.after turn k).deliver (turn k)

/-- Turns of the members, each of which has its turn again and again. -/
structure Fair (a : Audience) (turn : Nat → NodeId) : Prop where
  member : ∀ i, (a.cluster.site? (turn i)).isSome
  recurs : ∀ n, (a.cluster.site? n).isSome → ∀ i, ∃ j, i ≤ j ∧ turn j = n

/-- The members know themselves and the election's terms, and what they have yet to hear of masters is
about some devices. -/
structure Settling (ds : Finset DeviceId) (a : Audience) : Prop where
  lawful : World.Lawful ⟨a.cluster, []⟩
  mail : ∀ n, (a.cluster.site? n).isSome → ∀ y ∈ a.mail n, y.kind = .master → y.device ∈ ds

/-- Whichever of some devices a member bounces another member asks for. -/
def Taken (ds : Finset DeviceId) (a : Audience) : Prop :=
  ∀ d ∈ ds, (∃ n, a.Is (·.Bounces d) n) → ∃ n, a.Is (·.Asks d) n

variable {ds : Finset DeviceId} {turn : Nat → NodeId}

theorem after_add (a : Audience) (turn : Nat → NodeId) (k l : Nat) :
    a.after turn (k + l) = (a.after turn k).after (fun i => turn (k + i)) l := by
  induction l with
  | zero => rfl
  | succ l ih => rw [← Nat.add_assoc, after, after, ih]

/-- A delivery to a member either finds no mail, or comes to what `Delivers` says. -/
theorem deliver_cases (hl : World.Lawful ⟨a.cluster, []⟩) (hn : (a.cluster.site? n).isSome) :
    a.mail n = [] ∧ a.deliver n = a ∨
      ∃ s x rest, a.cluster.site? n = some s ∧ a.mail n = x :: rest ∧
        Delivers a n s x rest (a.deliver n) := by
  obtain ⟨s, hs⟩ := Option.isSome_iff_exists.mp hn
  cases hm : a.mail n with
  | nil => exact .inl ⟨rfl, deliver_empty hm⟩
  | cons x rest => exact .inr ⟨s, x, rest, hs, rfl, deliver_delivers (hl.truthful n s hs) hs hm⟩

theorem Delivers.settling (h : Delivers a n s x rest a') (hset : Settling ds a)
    (hs : a.cluster.site? n = some s) (hm : a.mail n = x :: rest) : Settling ds a' := by
  refine ⟨h.lawful hset.lawful hs, ?_⟩
  intro m hmem y hy hky
  rw [(h.similar hs).isSome_iff] at hmem
  rw [h.mail, List.mem_append] at hy
  rcases hy with hy | hy
  · by_cases hmn : m = n
    · subst hmn
      rw [Function.update_self] at hy
      exact hset.mail m hmem y (by simp [hm, hy]) hky
    · rw [Function.update_of_ne hmn] at hy
      exact hset.mail m hmem y hy hky
  · rw [Election.moves_about hy]
    exact hset.mail n (by simp [hs]) x (by simp [hm]) (kind_of_announces hy)

theorem Delivers.taken (h : Delivers a n s x rest a') (ht : Taken ds a)
    (hs : a.cluster.site? n = some s) : Taken ds a' := by
  rintro d hd ⟨m, hm⟩
  obtain ⟨m', hm'⟩ := ht d hd ⟨m, (h.bounces_iff hs m d).mp hm⟩
  exact ⟨m', (h.asks_iff hs m' d).mpr hm'⟩

theorem Fair.after (h : Fair a turn) (hsim : Similar a a') (k : Nat) :
    Fair a' (fun i => turn (k + i)) := by
  refine ⟨fun i => (hsim.isSome_iff _).mpr (h.member _), ?_⟩
  intro m hm i
  obtain ⟨j, hj, hturn⟩ := h.recurs m ((hsim.isSome_iff m).mp hm) (k + i)
  exact ⟨j - k, by omega, by rw [show k + (j - k) = j by omega]; exact hturn⟩

theorem Similar.refl (a : Audience) : Similar a a := by
  intro n
  cases a.cluster.site? n with
  | none => exact .none
  | some s => exact .some ⟨rfl, fun _ => rfl, fun _ => rfl, fun _ => rfl, rfl, rfl⟩

/-- What one turn does, whether or not there is mail. -/
theorem Settling.deliver (hset : Settling ds a) (hf : Fair a turn) :
    Settling ds (a.deliver (turn 0)) ∧ Fair (a.deliver (turn 0)) (fun i => turn (1 + i)) ∧
      (a.deliver (turn 0)).hazard ds ≤ a.hazard ds := by
  rcases deliver_cases hset.lawful (hf.member 0) with ⟨_, he⟩ | ⟨s, x, rest, hs, hm, hd⟩
  · rw [he]
    exact ⟨hset, hf.after (.refl a) 1, Nat.le_refl _⟩
  · exact ⟨hd.settling hset hs hm, hf.after (hd.similar hs) 1, hd.hazard_le hset.lawful hs hm ds⟩

theorem Settling.after (hset : Settling ds a) (hf : Fair a turn) (k : Nat) :
    Settling ds (a.after turn k) ∧ Fair (a.after turn k) (fun i => turn (k + i)) := by
  induction k with
  | zero => exact ⟨hset, by simpa [Audience.after] using hf⟩
  | succ k ih =>
    obtain ⟨hs, hf', _⟩ := ih.1.deliver ih.2
    refine ⟨by simpa [Audience.after] using hs, ?_⟩
    have heq : (fun i => turn (k + (1 + i))) = fun i => turn (k + 1 + i) :=
      funext fun i => by rw [Nat.add_assoc]
    rw [heq] at hf'
    simpa [Audience.after] using hf'

theorem after_first (a : Audience) (turn : Nat → NodeId) (k : Nat) :
    (a.deliver (turn 0)).after (fun i => turn (1 + i)) k = a.after turn (1 + k) := by
  rw [after_add]
  rfl

/-- One turn while a member is called to a device: the device is held, or the announcement that calls
the member moves up if it was the member's turn, and stays in its place if not. -/
theorem Settling.turn_toward {m : NodeId} {y : Announcement} {i : Nat} (hset : Settling ds a)
    (hf : Fair a turn) (hd : d ∈ ds) (hnot : ¬ a.Held d) (hm : a.Is (·.Asks d) m)
    (hy : Calls m d y) (hi : (a.mail m)[i]? = some y) :
    (a.deliver (turn 0)).hazard ds < a.hazard ds ∨
      ¬ (a.deliver (turn 0)).Held d ∧ (a.deliver (turn 0)).Is (·.Asks d) m ∧
        (turn 0 ≠ m ∧ ((a.deliver (turn 0)).mail m)[i]? = some y ∨
          ∃ i', i = i' + 1 ∧ ((a.deliver (turn 0)).mail m)[i']? = some y) := by
  rcases deliver_cases hset.lawful (hf.member 0) with ⟨hempty, he⟩ | ⟨s, x, rest, hs, hmail, hdel⟩
  · rw [he]
    refine .inr ⟨hnot, hm, .inl ⟨?_, hi⟩⟩
    rintro rfl
    rw [hempty] at hi
    cases hi
  · by_cases hheld : (a.deliver (turn 0)).Held d
    · refine .inl (hdel.hazard_lt hset.lawful hs hmail hd ?_)
      rw [rank_of_held hheld]
      exact rank_pos hnot
    · refine .inr ⟨hheld, (hdel.asks_iff hs m d).mpr hm, ?_⟩
      rcases hdel.getElem?_mail hmail hi with ⟨hne, hi'⟩ | ⟨rfl, ⟨_, rfl⟩ | ⟨i', hii, hi'⟩⟩
      · exact .inl ⟨hne.symm, hi'⟩
      · exact absurd (hdel.held_of_calls hset.lawful hs ((is_iff hs).mp hm) hy) hheld
      · exact .inr ⟨i', hii, hi'⟩

/-- A member that is called to a device comes to the announcement that calls it. -/
theorem Settling.hazard_falls {m : NodeId} {y : Announcement} (hd : d ∈ ds) (hy : Calls m d y)
    (i j : Nat) {a : Audience} {turn : Nat → NodeId} (hset : Settling ds a) (hf : Fair a turn)
    (hnot : ¬ a.Held d) (hm : a.Is (·.Asks d) m) (hi : (a.mail m)[i]? = some y)
    (hj : turn j = m) : ∃ k, (a.after turn k).hazard ds < a.hazard ds := by
  obtain ⟨hset', hf', hle⟩ := hset.deliver hf
  rcases hset.turn_toward hf hd hnot hm hy hi with hlt | ⟨hnot', hm', ⟨hne, hi'⟩ | ⟨i', hii, hi'⟩⟩
  · exact ⟨1, hlt⟩
  · cases j with
    | zero => exact absurd hj hne
    | succ j =>
      rw [Nat.add_comm] at hj
      obtain ⟨k, hk⟩ := hazard_falls hd hy i j hset' hf' hnot' hm' hi' hj
      rw [after_first] at hk
      exact ⟨1 + k, Nat.lt_of_lt_of_le hk hle⟩
  · obtain ⟨t, ht, _⟩ := hm'
    obtain ⟨j', _, hj'⟩ := hf'.recurs m (by simp [ht]) 0
    obtain ⟨k, hk⟩ := hazard_falls hd hy i' j' hset' hf' hnot' ⟨t, ht, ‹_›⟩ hi' hj'
    rw [after_first] at hk
    exact ⟨1 + k, Nat.lt_of_lt_of_le hk hle⟩
termination_by (i, j)

/-- As long as nobody has mail when it is their turn, nothing happens. -/
theorem after_idle (a : Audience) (turn : Nat → NodeId) {k : Nat}
    (h : ∀ j < k, a.mail (turn j) = []) : a.after turn k = a := by
  induction k with
  | zero => rfl
  | succ k ih =>
    rw [after, ih fun j hj => h j (Nat.lt_succ_of_lt hj)]
    exact deliver_empty (h k (Nat.lt_succ_self k))

/-- While there is mail, some turn brings a device nearer to being held, or leaves less to do, unless a
device spins. So there are two measures, of which the first falls or the second does. -/
theorem Settling.falls (hset : Settling ds a) (hf : Fair a turn)
    (hspin : ∀ d n, ¬ Spins d n a) (hq : ¬ a.Quiet) :
    ∃ k, (a.after turn k).hazard ds < a.hazard ds ∨
      (a.after turn k).hazard ds ≤ a.hazard ds ∧ (a.after turn k).debt ds < a.debt ds := by
  by_cases hcalled : ∃ d ∈ ds, a.rank d = 1
  · obtain ⟨d, hd, hr⟩ := hcalled
    have hnot : ¬ a.Held d := fun hheld => by
      rw [rank_of_held hheld] at hr
      cases hr
    obtain ⟨m, hm, y, hmem, hy⟩ : a.Called d := by
      by_contra hc
      rw [rank, if_neg hnot, if_neg hc] at hr
      cases hr
    obtain ⟨i, hi⟩ := List.mem_iff_getElem?.mp hmem
    obtain ⟨t, ht, ha⟩ := hm
    obtain ⟨j, _, hj⟩ := hf.recurs m (by simp [ht]) 0
    obtain ⟨k, hk⟩ := hset.hazard_falls hd hy i j hf hnot ⟨t, ht, ha⟩ hi hj
    exact ⟨k, .inl hk⟩
  · simp only [Quiet, not_forall] at hq
    obtain ⟨n, s, hs, hne⟩ := hq
    obtain ⟨j, _, hj⟩ := hf.recurs n (by simp [hs]) 0
    classical
    have hex : ∃ j, a.mail (turn j) ≠ [] := ⟨j, hj.symm ▸ hne⟩
    have hidle := a.after_idle turn (k := Nat.find hex) fun j hlt => by
      by_contra hne
      exact Nat.find_min hex hlt hne
    refine ⟨Nat.find hex + 1, ?_⟩
    rw [Audience.after, hidle]
    rcases deliver_cases hset.lawful (hf.member (Nat.find hex)) with
      ⟨he, _⟩ | ⟨s, x, rest, hs, hmail, hdel⟩
    · exact absurd he (Nat.find_spec hex)
    · have hx := hset.mail _ (hf.member _) x (hmail ▸ List.mem_cons_self)
      exact hdel.progress hset.lawful hs hmail hx (hspin x.device _) fun hk hr =>
        hcalled ⟨x.device, hx hk, hr⟩

/-- Unless a device comes to spin, there will be a moment when nobody has mail. -/
theorem Settling.settles {a : Audience} {turn : Nat → NodeId} (hset : Settling ds a)
    (hf : Fair a turn) (hspin : ∀ k d n, ¬ Spins d n (a.after turn k)) :
    ∃ k, (a.after turn k).Quiet := by
  by_cases hq : a.Quiet
  · exact ⟨0, hq⟩
  · obtain ⟨k, hk⟩ := hset.falls hf (hspin 0) hq
    obtain ⟨hset', hf'⟩ := hset.after hf k
    obtain ⟨l, hl⟩ := settles hset' hf' fun l => by
      rw [← after_add]
      exact hspin (k + l)
    exact ⟨k + l, by rw [after_add]; exact hl⟩
termination_by (a.hazard ds, a.debt ds)
decreasing_by
  rcases hk with hlt | ⟨hle, hlt⟩
  · exact Prod.Lex.left _ _ hlt
  · rcases Nat.lt_or_eq_of_le hle with hlt' | heq
    · exact Prod.Lex.left _ _ hlt'
    · rw [heq]
      exact Prod.Lex.right _ hlt

/-- What each delivery keeps is kept by turns. -/
theorem Settling.keeps {P : Audience → Prop} (hset : Settling ds a) (hf : Fair a turn)
    (hstep : ∀ {a a' n s x rest}, Settling ds a → a.cluster.site? n = some s →
      a.mail n = x :: rest → Delivers a n s x rest a' → P a → P a') (h : P a) (k : Nat) :
    P (a.after turn k) := by
  induction k with
  | zero => exact h
  | succ k ih =>
    obtain ⟨hset', hf'⟩ := hset.after hf k
    rcases deliver_cases hset'.lawful (hf'.member 0) with ⟨_, he⟩ | ⟨s, x, rest, hs, hm, hdel⟩
    · rw [Audience.after, show turn k = turn (k + 0) from rfl, he]
      exact ih
    · exact hstep hset' hs hm hdel ih

theorem Settling.taken_after (hset : Settling ds a) (hf : Fair a turn) (ht : Taken ds a) (k : Nat) :
    Taken ds (a.after turn k) :=
  hset.keeps hf (fun _ hs _ hdel h => hdel.taken h hs) ht k

/-- What the members can hear of masters is about finitely many devices. -/
theorem settling_of_lawful {c : Cluster} (hl : World.Lawful ⟨c, []⟩)
    (mail : NodeId → List Announcement) :
    ∃ ds, Settling ds ⟨c, mail⟩ ∧ ∀ d ∈ ds, ∃ n, (c.site? n).isSome ∧
      ∃ x ∈ mail n, x.kind = .master ∧ x.device = d := by
  let a : Audience := ⟨c, mail⟩
  refine ⟨a.members.biUnion fun n =>
    (((mail n).filter (·.kind = .master)).map Announcement.device).toFinset, ⟨hl, ?_⟩, ?_⟩
  · intro n hn y hy hk
    refine Finset.mem_biUnion.mpr ⟨n, mem_members.mpr hn, List.mem_toFinset.mpr ?_⟩
    exact List.mem_map_of_mem (List.mem_filter.mpr ⟨hy, decide_eq_true hk⟩)
  · intro d hd
    obtain ⟨n, hn, hdn⟩ := Finset.mem_biUnion.mp hd
    obtain ⟨x, hx, rfl⟩ := List.mem_map.mp (List.mem_toFinset.mp hdn)
    obtain ⟨hx, hk⟩ := List.mem_filter.mp hx
    exact ⟨n, mem_members.mp hn, x, hx, of_decide_eq_true hk, rfl⟩

end Audience
end Mastership
