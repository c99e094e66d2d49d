import Mastership.Proofs.Audience
import Mastership.Proofs.Service

namespace Mastership
namespace Announcement

/-- Announcements that are yet to be heard tell who is master, unless they are silent about it. -/
def Tells (d : DeviceId) (m : Option NodeId) (as : List Announcement) : Prop :=
  Silent d as ∨ ∀ before, told d before as = m

theorem Tells.tail {d : DeviceId} {m : Option NodeId} {a : Announcement} {as : List Announcement}
    (h : Tells d m (a :: as)) : Tells d m as := by
  by_cases hs : Silent d as
  · exact .inl hs
  · refine .inr ?_
    intro before
    rcases h with h | h
    · exact absurd (fun b hb => h b (List.mem_cons_of_mem a hb)) hs
    · rw [← h none]
      exact told_of_not_silent hs _ _

/-- The last announcement that is of a device's master tells who it is now. -/
theorem Tells.head {d : DeviceId} {m : Option NodeId} {a : Announcement} {as : List Announcement}
    (h : Tells d m (a :: as)) (hk : a.kind = .master) (hd : a.device = d) (hs : Silent d as) :
    a.standing.master = m := by
  rcases h with h | h
  · exact absurd hd (h a List.mem_cons_self hk)
  · have ht := h none
    rw [told, List.foldl_cons, if_pos ⟨hk, hd⟩] at ht
    exact (told_of_silent hs).symm.trans ht

theorem Tells.moves {d d' : DeviceId} {e : Election} {as : List Announcement}
    (h : Tells d' (e.master? d') as) (ms : List Seat.Move) :
    Tells d' ((e.moves d ms).1.master? d') (as ++ (e.moves d ms).2) := by
  by_cases hs : Silent d' (e.moves d ms).2
  · rw [Election.master_moves_of_silent hs]
    rcases h with h | h
    · exact .inl (silent_append.mpr ⟨h, hs⟩)
    · refine .inr ?_
      intro before
      rw [told_append, told_of_silent hs, h]
  · refine .inr ?_
    intro before
    rw [told_append, told_of_not_silent hs _ (e.seat d').master, Election.told_moves]
    rfl

/-- A standing that is announced as of the master has nobody waiting if it has no master. -/
def Led (a : Announcement) : Prop :=
  a.kind = .master → a.standing.master = none → a.standing.backups = []

end Announcement

open Announcement

namespace Site

variable {d : DeviceId} {ms : List Seat.Move} {s s' : Site}

/-- What a controller does about a device is what the election says. -/
structure Agrees (s : Site) (d : DeviceId) : Prop where
  led : s.reachable? d = some true → s.election.master? d ≠ none
  master : s.election.master? d = some s.node.id →
    s.reachable? d = some true ∧ s.applied d = .master
  alone : s.applied d = .master → s.election.master? d = some s.node.id

/-- A reached device is stored, and only a reached device has a role. -/
structure Steady (s : Site) (d : DeviceId) : Prop where
  stored : s.reachable? d = some true → s.stored d = true
  applied : s.applied d ≠ .none → s.reachable? d = some true

theorem Agrees.of_eq (h : s.Agrees d) (hid : s'.node.id = s.node.id)
    (he : s'.election.master? d = s.election.master? d)
    (hr : s'.reachable? d = s.reachable? d) (ha : s'.applied d = s.applied d) : s'.Agrees d :=
  ⟨by rw [hr, he]; exact h.led, by rw [he, hid, hr, ha]; exact h.master,
    by rw [ha, he, hid]; exact h.alone⟩

theorem Steady.of_eq (h : s.Steady d) (hr : s'.reachable? d = s.reachable? d)
    (hs : s'.stored d = s.stored d) (ha : s'.applied d = s.applied d) : s'.Steady d :=
  ⟨by rw [hr, hs]; exact h.stored, by rw [hr, ha]; exact h.applied⟩

/-- A device out of reach, given up by a controller that is not its master. -/
theorem agrees_of_away (hr : s.reachable? d = some false)
    (hm : s.election.master? d ≠ some s.node.id) (ha : s.applied d = .none) : s.Agrees d :=
  ⟨by simp [hr], fun h => absurd h hm, by simp [ha]⟩

/-- A reached device whose master is known and that was given the role that fits. -/
theorem agrees_of_target (requested : Role) (hr : s.reachable? d = some true)
    (hm : s.election.master? d ≠ none)
    (hq : s.election.master? d = some s.node.id → requested ≠ .standby)
    (ha : s.applied d =
      targetRole requested (decide (s.election.master? d = some s.node.id))) : s.Agrees d := by
  refine ⟨fun _ => hm, fun h => ⟨hr, ?_⟩, ?_⟩
  · rw [ha]
    simp [targetRole, hq h, h]
  · intro h
    rw [ha] at h
    simp only [targetRole] at h
    split at h
    · next hc => simpa using hc.2
    · cases h

/-- An operation about `d` leaves a controller in good service, and in agreement with the election
if it was and no change of the master was announced. -/
structure Behaves (d : DeviceId) (ms : List Seat.Move) (s s' : Site) : Prop where
  affects : s.Affects d ms s'
  calm : s'.Calm
  steady : s'.Steady d
  agrees : Silent d (s.election.moves d ms).2 → s.Agrees d → s'.Agrees d

theorem Calm.behaves_refl (h : s.Calm) (hst : s.Steady d) : Behaves d [] s s :=
  ⟨(Does.refl d s).affects, h, hst, fun _ ha => ha⟩

theorem master_of_request (e : Election) (d : DeviceId) (n : NodeId) :
    (e.moves d [.request n]).1.master? d ≠ none := by
  rw [Election.moves_singleton, Election.master?, Election.seat_move_self]
  exact (Seat.request_queued _ n).1

theorem master_of_relinquish {e : Election} (h : ∀ d, (e.seat d).Orderly) (d : DeviceId)
    (ms : List Seat.Move) (n : NodeId) :
    (e.moves d (ms ++ [.relinquish n])).1.master? d ≠ some n := by
  rw [Election.moves_append, Election.moves_singleton, Election.master?, Election.seat_move_self]
  intro hm
  exact Seat.relinquish_not_mem (Election.moves_orderly h d ms d) n (Seat.mem_queue.mpr (.inl hm))

theorem Calm.attach_behaves (h : s.Calm) (hst : s.Steady d) (description : DeviceDescription) :
    ∃ ms, Behaves d ms s (s.attach d description) := by
  rcases h.attach d description with he | ⟨ha, hc, hr, hs, happ⟩
  · exact ⟨[], he.symm ▸ h.behaves_refl hst⟩
  · refine ⟨_, ha, hc, ⟨fun _ => hs, fun _ => hr⟩, ?_⟩
    intro _ _
    refine agrees_of_target .none hr ?_ (by simp) (by rw [happ, ha.id])
    rw [ha.election]
    exact master_of_request _ d _

theorem Calm.detach_behaves (h : s.Calm) (ho : ∀ d, (s.election.seat d).Orderly)
    (hst : s.Steady d) : ∃ ms, Behaves d ms s (s.detach d) := by
  rcases h.detach d with ⟨he, _⟩ | ⟨⟨ms, ha⟩, hc, hr, happ⟩
  · exact ⟨[], he.symm ▸ h.behaves_refl hst⟩
  · refine ⟨_, ha, hc, ⟨by simp [hr], by simp [happ]⟩, fun _ _ => agrees_of_away hr ?_ happ⟩
    rw [ha.election, ha.id]
    exact master_of_relinquish ho d ms _

theorem Calm.relinquish_behaves (h : s.Calm) (ho : ∀ d, (s.election.seat d).Orderly)
    (hst : s.Steady d) : Behaves d [.relinquish s.node.id] s (s.relinquish d) := by
  have hd := relinquish_does s d
  rw [h.withdrawals_eq] at hd
  have happ := relinquish_applied s d
  have hm : (s.relinquish d).election.master? d ≠ some s.node.id := by
    rw [hd.election]
    exact master_of_relinquish ho d [] _
  refine ⟨hd.affects, hd.calm h (h.truthful.relinquish d), ?_, ?_⟩
  · refine ⟨?_, by simp [happ]⟩
    intro hr
    rw [stored_of_replica (relinquish_replica s d)]
    exact hst.stored (hd.reachable? d ▸ hr)
  · intro hs ha
    refine ⟨?_, fun hn => absurd (hd.id ▸ hn) hm, by simp [happ]⟩
    intro hr
    rw [hd.election, Election.master_moves_of_silent hs]
    exact ha.led (hd.reachable? d ▸ hr)

theorem Calm.roleReply_behaves (h : s.Calm) (ho : ∀ d, (s.election.seat d).Orderly)
    (hst : s.Steady d) (slot : Nat) (requested response : Option Role) :
    ∃ ms, Behaves d ms s (s.roleReply slot d requested response).1 := by
  simp only [roleReply, guarded]
  split
  · exact ⟨[], h.behaves_refl hst⟩
  · rcases roleReplied_eq s d requested response with hr | hr <;> rw [hr]
    · exact ⟨_, h.relinquish_behaves ho hst⟩
    · exact ⟨[], h.behaves_refl hst⟩

theorem Calm.check_behaves (h : s.Calm) (hst : s.Steady d) :
    ∃ ms, Behaves d ms s (answerNow (s.check d)) := by
  unfold check
  split
  · next hr =>
    split
    · obtain ⟨⟨⟨p, hd⟩, ht, hacc, _⟩, hs⟩ :=
        h.truthful.reassert_applies (reachable?_served hr) .none
      have ha := h.accepts (reachable?_served hr)
      have hasking : s.asking .none = [.request s.node.id] := h.requests_eq
      rw [hasking, yielding, if_pos ha, List.append_nil] at hd
      have hr' := (hd.reachable? d).trans hr
      refine ⟨_, hd.affects, hd.calm h ht, ⟨fun _ => hs.trans (hst.stored hr), fun _ => hr'⟩,
        fun _ _ => agrees_of_target .none hr' ?_ (by simp)
          (by rw [hacc ha, hd.id])⟩
      rw [hd.election]
      exact master_of_request _ d _
    · exact ⟨[], h.behaves_refl hst⟩
  · exact ⟨[], h.behaves_refl hst⟩

theorem roleOf_master {t : Standing} {n : NodeId} (h : t.roleOf n = .master) :
    t.master = some n := by
  by_contra hm
  simp only [Standing.roleOf, if_neg hm] at h
  split at h <;> cases h

theorem roleOf_standby {t : Standing} {n : NodeId} (h : t.roleOf n = .standby) :
    t.master ≠ some n ∧ n ∈ t.backups := by
  simp only [Standing.roleOf] at h
  split at h
  · cases h
  · next hm =>
    split at h
    · next hb => exact ⟨hm, hb⟩
    · cases h

theorem roleOf_none {t : Standing} {n : NodeId} (h : t.roleOf n = .none) : t.master ≠ some n := by
  intro hm
  simp [Standing.roleOf, hm] at h

theorem Calm.hearing_near (h : s.Calm) {x : Announcement} (hk : x.kind = .master)
    (hr : s.reachable? x.device = some true) (hs : s.stored x.device = true) :
    s.hearing x = if x.standing.roleOf s.node.id = .none then [.request s.node.id] else [] := by
  simp only [hearing, hk, hr, hs, if_true, yielding, h.accepts (reachable?_served hr), asking,
    h.requests_eq, List.append_nil]

theorem Calm.hearing_far (h : s.Calm) {x : Announcement} (hk : x.kind = .master)
    (hr : s.reachable? x.device = some false) :
    s.hearing x = if x.standing.roleOf s.node.id = .none then [] else [.relinquish s.node.id] := by
  simp only [hearing, hk, hr, h.withdrawals_eq]

theorem Hears.applied_far {x : Announcement} (h : Hears x s s') (hst : s.Steady x.device)
    (hr : s.reachable? x.device = some false) : s'.applied x.device = .none := by
  have hn : s.applied x.device = .none := by
    by_contra hn
    rw [hst.applied hn] at hr
    cases hr
  rcases h.far hr with ha | ha
  · exact ha.trans hn
  · exact ha

theorem Calm.heed_far (h : s.Calm) (ho : ∀ d, (s.election.seat d).Orderly) {x : Announcement}
    (hst : s.Steady x.device) (hk : x.kind = .master)
    (htold : x.standing.master = s.election.master? x.device)
    (hr : s.reachable? x.device = some false) : (s.heed x).Agrees x.device := by
  have hh := h.truthful.hears x
  obtain ⟨ps, hd⟩ := hh.does
  refine agrees_of_away ((hd.reachable? _).trans hr) ?_ (hh.applied_far hst hr)
  rw [heed, hd.election, hd.id, h.hearing_far hk hr]
  split
  · next hn =>
    rw [Election.moves_nil, ← htold]
    exact roleOf_none hn
  · exact master_of_relinquish ho x.device [] _

theorem Calm.heed_near (h : s.Calm) {x : Announcement} (hst : s.Steady x.device)
    (hk : x.kind = .master) (hled : x.Led)
    (htold : x.standing.master = s.election.master? x.device)
    (hr : s.reachable? x.device = some true) : (s.heed x).Agrees x.device := by
  have hh := h.truthful.hears x
  obtain ⟨ps, hd⟩ := hh.does
  have hs := hst.stored hr
  have happ := hh.near hk hr hs (h.accepts (reachable?_served hr))
  have he := hd.election
  have hr' := (hd.reachable? x.device).trans hr
  rw [h.hearing_near hk hr hs] at he
  rw [← hd.id] at happ
  change Agrees (answerNow (s.handle x)) x.device
  generalize answerNow (s.handle x) = s' at hd happ he hr' ⊢
  cases hrole : x.standing.roleOf s.node.id with
  | none =>
    rw [hrole, if_pos rfl] at he
    refine agrees_of_target .none hr' ?_ (by simp) (by rw [happ, hd.id, hrole])
    rw [he]
    exact master_of_request _ _ _
  | standby =>
    rw [hrole, if_neg (by simp), Election.moves_nil] at he
    obtain ⟨hne, hb⟩ := roleOf_standby hrole
    have hm : s'.election.master? x.device = x.standing.master := by rw [he, htold]
    apply agrees_of_target .standby hr'
    · intro hn
      rw [hled hk (hm ▸ hn)] at hb
      cases hb
    · rw [hm, hd.id]
      exact fun hn => absurd hn hne
    · rw [happ, hd.id, hrole]
  | master =>
    rw [hrole, if_neg (by simp), Election.moves_nil] at he
    have hm : s'.election.master? x.device = some s.node.id := by
      rw [he, ← htold, roleOf_master hrole]
    apply agrees_of_target .master hr' (by simp [hm]) (by simp)
    rw [happ, hd.id, hrole]

theorem Calm.heed_steady (h : s.Calm) {x : Announcement} (hst : s.Steady x.device) :
    (s.heed x).Steady x.device := by
  have hh := h.truthful.hears x
  obtain ⟨ps, hd⟩ := hh.does
  have hr : (s.heed x).reachable? x.device = s.reachable? x.device := hd.reachable? _
  refine ⟨fun hn => hh.stored.trans (hst.stored (hr ▸ hn)), ?_⟩
  intro hn
  rw [hr]
  cases hb : s.reachable? x.device with
  | none => simp [h.reachable?_eq] at hb
  | some reached =>
    cases reached with
    | true => rfl
    | false => exact absurd (hh.applied_far hst hb) hn

end Site

namespace Audience

/-- What holds of an audience whose members are in good service, whatever has happened. What a member
has not heard yet tells it who is master now, and a member that has heard all of it acts as the
election says. -/
structure Coherent (a : Audience) : Prop where
  lawful : World.Lawful ⟨a.cluster, []⟩
  calm : ∀ n s, a.cluster.site? n = some s → s.Calm
  steady : ∀ n s, a.cluster.site? n = some s → ∀ d, s.Steady d
  members : ∀ d, ∀ n ∈ (a.cluster.election.seat d).queue, (a.cluster.site? n).isSome
  tells : ∀ n d, Tells d (a.cluster.election.master? d) (a.mail n)
  led : ∀ n, ∀ x ∈ a.mail n, x.Led
  agrees : ∀ n s, a.cluster.site? n = some s → ∀ d, Silent d (a.mail n) → s.Agrees d

variable {a : Audience} {n : NodeId} {s s' : Site} {d : DeviceId} {ms : List Seat.Move}

theorem site?_isSome_setSite (c : Cluster) (s : Site) (m : NodeId) (h : (c.site? m).isSome) :
    ((c.setSite n s).site? m).isSome := by
  by_cases hm : m = n
  · subst hm
    simp
  · rw [Cluster.site?_setSite_of_ne c hm]
    simpa using h

/-- Mail of which a member has heard a part about one device. -/
structure Heard (d : DeviceId) (m : DeviceId → Option NodeId) (mail rest : List Announcement) :
    Prop where
  sub : ∀ x ∈ rest, x ∈ mail
  tells : ∀ d', Tells d' (m d') rest
  elsewhere : ∀ d' ≠ d, Silent d' rest → Silent d' mail

/-- An operation at a member about one device keeps everything coherent if it leaves the member in
agreement with the election, should there be nothing left to hear of the device's master. -/
theorem Coherent.act (h : a.Coherent) (hs : a.cluster.site? n = some s)
    (ha : s.Affects d ms s') (hc : s'.Calm) (hst : s'.Steady d) {rest : List Announcement}
    (hr : Heard d a.cluster.election.master? (a.mail n) rest)
    (hagrees : Silent d (a.cluster.election.moves d ms).2 → Silent d rest → s'.Agrees d) :
    Coherent ⟨a.cluster.setSite n s', fun m => Function.update a.mail n rest m ++
      (a.cluster.election.moves d ms).2⟩ := by
  have hse := Cluster.site?_election hs
  have he : s'.election = (a.cluster.election.moves d ms).1 := hse ▸ ha.election
  have hid := h.lawful.id n s hs
  refine ⟨h.lawful.setSite hs ha.id hc.truthful ha.election nofun, ?_, ?_, ?_, ?_, ?_, ?_⟩
  · intro m x hx
    rcases Cluster.site?_setSite hx with ⟨rfl, rfl⟩ | ⟨_, y, hy, rfl⟩
    · exact hc
    · have hcy := h.calm m y hy
      refine ⟨hcy.truthful.elsewhere rfl ?_, hcy.active, hcy.request, hcy.relinquish,
        hcy.south⟩
      intro d'
      rw [Cluster.site?_election hy, he]
      exact Election.moves_precedes _ d d' ms
  · intro m x hx d'
    rcases Cluster.site?_setSite hx with ⟨rfl, rfl⟩ | ⟨_, y, hy, rfl⟩
    · by_cases hd : d' = d
      · exact hd ▸ hst
      · exact (h.steady m s hs d').of_eq (ha.reachable d' hd) (ha.stored d' hd) (ha.applied d' hd)
    · exact (h.steady m y hy d').of_eq rfl rfl rfl
  · intro d' m hm
    refine site?_isSome_setSite _ s' m ?_
    change m ∈ (s'.election.seat d').queue at hm
    rw [he] at hm
    rcases Election.mem_queue_moves hm with hm | ⟨move, hmove, rfl⟩
    · exact h.members d' m hm
    · rw [ha.own move hmove, hid, hs]
      rfl
  · intro m d'
    change Tells d' (s'.election.master? d') _
    rw [he]
    refine Tells.moves ?_ ms
    by_cases hm : m = n
    · subst hm
      rw [Function.update_self]
      exact hr.tells d'
    · rw [Function.update_of_ne hm]
      exact h.tells m d'
  · intro m x hx
    rcases List.mem_append.mp hx with hx | hx
    · by_cases hm : m = n
      · subst hm
        rw [Function.update_self] at hx
        exact h.led m x (hr.sub x hx)
      · rw [Function.update_of_ne hm] at hx
        exact h.led m x hx
    · exact Election.moves_led hx
  · intro m x hx d' hsil
    obtain ⟨hmail, hnew⟩ := silent_append.mp hsil
    rcases Cluster.site?_setSite hx with ⟨rfl, rfl⟩ | ⟨hm, y, hy, rfl⟩
    · rw [Function.update_self] at hmail
      by_cases hd : d' = d
      · subst hd
        exact hagrees hnew hmail
      · refine (h.agrees m s hs d' (hr.elsewhere d' hd hmail)).of_eq ha.id ?_ (ha.reachable d' hd)
          (ha.applied d' hd)
        rw [he, hse, Election.master?, Election.seat_moves_ne _ hd]
        rfl
    · rw [Function.update_of_ne hm] at hmail
      refine (h.agrees m y hy d' hmail).of_eq rfl ?_ rfl rfl
      change s'.election.master? d' = _
      rw [he, Cluster.site?_election hy, Election.master_moves_of_silent hnew]

/-- As `act`, for an operation that takes place without anything being heard. -/
theorem Coherent.follow (h : a.Coherent) {f : Site → Site}
    (hf : ∀ s, a.cluster.site? n = some s → ∃ d ms, s.Behaves d ms (f s)) :
    (a.follow (a.cluster.modify n f)).Coherent := by
  cases hs : a.cluster.site? n with
  | none =>
    rw [Cluster.modify_of_none hs, follow_self]
    exact h
  | some s =>
    obtain ⟨d, ms, hb⟩ := hf s hs
    have hse := Cluster.site?_election hs
    have hr : Heard d a.cluster.election.master? (a.mail n) (a.mail n) :=
      ⟨fun _ hx => hx, h.tells n, fun _ _ hd => hd⟩
    have hact := h.act hs hb.affects hb.calm hb.steady hr fun hnew hold =>
      hb.agrees (hse ▸ hnew) (h.agrees n s hs d hold)
    obtain ⟨ns, hj, hns⟩ := hb.affects.journal
    rw [Function.update_eq_self, ← hse, ← hns] at hact
    rw [Cluster.modify_of_site hs]
    have hmail : a.follow (a.cluster.setSite n (f s)) =
        ⟨a.cluster.setSite n (f s), fun m => a.mail m ++ announced ns⟩ := by
      refine congrArg (Audience.mk _) (funext ?_)
      intro m
      exact follow_mail (c := a.cluster.setSite n (f s)) (Cluster.site?_journal hs ▸ hj) m
    exact hmail ▸ hact

/-- Moves by hand, for members, leave the controllers alone. -/
theorem Coherent.byHand (h : a.Coherent) {move : Election → Election × List Announcement}
    (hn : (a.cluster.site? n).isSome) (hown : ∀ m ∈ ms, m.node = n)
    (hm : move a.cluster.election = a.cluster.election.moves d ms) :
    (a.follow (a.cluster.moveElection move)).Coherent := by
  have hj : (a.cluster.moveElection move).journal =
      a.cluster.journal ++ (a.cluster.election.moves d ms).2.map .announced := by
    simp only [Cluster.moveElection, hm]
  have he : (a.cluster.moveElection move).election = (a.cluster.election.moves d ms).1 := by
    simp only [Cluster.moveElection, hm]
  have hmail : ∀ m, (a.follow (a.cluster.moveElection move)).mail m =
      a.mail m ++ (a.cluster.election.moves d ms).2 := fun m => by
    rw [follow_mail hj, announced_map_announced]
  have hsite : ∀ m s, (a.cluster.moveElection move).site? m = some s → ∃ y,
      a.cluster.site? m = some y ∧ s.node = y.node ∧ y.election = a.cluster.election ∧
        s.election = (a.cluster.election.moves d ms).1 := by
    intro m s hs
    obtain ⟨node, hnode, rfl⟩ := Option.map_eq_some_iff.mp hs
    exact ⟨_, Option.map_eq_some_iff.mpr ⟨node, hnode, rfl⟩, rfl, rfl, he⟩
  have hl := (h.lawful.byHand hm).lawful
  refine ⟨hl, ?_, ?_, ?_, ?_, ?_, ?_⟩
  · intro m s hs
    obtain ⟨y, hy, hnode, _, _⟩ := hsite m s hs
    have hc := h.calm m y hy
    exact ⟨hl.truthful m s hs, hnode ▸ hc.active, hnode ▸ hc.request, hnode ▸ hc.relinquish,
      hnode ▸ hc.south⟩
  · intro m s hs d'
    obtain ⟨y, hy, hnode, _, _⟩ := hsite m s hs
    refine (h.steady m y hy d').of_eq ?_ ?_ ?_ <;>
      simp only [Site.reachable?, Site.stored, Site.applied, hnode]
  · intro d' m hq
    have hstay : ∀ k, (a.cluster.site? k).isSome →
        ((a.cluster.moveElection move).site? k).isSome := by
      intro k hk
      simpa [Cluster.site?, Cluster.moveElection] using hk
    change m ∈ ((a.cluster.moveElection move).election.seat d').queue at hq
    rw [he] at hq
    rcases Election.mem_queue_moves hq with hq | ⟨x, hx, rfl⟩
    · exact hstay m (h.members d' m hq)
    · exact hstay _ (hown x hx ▸ hn)
  · intro m d'
    rw [hmail]
    change Tells d' ((a.cluster.moveElection move).election.master? d') _
    rw [he]
    exact (h.tells m d').moves ms
  · intro m x hx
    rw [hmail, List.mem_append] at hx
    rcases hx with hx | hx
    · exact h.led m x hx
    · exact Election.moves_led hx
  · intro m s hs d' hsil
    rw [hmail] at hsil
    obtain ⟨hold, hnew⟩ := silent_append.mp hsil
    obtain ⟨y, hy, hnode, hey, hes⟩ := hsite m s hs
    apply (h.agrees m y hy d' hold).of_eq (by rw [hnode])
    · rw [hes, hey, Election.master_moves_of_silent hnew]
    · simp only [Site.reachable?, hnode]
    · simp only [Site.applied, hnode]

theorem Coherent.heard (h : a.Coherent) {x : Announcement} {rest : List Announcement}
    (hm : a.mail n = x :: rest) : Heard x.device a.cluster.election.master? (a.mail n) rest where
  sub y hy := hm ▸ List.mem_cons_of_mem x hy
  tells d' := (hm ▸ h.tells n d').tail
  elsewhere d' hd hs y hy hk := by
    rw [hm] at hy
    rcases List.mem_cons.mp hy with rfl | hy
    · exact hd.symm
    · exact hs y hy hk

theorem Coherent.deliver (h : a.Coherent) (n : NodeId) : (a.deliver n).Coherent := by
  cases hm : a.mail n with
  | nil =>
    rw [deliver_empty hm]
    exact h
  | cons x rest =>
    have hr := h.heard hm
    cases hs : a.cluster.site? n with
    | none =>
      rw [deliver_stranger hs hm]
      refine ⟨h.lawful, h.calm, h.steady, h.members, ?_, ?_, ?_⟩
      · intro m d'
        by_cases hmn : m = n
        · subst hmn
          simpa using hr.tells d'
        · simpa [Function.update_of_ne hmn] using h.tells m d'
      · intro m y hy
        by_cases hmn : m = n
        · subst hmn
          exact h.led m y (hr.sub y (by simpa using hy))
        · exact h.led m y (by simpa [Function.update_of_ne hmn] using hy)
      · intro m s hm' d' hsil
        have hmn : m ≠ n := by
          rintro rfl
          rw [hs] at hm'
          cases hm'
        exact h.agrees m s hm' d' (by simpa [Function.update_of_ne hmn] using hsil)
    | some s =>
      have hc := h.calm n s hs
      have hse := Cluster.site?_election hs
      have hdel := deliver_delivers hc.truthful hs hm
      obtain ⟨ps, hd⟩ := hdel.hears.does
      have hst := h.steady n s hs x.device
      have ho : ∀ d, (s.election.seat d).Orderly := hse ▸ h.lawful.orderly
      have heq : a.deliver n = ⟨a.cluster.setSite n (s.heed x), fun m =>
          Function.update a.mail n rest m ++
            (a.cluster.election.moves x.device (s.hearing x)).2⟩ := by
        rw [← hdel.cluster]
        exact congrArg (Audience.mk _) (funext hdel.mail)
      rw [heq]
      refine h.act hs hd.affects (hd.calm hc hdel.hears.truthful) (hc.heed_steady hst) hr
        ?_
      intro hnew hold
      cases hk : x.kind with
      | backups =>
        -- Nothing was heard of the master, so the member was in agreement already.
        have hsil : Silent x.device (a.mail n) := by
          intro y hy hky
          rw [hm] at hy
          rcases List.mem_cons.mp hy with rfl | hy
          · rw [hk] at hky
            cases hky
          · exact hold y hy hky
        have hsame : s.heed x = s := by simp [Site.heed, Site.handle, hk]
        exact hsame.symm ▸ h.agrees n s hs x.device hsil
      | master =>
        have htold : x.standing.master = s.election.master? x.device := by
          rw [hse]
          exact (hm ▸ h.tells n x.device).head hk rfl hold
        have hled := h.led n x (by simp [hm])
        cases hb : s.reachable? x.device with
        | none => simp [hc.reachable?_eq] at hb
        | some reached =>
          cases reached with
          | false => exact hc.heed_far ho hst hk htold hb
          | true => exact hc.heed_near hst hk hled htold hb

/-- What may happen next. An audit is a series of checks. -/
inductive Act where
  /-- A device becomes reachable at a member and connects. -/
  | attach (n : NodeId) (d : DeviceId) (description : DeviceDescription)
  /-- A device ceases to be reachable at a member and disconnects. -/
  | detach (n : NodeId) (d : DeviceId)
  | roleReply (n : NodeId) (slot : Nat) (d : DeviceId) (requested response : Option Role)
  | check (n : NodeId) (d : DeviceId)
  /-- The election is moved by hand, for a member. -/
  | request (n : NodeId) (d : DeviceId)
  | relinquish (n : NodeId) (d : DeviceId)
  | setRole (n : NodeId) (d : DeviceId) (role : Role)
  | deliver (n : NodeId)

/-- Moves the election by hand, unless it is for somebody who is not a member. -/
def byHand (a : Audience) (n : NodeId) (move : Election → Election × List Announcement) :
    Audience :=
  if (a.cluster.site? n).isSome then a.follow (a.cluster.moveElection move) else a

def step (a : Audience) : Act → Audience
  | .attach n d description => a.follow (a.cluster.modify n (·.attach d description))
  | .detach n d => a.follow (a.cluster.modify n (·.detach d))
  | .roleReply n slot d requested response =>
    a.follow (a.cluster.modify n fun s => (s.roleReply slot d requested response).1)
  | .check n d => a.follow (a.cluster.modify n fun s => Site.answerNow (s.check d))
  | .request n d => a.byHand n (·.request n d)
  | .relinquish n d => a.byHand n (·.relinquish n d)
  | .setRole n d role => a.byHand n (·.setRole n d role)
  | .deliver n => a.deliver n

/-- A fresh cluster of active members, each with the providers that it has registered. -/
structure Serving (c : Cluster) : Prop extends c.Fresh where
  active : ∀ n node, c.nodes.get? n = some node → node.active = true
  south : ∀ n node, c.nodes.get? n = some node → ∃ ids, node.south = .ofProviders ids

/-- What can come of members in good service. -/
inductive Reachable : Audience → Prop
  | fresh {c : Cluster} : Serving c → Reachable ⟨c, fun _ => []⟩
  | step {a : Audience} (act : Act) : Reachable a → Reachable (a.step act)

theorem Serving.coherent {c : Cluster} (h : Serving c) : Coherent ⟨c, fun _ => []⟩ := by
  have hl := World.lawful_of_fresh h.toFresh
  have hseat : ∀ d, c.election.seat d = {} := fun d => by rw [h.election]; rfl
  have hnode : ∀ n s, c.site? n = some s → c.nodes.get? n = some s.node := by
    intro n s hs
    obtain ⟨node, hn, rfl⟩ := Option.map_eq_some_iff.mp hs
    exact hn
  have happ : ∀ n s, c.site? n = some s → ∀ d, s.applied d = .none := by
    intro n s hs d
    rw [Site.applied, (h.nodes n s.node (hnode n s hs)).roles]
    rfl
  have hreach : ∀ n s, c.site? n = some s → ∀ d, s.reachable? d = some false := by
    intro n s hs d
    obtain ⟨ids, hids⟩ := h.south n s.node (hnode n s hs)
    simp only [Site.reachable?, hids]
    cases hline : (Southbound.ofProviders ids).lineFor d with
    | none => rfl
    | some line =>
      rw [Southbound.ofProviders_lineFor ids d line hline]
      rfl
  refine ⟨hl, ?_, ?_, ?_, fun _ _ => .inl fun _ hx => absurd hx List.not_mem_nil,
    fun _ _ hx => absurd hx List.not_mem_nil, ?_⟩
  · intro n s hs
    have hf := (h.nodes n s.node (hnode n s hs)).faults
    obtain ⟨ids, hids⟩ := h.south n s.node (hnode n s hs)
    exact ⟨hl.truthful n s hs, h.active n s.node (hnode n s hs), by rw [hf], by rw [hf],
      hids ▸ Southbound.ofProviders_sound ids⟩
  · intro n s hs d
    exact ⟨by simp [hreach n s hs], by simp [happ n s hs]⟩
  · intro d n hn
    change n ∈ (c.election.seat d).queue at hn
    rw [hseat] at hn
    cases hn
  · intro n s hs d _
    refine Site.agrees_of_away (hreach n s hs d) ?_ (happ n s hs d)
    rw [Cluster.site?_election hs, Election.master?, hseat]
    simp

theorem Coherent.step (h : a.Coherent) (act : Act) : (a.step act).Coherent := by
  have ho : ∀ n s, a.cluster.site? n = some s → ∀ d, (s.election.seat d).Orderly :=
    fun n s hs => Cluster.site?_election hs ▸ h.lawful.orderly
  have hand : ∀ {n : NodeId} {d : DeviceId} {ms : List Seat.Move} {move},
      (∀ m ∈ ms, m.node = n) → move a.cluster.election = a.cluster.election.moves d ms →
        (a.byHand n move).Coherent := by
    intro n d ms move hown hm
    unfold Audience.byHand
    split
    · next hn => exact h.byHand hn hown hm
    · exact h
  cases act with
  | attach n d description =>
    exact h.follow fun s hs =>
      ⟨d, (h.calm n s hs).attach_behaves (h.steady n s hs d) description⟩
  | detach n d =>
    exact h.follow fun s hs =>
      ⟨d, (h.calm n s hs).detach_behaves (ho n s hs) (h.steady n s hs d)⟩
  | roleReply n slot d requested response =>
    exact h.follow fun s hs =>
      ⟨d, (h.calm n s hs).roleReply_behaves (ho n s hs) (h.steady n s hs d) slot requested response⟩
  | check n d =>
    exact h.follow fun s hs => ⟨d, (h.calm n s hs).check_behaves (h.steady n s hs d)⟩
  | request n d => exact hand (by simp [Seat.Move.node]) (Election.request_eq_moves _ n d)
  | relinquish n d => exact hand (by simp [Seat.Move.node]) (Election.relinquish_eq_moves _ n d)
  | setRole n d role =>
    refine hand ?_ (Election.setRole_eq_moves _ n d role)
    intro m hm
    exact Election.byHand_node hm
  | deliver n => exact h.deliver n

theorem Reachable.run (h : a.Reachable) (acts : List Act) :
    (acts.foldl Audience.step a).Reachable := by
  induction acts generalizing a with
  | nil => exact h
  | cons act acts ih => exact ih (h.step act)

theorem Reachable.coherent (h : a.Reachable) : a.Coherent := by
  induction h with
  | fresh hc => exact hc.coherent
  | step act _ ih => exact ih.step act

/-- Once nobody has mail, a device that some member reaches has a master that reaches it and that was
given MASTER, and nobody else was. -/
theorem converged_of_quiet (h : a.Reachable) (hq : a.Quiet) (hs : a.cluster.site? n = some s)
    (hr : s.reachable? d = some true) :
    ∃ m t, a.cluster.election.master? d = some m ∧ a.cluster.site? m = some t ∧
      t.reachable? d = some true ∧ t.applied d = .master ∧
      ∀ k u, a.cluster.site? k = some u → k ≠ m → u.applied d ≠ .master := by
  have hc := h.coherent
  have hagrees : ∀ k u, a.cluster.site? k = some u → u.Agrees d := fun k u hu =>
    hc.agrees k u hu d (by rw [hq k u hu]; exact nofun)
  have hmaster : ∀ k u, a.cluster.site? k = some u →
      u.election.master? d = a.cluster.election.master? d := fun k u hu => by
    rw [Cluster.site?_election hu]
  obtain ⟨m, hm⟩ := Option.ne_none_iff_exists'.mp (hmaster n s hs ▸ (hagrees n s hs).led hr)
  obtain ⟨t, ht⟩ := Option.isSome_iff_exists.mp
    (hc.members d m (Seat.mem_queue.mpr (.inl hm)))
  have hid := hc.lawful.id m t ht
  obtain ⟨hreach, happ⟩ := (hagrees m t ht).master (by rw [hmaster m t ht, hm, hid])
  refine ⟨m, t, hm, ht, hreach, happ, fun k u hu hk ha => hk ?_⟩
  have hown := (hagrees k u hu).alone ha
  rw [hmaster k u hu, hm, hc.lawful.id k u hu] at hown
  exact (Option.some.inj hown).symm

end Audience
namespace Sample

/-- A member that serves the devices of one scheme. -/
def server (n : NodeId) : Controller :=
  { id := n, active := true, south := .ofProviders [⟨"of", "sim"⟩] }

def servers : Cluster where
  nodes := ((∅ : Table NodeId Controller).insert east (server east)).insert west (server west)

theorem servers_node {n : NodeId} {node : Controller} (h : servers.nodes.get? n = some node) :
    node = server n := by
  simp only [servers, Table.get?_insert, Table.get?_emptyCollection] at h
  split at h
  · next hn => exact hn ▸ (Option.some.inj h).symm
  · split at h
    · next hn => exact hn ▸ (Option.some.inj h).symm
    · cases h

theorem servers_serving : Audience.Serving servers where
  election := rfl
  journal := rfl
  nodes _ _ h := servers_node h ▸ ⟨rfl, rfl, rfl, rfl, rfl⟩
  active _ _ h := servers_node h ▸ rfl
  south _ _ h := servers_node h ▸ ⟨_, rfl⟩

/-- Two members reach a device, one of them loses it, and both hear all of it. -/
def takeover : Audience :=
  [.attach east lamp default, .attach west lamp default, .detach east lamp, .deliver east,
    .deliver east, .deliver east, .deliver west, .deliver west, .deliver west].foldl
      Audience.step ⟨servers, fun _ => []⟩

theorem takeover_reachable : takeover.Reachable :=
  (Audience.Reachable.fresh servers_serving).run _

theorem takeover_quiet : takeover.Quiet := by
  intro n s hs
  have hn := Cluster.all_sites (p := fun n _ => (takeover.mail n).isEmpty) (by decide +kernel) hs
  simpa using hn

theorem takeover_reached :
    (takeover.cluster.site? west).any (fun s => s.reachable? lamp == some true) = true := by
  decide +kernel

end Sample

theorem Audience.converged_after_takeover :
    ∃ m t, Sample.takeover.cluster.election.master? Sample.lamp = some m ∧
      Sample.takeover.cluster.site? m = some t ∧ t.applied Sample.lamp = .master := by
  obtain ⟨s, hs, hr⟩ := Option.any_eq_true _ _ |>.mp Sample.takeover_reached
  obtain ⟨m, t, hm, ht, _, happ, _⟩ :=
    converged_of_quiet Sample.takeover_reachable Sample.takeover_quiet hs (beq_iff_eq.mp hr)
  exact ⟨m, t, hm, ht, happ⟩

end Mastership
