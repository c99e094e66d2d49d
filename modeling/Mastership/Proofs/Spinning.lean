import Mastership.Proofs.Settling

namespace Mastership
namespace Audience

variable {a a' : Audience} {n : NodeId} {s : Site} {d : DeviceId} {x : Announcement}
  {rest : List Announcement} {ds : Finset DeviceId} {turn : Nat → NodeId}

/-- A bounced device without a master is left as it was, and that is announced. -/
theorem bounce_calls {e : Election} (ho : ∀ d, (e.seat d).Orderly)
    (hq : (e.seat d).queue = []) (n : NodeId) :
    ∃ y ∈ (e.moves d [.request n, .relinquish n]).2, Calls n d y := by
  have hm : (e.seat d).master = none := by
    by_contra hm
    obtain ⟨m, hm⟩ := Option.ne_none_iff_exists'.mp hm
    have hmem : m ∈ (e.seat d).queue := Seat.mem_queue.mpr (.inl hm)
    rw [hq] at hmem
    cases hmem
  have hseat : (e.move d (.request n)).1.seat d = ⟨some n, [], (e.seat d).epoch + 1⟩ := by
    rw [Election.seat_move_self, Seat.move, Seat.request_of_unowned n hm, Seat.assign,
      (ho d).led hm]
    rfl
  refine ⟨⟨.master, d, ⟨none, []⟩⟩, ?_, rfl, rfl, rfl⟩
  rw [Election.moves_cons, Election.moves_singleton]
  refine List.mem_append_right _ (Election.mem_move_iff.mpr ⟨.master, ?_, ?_⟩) <;>
    simp [hseat, Seat.move, Seat.relinquish, Seat.standing]

theorem Delivers.spins {m : NodeId} (h : Delivers a m s x rest a')
    (hl : World.Lawful ⟨a.cluster, []⟩) (hs : a.cluster.site? m = some s)
    (hm : a.mail m = x :: rest) (hspin : Spins d n a) : Spins d n a' := by
  obtain ⟨y, hy, hcall⟩ := hspin.called
  have hid := hl.id m s hs
  refine ⟨(h.bounces_iff hs n d).mpr hspin.bounces,
    fun k hk => hspin.alone k ((h.asks_iff hs k d).mp hk), ?_, ?_⟩
  · have hreacts := s.hearing_reacts x
    rw [h.election]
    by_cases hd : d = x.device
    · subst hd
      apply List.eq_nil_iff_forall_not_mem.mpr
      intro k hk
      rcases Election.mem_queue_moves hk with hq | ⟨move, hmove, rfl⟩
      · rw [hspin.queue] at hq
        cases hq
      · rw [hreacts.own move hmove] at hk
        generalize s.hearing x = ms at hreacts hmove hk
        -- Whoever moves gives the device up in the end.
        cases hreacts with
        | idle => cases hmove
        | asks ha _ => exact hspin.alone m ((is_iff hs).mpr ha)
        | leaves _ => exact Site.relinquish_leaves hl.orderly [] _ hk
        | bounces _ _ => exact Site.relinquish_leaves hl.orderly [.request s.node.id] _ hk
    · rw [Election.seat_moves_ne _ hd]
      exact hspin.queue
  · obtain ⟨i, hi⟩ := List.mem_iff_getElem?.mp hy
    rcases h.getElem?_mail hm hi with ⟨_, hi'⟩ | ⟨rfl, ⟨_, rfl⟩ | ⟨j, _, hj⟩⟩
    · exact ⟨y, List.mem_of_getElem? hi', hcall⟩
    · obtain ⟨hk, rfl, hr⟩ := hcall
      have hb := (is_iff hs).mp hspin.bounces
      obtain ⟨z, hz, hzc⟩ := bounce_calls hl.orderly hspin.queue n
      refine ⟨z, ?_, hzc⟩
      rw [h.mail, hb.hearing rfl hk, hid, if_pos hr]
      exact List.mem_append_right _ hz
    · exact ⟨y, List.mem_of_getElem? hj, hcall⟩

theorem Spins.not_quiet (h : Spins d n a) : ¬ a.Quiet := by
  intro hq
  obtain ⟨s, hs, _⟩ := h.bounces
  obtain ⟨y, hy, _⟩ := h.called
  rw [hq n s hs] at hy
  cases hy

/-- Once a device spins, there is mail for ever. -/
theorem Settling.spins_after (hset : Settling ds a) (hf : Fair a turn) (h : Spins d n a) (k : Nat) :
    Spins d n (a.after turn k) :=
  hset.keeps hf (fun hset hs hm hdel h => hdel.spins hset.lawful hs hm h) h k

/-- Once nobody has mail, nobody will. -/
theorem Quiet.after (hq : a.Quiet) (hf : Fair a turn) (k : Nat) : a.after turn k = a := by
  refine a.after_idle turn fun j _ => ?_
  obtain ⟨s, hs⟩ := Option.isSome_iff_exists.mp (hf.member j)
  exact hq _ s hs

/-- Handling announcements comes to an end exactly if no device comes to be given up and asked for in
turns. From any state, with any mail and in whatever order the members have their turns: there is a
moment when nobody has mail, if and only if there is none at which a member bounces a device for which
nobody queues and nobody will stay, and is yet to hear that it is to ask for it. So there is one if each
device of which a change of master is yet to be heard, and that is bounced, is also asked for by
somebody who never gives it up. -/
theorem settles_unless_spinning {w : World} (h : w.Reachable) (mail : NodeId → List Announcement)
    (hf : Fair ⟨w.cluster, mail⟩ turn) :
    ((∃ k, ((Audience.mk w.cluster mail).after turn k).Quiet) ↔
      ∀ k d n, ¬ Spins d n ((Audience.mk w.cluster mail).after turn k)) ∧
    ((∀ m, (w.cluster.site? m).isSome → ∀ x ∈ mail m, x.kind = .master →
        (∃ n s, w.cluster.site? n = some s ∧ s.Bounces x.device) →
          ∃ n s, w.cluster.site? n = some s ∧ s.Asks x.device) →
      ∃ k, ((Audience.mk w.cluster mail).after turn k).Quiet) := by
  have hl : World.Lawful ⟨w.cluster, []⟩ :=
    ⟨h.lawful.id, h.lawful.truthful, h.lawful.orderly, nofun⟩
  obtain ⟨ds, hset, hheard⟩ := settling_of_lawful hl mail
  refine ⟨⟨?_, hset.settles hf⟩, fun htaken => hset.settles hf ?_⟩
  · rintro ⟨k, hq⟩ l d n hspin
    -- A quiet moment lasts, and so does spinning: both would be at the later of the two.
    obtain ⟨hset', hf'⟩ := hset.after hf l
    have hlate := hset'.spins_after hf' hspin k
    rw [← after_add, Nat.add_comm, after_add, hq.after (hset.after hf k).2] at hlate
    exact hlate.not_quiet hq
  · have ht : Taken ds ⟨w.cluster, mail⟩ := by
      intro d hd hb
      obtain ⟨m, hm, x, hx, hk, rfl⟩ := hheard d hd
      exact htaken m hm x hx hk hb
    intro k d n hspin
    obtain ⟨s, hs, _⟩ := hspin.bounces
    obtain ⟨y, hy, hk, rfl, _⟩ := hspin.called
    have hd := (hset.after hf k).1.mail n (by simp [hs]) y hy hk
    obtain ⟨m, hm⟩ := hset.taken_after hf ht k y.device hd ⟨n, hspin.bounces⟩
    exact hspin.alone m hm

end Audience

/-- A world of which the members have heard nothing yet. -/
def World.unheard (w : World) : Audience := ⟨w.cluster, fun _ => announced w.cluster.journal⟩

namespace Sample

def sharedActs : List World.Act :=
  joins east ++ joins west ++
    [.change east (.setLine 0 lamp { reachable := true, rejecting := true }), .relinquish east lamp]

/-- Two members have a device, which comes to refuse the roles of one of them. -/
def shared : World := sharedActs.foldl World.step ⟨pair, []⟩

theorem shared_reachable : shared.Reachable := by
  apply (World.Reachable.fresh pair_fresh).run
  rw [sharedActs, List.forall_mem_append, List.forall_mem_append]
  exact ⟨⟨joins_honest east, joins_honest west⟩, by simp [World.Act.Honest, Site.Change.Honest]⟩

theorem shared_member {n : NodeId} {s : Site} (h : shared.cluster.site? n = some s) :
    n = east ∨ n = west := by
  have hn := Cluster.all_sites (p := fun n _ => n == east || n == west) (by decide +kernel) h
  simpa using hn

theorem shared_stored {n : NodeId} {s : Site} (h : shared.cluster.site? n = some s) {d : DeviceId}
    (hd : s.stored d = true) : d = lamp := by
  have hkeys := Cluster.all_sites (p := fun _ s => s.node.replica.records.keys == [lamp])
    (by decide +kernel) h
  have hmem : d ∈ s.node.replica.records.keys :=
    Table.mem_keys.mpr (by simpa [Site.stored, Replica.device?] using hd)
  simpa [beq_iff_eq.mp hkeys] using hmem

theorem shared_kept : ∃ t, shared.cluster.site? west = some t ∧ t.Asks lamp := by
  have h : (shared.cluster.site? west).any (fun s =>
      (s.reachable? lamp == some true) && s.stored lamp && s.accepts lamp &&
        !s.node.faults.request) = true := by
    decide +kernel
  obtain ⟨s, hs, h⟩ := Option.any_eq_true _ _ |>.mp h
  simp only [Bool.and_eq_true, beq_iff_eq, Bool.not_eq_true'] at h
  obtain ⟨⟨⟨hr, hst⟩, ha⟩, hq⟩ := h
  exact ⟨s, hs, ⟨hr, hst⟩, hq, .inl ha⟩

/-- The two members by turns. -/
def alternate (i : Nat) : NodeId := if i % 2 = 0 then east else west

theorem alternate_fair : Audience.Fair shared.unheard alternate where
  member i := by
    unfold alternate
    split <;> decide +kernel
  recurs n hn i := by
    obtain ⟨s, hs⟩ := Option.isSome_iff_exists.mp hn
    rcases shared_member hs with rfl | rfl
    · exact ⟨2 * i, by omega, by simp [alternate]⟩
    · exact ⟨2 * i + 1, by omega, by simp [alternate, Nat.add_mod]⟩

end Sample

/-- The device that one member bounces is taken by the other one. -/
theorem Audience.shared_settles : ∃ k, (Sample.shared.unheard.after Sample.alternate k).Quiet := by
  apply (settles_unless_spinning Sample.shared_reachable _ Sample.alternate_fair).2
  rintro _ _ x _ _ ⟨n, s, hs, hb⟩
  rw [Sample.shared_stored hs hb.1.2]
  exact ⟨Sample.west, Sample.shared_kept⟩

namespace Sample

def lone : Cluster where
  nodes := (∅ : Table NodeId Controller).insert east { id := east }

theorem lone_fresh : lone.Fresh where
  election := rfl
  journal := rfl
  nodes n node h := by
    simp only [lone, Table.get?_insert, Table.get?_emptyCollection] at h
    split at h
    · next hn =>
      cases h
      exact hn ▸ ⟨rfl, rfl, rfl, rfl, rfl⟩
    · cases h

def spurnedActs : List World.Act :=
  joins east ++
    [.change east (.setLine 0 lamp { reachable := true, rejecting := true }), .relinquish east lamp]

/-- The only member has a device that comes to refuse roles, and is made to give it up. -/
def spurned : World := spurnedActs.foldl World.step ⟨lone, []⟩

theorem spurned_reachable : spurned.Reachable := by
  apply (World.Reachable.fresh lone_fresh).run
  rw [spurnedActs, List.forall_mem_append]
  exact ⟨joins_honest east, by simp [World.Act.Honest, Site.Change.Honest]⟩

theorem spurned_member {n : NodeId} {s : Site} (h : spurned.cluster.site? n = some s) :
    n = east := by
  have hn := Cluster.all_sites (p := fun n _ => n == east) (by decide +kernel) h
  simpa using hn

theorem spurned_bounces : spurned.unheard.Is (·.Bounces lamp) east := by
  have h : (spurned.cluster.site? east).any (fun s =>
      (s.reachable? lamp == some true) && s.stored lamp && !s.accepts lamp &&
        !s.node.faults.request && !s.node.faults.relinquish) = true := by
    decide +kernel
  obtain ⟨s, hs, h⟩ := Option.any_eq_true _ _ |>.mp h
  simp only [Bool.and_eq_true, beq_iff_eq, Bool.not_eq_true'] at h
  obtain ⟨⟨⟨⟨hr, hst⟩, ha⟩, hq⟩, hl⟩ := h
  exact ⟨s, hs, ⟨hr, hst⟩, ha, hq, hl⟩

theorem spurned_spins : Audience.Spins lamp east spurned.unheard where
  bounces := spurned_bounces
  alone m hm := by
    obtain ⟨s, hs, ha⟩ := hm
    obtain ⟨t, ht, hb⟩ := spurned_bounces
    obtain rfl := spurned_member hs
    obtain rfl := Option.some.inj (hs.symm.trans ht)
    exact ha.not_leaves hb.leaves
  queue := by decide +kernel
  called := ⟨⟨.master, lamp, ⟨none, []⟩⟩, by decide +kernel, rfl, rfl, rfl⟩

theorem spurned_fair : Audience.Fair spurned.unheard fun _ => east where
  member _ := by decide +kernel
  recurs n hn i := by
    obtain ⟨s, hs⟩ := Option.isSome_iff_exists.mp hn
    exact ⟨i, Nat.le_refl i, (spurned_member hs).symm⟩

end Sample

/-- Handling announcements need not come to an end: a device that its only member was made to give up
is asked for, refused and given up for ever. -/
theorem Audience.refusal_never_settles : ¬ ∀ w : World, w.Reachable →
    (∀ n s, w.cluster.site? n = some s → s.node.active = true) →
      ∀ turn, Fair w.unheard turn → ∃ k, (w.unheard.after turn k).Quiet := by
  intro h
  have hactive : (Sample.spurned.cluster.site? Sample.east).all (·.node.active) = true := by
    decide +kernel
  obtain ⟨k, hk⟩ := h Sample.spurned Sample.spurned_reachable
    (fun n s hs => by
      obtain rfl := Sample.spurned_member hs
      exact Option.all_eq_true _ _ |>.mp hactive s hs)
    _ Sample.spurned_fair
  have hl := Sample.spurned_reachable.lawful
  obtain ⟨ds, hset, _⟩ := settling_of_lawful ⟨hl.id, hl.truthful, hl.orderly, nofun⟩
    Sample.spurned.unheard.mail
  exact (hset.spins_after Sample.spurned_fair Sample.spurned_spins k).not_quiet hk

end Mastership
