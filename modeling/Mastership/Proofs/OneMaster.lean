import Mastership.Proofs.World

namespace Mastership
namespace World

/-- Every push of MASTER that was started was decided on an epoch of its own member: one that is
over, or the present one, in which nobody else is master. -/
def Owned (w : World) : Prop :=
  ∀ x ∈ started w.cluster.journal, x.2.role = .master →
    ∃ e, x.2.epoch = some e ∧
      Seat.Precedes ⟨some x.1, [], e⟩ (w.cluster.election.seat x.2.device)

/-- The pushes of MASTER that were decided on one epoch of a device all come from one member. -/
def Single (w : World) : Prop :=
  ∀ x ∈ started w.cluster.journal, ∀ y ∈ started w.cluster.journal,
    x.2.role = .master → y.2.role = .master → x.2.device = y.2.device →
      x.2.epoch = y.2.epoch → x.1 = y.1

theorem Decides.precedes {w : World} {x : NodeId × Push} (h : w.Decides x)
    (hm : x.2.role = .master) :
    x.2.epoch = some (w.cluster.election.seat x.2.device).epoch ∧
      (w.cluster.election.seat x.2.device).master = some x.1 := by
  obtain ⟨t, ht, ho⟩ := h.owned hm
  rw [h.epoch, ht]
  simp only [Election.term?, Seat.term?, Option.map_eq_some_iff] at ht
  obtain ⟨n, hn, rfl⟩ := ht
  exact ⟨rfl, hn.trans (congrArg some ho)⟩

theorem Does.owned {w w' : World} {d : DeviceId} {ms : List Seat.Move} {ps : List (NodeId × Push)}
    (h : Does d ms ps w w') (ho : w.Owned) (hp : ∀ x ∈ ps, w'.Decides x) : w'.Owned := by
  intro x hx hm
  obtain ⟨ns, hj, _, hs⟩ := h.journal
  rw [hj, started_append, hs, List.mem_append] at hx
  rcases hx with hx | hx
  · obtain ⟨e, he, hprec⟩ := ho x hx hm
    refine ⟨e, he, hprec.trans ?_⟩
    rw [h.election]
    exact Election.moves_precedes _ d _ ms
  · obtain ⟨he, hmaster⟩ := (hp x hx).precedes hm
    exact ⟨_, he, .inr ⟨rfl, .inl hmaster⟩⟩

/-- A new push of MASTER agrees with every earlier one of its epoch. -/
theorem Decides.agrees {w : World} {x y : NodeId × Push} (h : w.Decides x) (ho : w.Owned)
    (hy : y ∈ started w.cluster.journal) (hx : x.2.role = .master) (hm : y.2.role = .master)
    (hd : x.2.device = y.2.device) (he : x.2.epoch = y.2.epoch) : x.1 = y.1 := by
  obtain ⟨hxe, hxm⟩ := h.precedes hx
  obtain ⟨e, hye, hprec⟩ := ho y hy hm
  rw [he, hye, hd, Option.some.injEq] at hxe
  rw [hd] at hxm
  rcases hprec with hlt | ⟨_, hmaster | hmaster⟩
  · exact absurd hxe (Nat.ne_of_lt hlt)
  · exact Option.some.inj (hxm.symm.trans hmaster)
  · rw [hxm] at hmaster
    cases hmaster

theorem Does.single {w w' : World} {d : DeviceId} {ms : List Seat.Move} {ps : List (NodeId × Push)}
    (h : Does d ms ps w w') (hw : w.Single) (ho : w'.Owned) (hp : ∀ x ∈ ps, w'.Decides x) :
    w'.Single := by
  obtain ⟨ns, hj, _, hs⟩ := h.journal
  have hmem : ∀ x, x ∈ started w'.cluster.journal ↔ x ∈ started w.cluster.journal ∨ x ∈ ps := by
    intro x
    rw [hj, started_append, hs, List.mem_append]
  intro x hx y hy hxm hym hd he
  rcases (hmem x).mp hx with hx' | hx'
  · rcases (hmem y).mp hy with hy' | hy'
    · exact hw x hx' y hy' hxm hym hd he
    · exact ((hp y hy').agrees ho hx hym hxm hd.symm he.symm).symm
  · exact (hp x hx').agrees ho hy hxm hym hd he

theorem Reachable.owned_single {w : World} (h : w.Reachable) : w.Owned ∧ w.Single := by
  induction h with
  | fresh hc => simp [Owned, Single, hc.journal]
  | step hr ha ih =>
    obtain ⟨d, ms, ps, hd, hp⟩ := (hr.lawful.step ha).does
    have ho := hd.owned ih.1 hp
    exact ⟨ho, hd.single ih.2 ho hp⟩

/-- Whoever starts to push MASTER owns the device's term when it does so, and in all that happens,
however late or often announcements are handled and pushes answered, the pushes of MASTER that were
decided on one epoch of a device come from one member. -/
theorem one_master_per_term {w : World} (h : w.Reachable) :
    (∀ a : Act, a.Honest → ∃ ns, (w.step a).cluster.journal = w.cluster.journal ++ ns ∧
      ∀ n p, .started n p ∈ ns → p.role = .master →
        ns.getLast? = some (.started n p) ∧
        ∃ e, p.epoch = some e ∧ (w.step a).cluster.election.term? p.device = some ⟨n, e⟩) ∧
    ∀ n n' p p' d e, .started n p ∈ w.cluster.journal → .started n' p' ∈ w.cluster.journal →
      p.role = .master → p'.role = .master → p.device = d → p'.device = d →
      p.epoch = some e → p'.epoch = some e → n = n' := by
  constructor
  · intro a ha
    obtain ⟨d, ms, ps, hd, hp⟩ := (h.lawful.step ha).does
    obtain ⟨ns, hj, _, hs⟩ := hd.journal
    refine ⟨ns, hj, ?_⟩
    intro n p hn hm
    have hx := hp (n, p) (hs ▸ mem_started.mpr hn)
    have hne : ns ≠ [] := List.ne_nil_of_mem hn
    constructor
    · have hl := hx.last
      rwa [hj, List.getLast?_append_of_ne_nil _ hne] at hl
    · obtain ⟨⟨owner, e⟩, ht, rfl⟩ := hx.owned hm
      refine ⟨e, ?_, ht⟩
      rw [hx.epoch, ht]
      rfl
  · intro n n' p p' d e hp hp' hm hm' hd hd' he he'
    exact h.owned_single.2 (n, p) (mem_started.mpr hp) (n', p') (mem_started.mpr hp') hm hm'
      (hd.trans hd'.symm) (he.trans he'.symm)

end World

namespace Sample

def handoverActs : List World.Act :=
  opens east ++ opens west ++
    [.task east (.connect 0 lamp default), .task west (.connect 0 lamp default),
      .relinquish east lamp, .task west (.reassert lamp .master)]

/-- Both members connect the device, the first to do so gives it up, the other one takes it over. -/
def handover : World := handoverActs.foldl World.step ⟨pair, []⟩

theorem handover_reachable : handover.Reachable := by
  apply (World.Reachable.fresh pair_fresh).run
  intro a ha
  simp only [handoverActs, opens, List.cons_append, List.nil_append, List.mem_cons,
    List.not_mem_nil, or_false] at ha
  rcases ha with rfl | rfl | rfl | rfl | rfl | rfl | rfl | rfl <;> trivial

def firstPush : Push := ⟨0, lamp, .master, some 1, .store ⟨"of", "sim"⟩ default⟩

def secondPush : Push := ⟨0, lamp, .master, some 2, .settle⟩

theorem handover_pushes : .started east firstPush ∈ handover.cluster.journal ∧
    .started west secondPush ∈ handover.cluster.journal := by
  decide +kernel

end Sample

/-- Two members pushed MASTER to the handed over device, so they did it on different epochs. -/
theorem World.handover_epochs_differ : Sample.firstPush.epoch ≠ Sample.secondPush.epoch :=
  fun he => absurd ((one_master_per_term Sample.handover_reachable).2 _ _ _ _ _ _
    Sample.handover_pushes.1 Sample.handover_pushes.2 rfl rfl rfl rfl rfl he.symm) (by decide)

end Mastership
