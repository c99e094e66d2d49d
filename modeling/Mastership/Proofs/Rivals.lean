import Mastership.Proofs.Entries
import Mastership.Proofs.OneMaster

namespace Mastership
namespace World

variable {w w' : World} {n m : NodeId} {d : DeviceId} {e : Nat} {x : NodeId × Push}

/-- The member has pushed MASTER to the device, on the term of the epoch. -/
def PushedMaster (w : World) (n : NodeId) (d : DeviceId) (e : Nat) : Prop :=
  ∃ p, (n, p) ∈ started w.cluster.journal ∧ p.device = d ∧ p.role = .master ∧ p.epoch = some e

/-- The device has not answered yet to a push of STANDBY by the member, on the term of the epoch. -/
def AwaitsStandby (w : World) (n : NodeId) (d : DeviceId) (e : Nat) : Prop :=
  ∃ p, (n, p) ∈ w.pending ∧ p.device = d ∧ p.role = .standby ∧ p.epoch = some e

/-- Why the member may hold MASTER of the device in the epoch. -/
def Entitled (w : World) (n : NodeId) (d : DeviceId) (e : Nat) : Prop :=
  w.PushedMaster n d e ∨ w.AwaitsStandby n d e

/-- Whoever holds MASTER is entitled to, and pushes that are not answered yet were started. -/
structure Backed (w : World) : Prop where
  held : ∀ n s, w.cluster.site? n = some s → ∀ d e, s.node.roles.entry d = ⟨.master, e⟩ →
    w.Entitled n d e
  started : ∀ x ∈ w.pending, x ∈ started w.cluster.journal

/-- What was started stays started. -/
theorem Advances.started (h : Advances w w') :
    ∀ x ∈ Mastership.started w.cluster.journal, x ∈ Mastership.started w'.cluster.journal := by
  obtain ⟨_, _, _, hd, _⟩ := h.does
  obtain ⟨ns, hj, _⟩ := hd.journal
  intro x hx
  rw [hj, started_append]
  exact List.mem_append_left _ hx

theorem Advances.pushedMaster (ha : Advances w w') (h : w.PushedMaster n d e) :
    w'.PushedMaster n d e := by
  obtain ⟨p, hp, h⟩ := h
  exact ⟨p, ha.started _ hp, h⟩

theorem Entitled.mono (h : w.Entitled n d e) (ha : Advances w w')
    (hp : ∀ x ∈ w.pending, x ∈ w'.pending) : w'.Entitled n d e := by
  refine h.imp ha.pushedMaster ?_
  rintro ⟨p, hmem, h⟩
  exact ⟨p, hp _ hmem, h⟩

/-- The answer to a push takes nothing away from those who are entitled for another reason. -/
theorem Entitled.erase (h : w.Entitled n d e) (ha : Advances w w') {i : Nat}
    (hi : w.pending[i]? = some x) (hp : w'.pending = w.pending.eraseIdx i)
    (hne : ∀ p, p.device = d → p.epoch = some e → (n, p) ≠ x) : w'.Entitled n d e := by
  refine h.imp ha.pushedMaster ?_
  rintro ⟨p, hmem, hd, hr, he⟩
  exact ⟨p, hp ▸ (mem_eraseIdx_of_ne hi (hne p hd he)).mpr hmem, hd, hr, he⟩

/-- Nothing that was held has changed, and nothing that was pending was answered. -/
theorem Backed.grow (h : w.Backed) (ha : Advances w w')
    (hn : ∀ n s', w'.cluster.site? n = some s' →
      ∃ s, w.cluster.site? n = some s ∧ s'.node.roles = s.node.roles)
    (hp : w'.pending = w.pending) : w'.Backed := by
  refine ⟨fun n s' hs' d e he => ?_, fun x hx => ha.started x (h.started x (hp ▸ hx))⟩
  obtain ⟨s, hs, hr⟩ := hn n s' hs'
  rw [hr] at he
  exact (h.held n s hs d e he).mono ha fun x hx => hp ▸ hx

theorem Backed.task (h : w.Backed) (hl : w.Lawful) {s : Site} (hs : w.cluster.site? n = some s)
    (t : Site.Task) (ha : Advances w w') (hw : w' = ⟨w.cluster.setSite n (s.run t).1,
      w.pending ++ ((s.run t).2.map (n, ·)).toList⟩) : w'.Backed := by
  obtain ⟨ms, hd⟩ := s.run_decides t
  have hpending : w'.pending = w.pending ++ ((s.run t).2.map (n, ·)).toList := by rw [hw]
  have hkept : ∀ x ∈ w.pending, x ∈ w'.pending := fun x hx =>
    hpending ▸ List.mem_append_left _ hx
  have hleft : ∀ p, (s.run t).2 = some p → (n, p) ∈ Mastership.started w'.cluster.journal := by
    intro p hp
    have hlast := hd.last p hp
    rw [hl.id n s hs] at hlast
    rw [hw]
    exact mem_started.mpr (List.mem_of_getLast? hlast)
  constructor
  · intro m y hy d e he
    rw [hw] at hy
    rcases Cluster.site?_setSite hy with ⟨rfl, rfl⟩ | ⟨_, z, hz, rfl⟩
    · by_cases hdev : d = t.device
      · subst hdev
        rcases (s.run_marks t).of_master (by rw [he]) with hsame | ⟨p, hp, hepoch⟩
        · exact (h.held _ s hs _ e (hsame.trans he)).mono ha hkept
        · rw [he] at hepoch
          have hpd := hd.device p hp
          cases hrole : p.role with
          | none => exact absurd hrole ((s.run_marks t).role_ne_none hp)
          | master => exact .inl ⟨p, hleft p hp, hpd, hrole, hepoch⟩
          | standby => exact .inr ⟨p, by simp [hpending, hp], hpd, hrole, hepoch⟩
      · rw [hd.does.role_ne hdev] at he
        exact (h.held _ s hs d e he).mono ha hkept
    · exact (h.held m z hz d e he).mono ha hkept
  · intro x hx
    rw [hpending] at hx
    rcases List.mem_append.mp hx with hx | hx
    · exact ha.started x (h.started x hx)
    · obtain ⟨p, hp, rfl⟩ := Option.map_eq_some_iff.mp (Option.mem_toList.mp hx)
      exact hleft p hp

/-- Who has no push answered holds what it held, and is entitled to it as before. -/
theorem Backed.elsewhere (h : w.Backed) (ha : Advances w w') {i : Nat} {p : Push}
    (hi : w.pending[i]? = some (n, p)) (hp : w'.pending = w.pending.eraseIdx i) (hm : m ≠ n)
    {s : Site} (hs : w.cluster.site? m = some s) (he : s.node.roles.entry d = ⟨.master, e⟩) :
    w'.Entitled m d e := by
  refine (h.held m s hs d e he).erase ha hi hp ?_
  rintro q _ _ ⟨⟩
  exact hm rfl

/-- The member whose push is answered goes on to be entitled to what it holds. -/
theorem Backed.answered (h : w.Backed) (ho : w.Owned) (ha : Advances w w') {i : Nat} {p : Push}
    {s : Site} (hs : w.cluster.site? n = some s) (hi : w.pending[i]? = some (n, p))
    (hp : w'.pending = w.pending.eraseIdx i)
    (he : (s.answer p).node.roles.entry d = ⟨.master, e⟩) : w'.Entitled n d e := by
  have hstarted := h.started _ (List.mem_of_getElem? hi)
  by_cases hdev : d = p.device
  · subst hdev
    rw [Site.answer_entry] at he
    cases hreply : s.reply p with
    | error f => simp [hreply] at he
    | ok =>
      simp only [hreply] at he
      rcases s.node.roles.entry_record_cases p.device p.role p.epoch with
        ⟨epoch, hepoch, hlt, hsame⟩ | hnew
      · -- The answer is stale, and so another push than the one awaited.
        rw [hsame] at he
        refine (h.held n s hs _ e he).erase ha hi hp ?_
        rintro q _ hq ⟨⟩
        obtain rfl := Option.some.inj (hepoch.symm.trans hq)
        simp [he] at hlt
      · rw [hnew, RoleTable.Entry.mk.injEq] at he
        obtain ⟨epoch, hepoch, _⟩ := ho _ hstarted he.1
        refine .inl ⟨p, ha.started _ hstarted, rfl, he.1, ?_⟩
        rw [hepoch, ← he.2, hepoch]
        rfl
  · rw [(s.answer_does p).role_ne hdev] at he
    refine (h.held n s hs d e he).erase ha hi hp ?_
    rintro q hq _ ⟨⟩
    exact hdev hq.symm

theorem Backed.answer (h : w.Backed) (ho : w.Owned) {i : Nat} {p : Push} {s : Site}
    (hi : w.pending[i]? = some (n, p)) (hs : w.cluster.site? n = some s) (ha : Advances w w')
    (hw : w' = ⟨w.cluster.setSite n (s.answer p), w.pending.eraseIdx i⟩) : w'.Backed := by
  have hpending : w'.pending = w.pending.eraseIdx i := by rw [hw]
  refine ⟨fun m y hy d e he => ?_, fun y hy => ?_⟩
  · rw [hw] at hy
    rcases Cluster.site?_setSite hy with ⟨rfl, rfl⟩ | ⟨hm, z, hz, rfl⟩
    · exact h.answered ho ha hs hi hpending he
    · exact h.elsewhere ha hi hpending hm hz he
  · rw [hpending] at hy
    exact ha.started y (h.started y (List.mem_of_mem_eraseIdx hy))

theorem Backed.step (h : w.Backed) (hl : w.Lawful) (ho : w.Owned) {a : Act} (ha : a.Honest) :
    (w.step a).Backed := by
  have hadv := hl.step ha
  have hsteps := w.steps a
  generalize w.step a = w' at hadv hsteps ⊢
  cases hsteps with
  | idle => exact h
  | task t hs => exact h.task hl hs t hadv rfl
  | @change n s c hs =>
    refine h.grow hadv (fun m y hy => ?_) rfl
    rcases Cluster.site?_setSite hy with ⟨rfl, rfl⟩ | ⟨_, z, hz, rfl⟩
    · exact ⟨s, hs, (s.change_keeps c).2.2.2⟩
    · exact ⟨z, hz, rfl⟩
  | answer hi hs => exact h.answer ho hi hs hadv rfl
  | @lost n i p hi hs =>
    refine ⟨fun m y hy d e he => h.elsewhere hadv hi rfl ?_ hy he, fun y hy =>
      hadv.started y (h.started y (List.mem_of_mem_eraseIdx hy))⟩
    rintro rfl
    rw [hs] at hy
    cases hy
  | moved _ move =>
    refine h.grow hadv (fun n s' hs' => ?_) rfl
    obtain ⟨s, hs, hn⟩ := site?_moveElection hs'
    exact ⟨s, hs, by rw [hn]⟩

theorem Reachable.backed (h : w.Reachable) : w.Backed := by
  induction h with
  | fresh hc =>
    refine ⟨fun n s hs d e he => ?_, nofun⟩
    obtain ⟨node, hn, rfl⟩ := Option.map_eq_some_iff.mp hs
    simp [(hc.nodes n node hn).roles, RoleTable.entry] at he
  | step hr ha ih => exact ih.step hr.lawful hr.owned_single.1 ha

/-- Two members hold MASTER of one device in one epoch only as long as the device has not answered
to a push of STANDBY by one of them, which that member has decided on in this very epoch. -/
theorem rival_awaits_standby (h : w.Reachable) (hne : n ≠ m) {s t : Site}
    (hs : w.cluster.site? n = some s) (ht : w.cluster.site? m = some t)
    (hn : s.node.roles.entry d = ⟨.master, e⟩) (hm : t.node.roles.entry d = ⟨.master, e⟩) :
    w.AwaitsStandby n d e ∨ w.AwaitsStandby m d e := by
  rcases h.backed.held n s hs d e hn with ⟨p, hp, hpd, hpr, hpe⟩ | hn
  · rcases h.backed.held m t ht d e hm with ⟨q, hq, hqd, hqr, hqe⟩ | hm
    · exact absurd (h.owned_single.2 _ hp _ hq hpr hqr (hpd.trans hqd.symm) (hpe.trans hqe.symm))
        hne
    · exact .inr hm
  · exact .inl hn

end World

namespace Sample

def contestedActs : List World.Act :=
  joins east ++ joins west ++
    [.relinquish east lamp, .task west (.handle ⟨.master, lamp, ⟨some west, []⟩⟩), .answer 0,
      .task east (.check lamp)]

/-- The master is made to give the device up, the other member takes it over, and an audit of the
former master finds this out. The device has not answered to its push of STANDBY yet. -/
def contested : World := contestedActs.foldl World.step ⟨pair, []⟩

theorem contested_reachable : contested.Reachable := by
  apply (World.Reachable.fresh pair_fresh).run
  rw [contestedActs, List.forall_mem_append, List.forall_mem_append]
  exact ⟨⟨joins_honest east, joins_honest west⟩, by simp [World.Act.Honest]⟩

theorem contested_entry {n : NodeId} (hn : n = east ∨ n = west) :
    ∃ s, contested.cluster.site? n = some s ∧ s.node.roles.entry lamp = ⟨.master, 2⟩ := by
  have h : (contested.cluster.site? n).any
      (fun s => s.node.roles.entry lamp == ⟨.master, 2⟩) = true := by
    rcases hn with rfl | rfl <;> decide +kernel
  simpa [Option.any_eq_true] using h

end Sample

/-- It is a push of STANDBY that is awaited while both members hold MASTER. -/
theorem World.contested_awaits_standby :
    Sample.contested.AwaitsStandby Sample.east Sample.lamp 2 ∨
      Sample.contested.AwaitsStandby Sample.west Sample.lamp 2 := by
  obtain ⟨s, hs, hn⟩ := Sample.contested_entry (.inl rfl)
  obtain ⟨t, ht, hm⟩ := Sample.contested_entry (.inr rfl)
  exact rival_awaits_standby Sample.contested_reachable (by decide) hs ht hn hm

/-- Two members may hold MASTER of one device in one epoch. -/
theorem World.two_tables_hold_one_term : ¬ ∀ w : World, w.Reachable → ∀ n m s t d e,
    w.cluster.site? n = some s → w.cluster.site? m = some t →
      s.node.roles.entry d = ⟨.master, e⟩ → t.node.roles.entry d = ⟨.master, e⟩ → n = m := by
  intro h
  obtain ⟨s, hs, hn⟩ := Sample.contested_entry (.inl rfl)
  obtain ⟨t, ht, hm⟩ := Sample.contested_entry (.inr rfl)
  exact absurd (h _ Sample.contested_reachable _ _ s t _ _ hs ht hn hm) (by decide)

end Mastership
