import Mastership.Proofs.Audit
import Mastership.Timeline

namespace Mastership
namespace Timeline

variable {t t' t'' : Timeline} {as as' : List World.Act} {ps qs : List Pass} {p : Pass}

/-- The cluster with the pushes of the checks that are not answered yet. -/
def world (t : Timeline) : World := ⟨t.cluster, t.pending.map fun c => (c.node, c.push)⟩

/-- What has happened from `t` to `t'` is audits alone, and what the passes `ps` had still to check is
checked or still to be checked. -/
structure Audits (as : List World.Act) (ps : List Pass) (t t' : Timeline) : Prop where
  acts : ∀ a ∈ as, a.Audits
  world : t'.world = as.foldl World.step t.world
  queued : ∀ p ∈ ps, ∀ d ∈ p.queue, .task p.node (.check d) ∈ as ∨
    ∃ q ∈ t'.passes, q.node = p.node ∧ d ∈ q.queue

theorem Audits.refl (t : Timeline) : Audits [] t.passes t t :=
  ⟨nofun, rfl, fun p hp _ hd => .inr ⟨p, hp, rfl, hd⟩⟩

theorem Audits.trans (h : Audits as ps t t') (h' : Audits as' t'.passes t' t'') :
    Audits (as ++ as') ps t t'' where
  acts a ha := (List.mem_append.mp ha).elim (h.acts a) (h'.acts a)
  world := by rw [h'.world, h.world, List.foldl_append]
  queued p hp d hd := by
    rcases h.queued p hp d hd with hc | ⟨q, hq, hn, hdq⟩
    · exact .inl (List.mem_append_left _ hc)
    · rcases h'.queued q hq d hdq with hc | ⟨q', hq', hn', hdq'⟩
      · exact .inl (List.mem_append_right _ (hn ▸ hc))
      · exact .inr ⟨q', hq', hn'.trans hn, hdq'⟩

theorem Audits.mono (h : Audits as ps t t') (hq : ∀ p ∈ qs, p ∈ ps) : Audits as qs t t' :=
  ⟨h.acts, h.world, fun p hp => h.queued p (hq p hp)⟩

/-- What only tells time or counts tickets may come before audits or after them. -/
theorem Audits.of_eq (h : Audits as ps t t') {u u' : Timeline} (hw : u.world = t.world)
    (hw' : u'.world = t'.world) (hp : u'.passes = t'.passes) : Audits as ps u u' :=
  ⟨h.acts, by rw [hw', h.world, hw], fun p hm d hd => hp ▸ h.queued p hm d hd⟩

theorem step_check (t : Timeline) (n : NodeId) (d : DeviceId) {cluster : Cluster}
    {answer : Option (Option Push)} (hr : t.cluster.run n (·.check d) = (cluster, answer)) :
    t.world.step (.task n (.check d)) =
      ⟨cluster, t.world.pending ++ (answer.join.map (n, ·)).toList⟩ := by
  change World.mk (t.cluster.run n (·.check d)).1 (t.world.pending ++
    ((t.cluster.run n (·.check d)).2.join.map (n, ·)).toList) = _
  rw [hr]

/-- The latest of the pending pushes is answered. -/
theorem step_answer_last (c : Cluster) (xs : List (NodeId × Push)) (n : NodeId) (p : Push) :
    World.step ⟨c, xs ++ [(n, p)]⟩ (.answer xs.length) = ⟨c.modify n (·.answer p), xs⟩ := by
  simp [World.step, List.eraseIdx_append_of_length_le]

theorem startCheck_audits (t : Timeline) (n : NodeId) (timeout : Nat) (d : DeviceId) :
    ∃ as : List World.Act, (∀ a ∈ as, a.Audits) ∧ .task n (.check d) ∈ as ∧
      (t.startCheck n timeout d).1.world = as.foldl World.step t.world ∧
      (t.startCheck n timeout d).1.passes = t.passes := by
  simp only [startCheck, run]
  rcases hr : t.cluster.run n (·.check d) with ⟨cluster, answer⟩
  have hstep := t.step_check n d hr
  rcases answer with _ | _ | p
  · refine ⟨[.task n (.check d)], by simp [World.Act.Audits], List.mem_cons_self, ?_, rfl⟩
    rw [List.foldl_cons, List.foldl_nil, hstep]
    exact congrArg (World.mk cluster) (List.append_nil _).symm
  · refine ⟨[.task n (.check d)], by simp [World.Act.Audits], List.mem_cons_self, ?_, rfl⟩
    rw [List.foldl_cons, List.foldl_nil, hstep]
    exact congrArg (World.mk cluster) (List.append_nil _).symm
  · dsimp only
    split
    · refine ⟨[.task n (.check d), .answer t.world.pending.length], by simp [World.Act.Audits],
        List.mem_cons_self, ?_, rfl⟩
      rw [List.foldl_cons, List.foldl_cons, List.foldl_nil, hstep]
      exact (step_answer_last cluster t.world.pending n p).symm
    · refine ⟨[.task n (.check d)], by simp [World.Act.Audits], List.mem_cons_self, ?_, rfl⟩
      rw [List.foldl_cons, List.foldl_nil, hstep]
      simp [world]

theorem startChecks_audits (p : Pass) (ds : List DeviceId) (awaited : List (Nat × Nat))
    (t : Timeline) :
    ∃ as : List World.Act, (∀ a ∈ as, a.Audits) ∧
      (startChecks p ds awaited t).1.world = as.foldl World.step t.world ∧
      (startChecks p ds awaited t).1.passes = t.passes ∧
      (startChecks p ds awaited t).2.node = p.node ∧
      ∀ d ∈ ds, .task p.node (.check d) ∈ as ∨ d ∈ (startChecks p ds awaited t).2.queue := by
  induction ds generalizing awaited t with
  | nil => exact ⟨[], nofun, rfl, rfl, rfl, nofun⟩
  | cons d ds ih =>
    unfold startChecks
    split
    · exact ⟨[], nofun, rfl, rfl, rfl, fun d' hd => .inr hd⟩
    · obtain ⟨as, ha, hc, hw, hps⟩ := t.startCheck_audits p.node p.timeout d
      obtain ⟨as', ha', hw', hps', hn, hq⟩ := ih
        (awaited ++ (t.startCheck p.node p.timeout d).2.toList) (t.startCheck p.node p.timeout d).1
      refine ⟨as ++ as', fun a h => (List.mem_append.mp h).elim (ha a) (ha' a), ?_, hps'.trans hps,
        hn, ?_⟩
      · rw [List.foldl_append, ← hw]
        exact hw'
      · intro d' hd
        rcases List.mem_cons.mp hd with rfl | hd
        · exact .inl (List.mem_append_left _ hc)
        · exact (hq d' hd).imp (List.mem_append_right _) id

theorem goOn_audits (t : Timeline) (p : Pass) :
    ∃ as, Audits as (p :: t.passes) t (t.goOn p) := by
  obtain ⟨as, ha, hw, hps, hn, hq⟩ := startChecks_audits p p.queue p.awaited t
  unfold goOn
  generalize startChecks p p.queue p.awaited t = r at hw hps hn hq
  obtain ⟨t', p'⟩ := r
  refine ⟨as, ha, ?_, fun q hm d hd => ?_⟩
  · dsimp only at hw ⊢
    split <;> exact hw
  dsimp only at hps hn hq ⊢
  rcases List.mem_cons.mp hm with rfl | hm
  · rcases hq d hd with hc | hd
    · exact .inl hc
    · -- A pass that has devices left is kept.
      have hover : p'.isOver = false := by
        rw [Pass.isOver, List.isEmpty_eq_false_iff.mpr (List.ne_nil_of_mem hd)]
        rfl
      rw [hover]
      exact .inr ⟨p', List.mem_append_right _ List.mem_cons_self, hn, hd⟩
  · refine .inr ⟨q, ?_, rfl, hd⟩
    split
    · exact hps.symm ▸ hm
    · exact List.mem_append_left _ (hps.symm ▸ hm)

theorem goOn_all_audits (ps : List Pass) (t : Timeline) :
    ∃ as, Audits as (ps ++ t.passes) t (ps.foldl goOn t) := by
  induction ps generalizing t with
  | nil => exact ⟨[], .refl t⟩
  | cons p ps ih =>
    obtain ⟨as, h⟩ := t.goOn_audits p
    obtain ⟨as', h'⟩ := ih (t.goOn p)
    have hrest : Audits as' (t.goOn p).passes (t.goOn p) (ps.foldl goOn (t.goOn p)) :=
      h'.mono fun q hq => List.mem_append_right _ hq
    refine ⟨as ++ as', (h.trans hrest).acts, (h.trans hrest).world, ?_⟩
    intro q hq d hd
    rcases List.mem_append.mp hq with hq | hq
    · rcases List.mem_cons.mp hq with rfl | hq
      · exact (h.trans hrest).queued q List.mem_cons_self d hd
      · rcases h'.queued q (List.mem_append_left _ hq) d hd with hc | hkept
        · exact .inl (List.mem_append_right _ hc)
        · exact .inr hkept
    · exact (h.trans hrest).queued q (List.mem_cons_of_mem p hq) d hd

theorem startPass_audits (t : Timeline) (n : NodeId) :
    ∃ as, Audits as t.passes t (t.startPass n).1 ∧
      ∀ s, t.cluster.site? n = some s → ∀ device ∈ s.node.replica.devices,
        .task n (.check device.id) ∈ as ∨
          ∃ q ∈ (t.startPass n).1.passes, q.node = n ∧ device.id ∈ q.queue := by
  unfold startPass
  cases hn : t.cluster.nodes.get? n with
  | none =>
    refine ⟨[], .refl t, ?_⟩
    intro s hs
    simp [Cluster.site?, hn] at hs
  | some node =>
    dsimp only
    obtain ⟨as, h⟩ := goOn_audits { t with tickets := t.tickets + 1 }
      ⟨t.tickets, n, node.audit.concurrency, node.audit.timeout,
        node.replica.devices.map Device.id, []⟩
    refine ⟨as, ⟨h.acts, h.world, fun q hq => h.queued q (List.mem_cons_of_mem _ hq)⟩,
      fun s hs device hd => h.queued _ List.mem_cons_self _ ?_⟩
    obtain ⟨node', hnode, rfl⟩ := Option.map_eq_some_iff.mp hs
    obtain rfl := Option.some.inj (hn.symm.trans hnode)
    exact List.mem_map_of_mem hd

theorem tick_audits (t : Timeline) (n : NodeId) : ∃ as, Audits as t.passes t (t.tick n) := by
  unfold tick
  split
  · exact ⟨[], .refl t⟩
  · split
    · obtain ⟨as, h, _⟩ := t.startPass_audits n
      exact ⟨as, h.of_eq rfl rfl rfl⟩
    · exact ⟨[], .refl t⟩

theorem tick_all_audits (ns : List NodeId) (t : Timeline) :
    ∃ as, Audits as t.passes t (ns.foldl tick t) := by
  induction ns generalizing t with
  | nil => exact ⟨[], .refl t⟩
  | cons n ns ih =>
    obtain ⟨as, h⟩ := t.tick_audits n
    obtain ⟨as', h'⟩ := ih (t.tick n)
    exact ⟨as ++ as', h.trans h'⟩

/-- The pushes that are due are answered one after the other, and the others stay pending. -/
theorem answer_due_audits (isDue : Pending → Bool) (cs : List Pending) (c : Cluster)
    (kept : List (NodeId × Push)) :
    ∃ as : List World.Act, (∀ a ∈ as, a.Audits) ∧
      as.foldl World.step ⟨c, kept ++ cs.map fun x => (x.node, x.push)⟩ =
        ⟨(cs.filter isDue).foldl (fun c x => c.modify x.node (·.answer x.push)) c,
          kept ++ (cs.filter fun x => !isDue x).map fun x => (x.node, x.push)⟩ := by
  induction cs generalizing c kept with
  | nil => exact ⟨[], nofun, rfl⟩
  | cons x cs ih =>
    cases hx : isDue x with
    | true =>
      obtain ⟨as, ha, hw⟩ := ih (c.modify x.node (·.answer x.push)) kept
      have hstep : World.step ⟨c, kept ++ (x :: cs).map fun x => (x.node, x.push)⟩
          (.answer kept.length) =
            ⟨c.modify x.node (·.answer x.push), kept ++ cs.map fun x => (x.node, x.push)⟩ := by
        simp [World.step, List.eraseIdx_append_of_length_le]
      refine ⟨.answer kept.length :: as, List.forall_mem_cons.mpr ⟨trivial, ha⟩, ?_⟩
      rw [List.foldl_cons, hstep, hw]
      simp [hx]
    | false =>
      obtain ⟨as, ha, hw⟩ := ih c (kept ++ [(x.node, x.push)])
      refine ⟨as, ha, ?_⟩
      simpa [hx] using hw

theorem foldl_modify (cs : List Pending) (t : Timeline) :
    cs.foldl (fun t x => t.modify x.node (·.answer x.push)) t =
      { t with cluster := cs.foldl (fun c x => c.modify x.node (·.answer x.push)) t.cluster } := by
  induction cs generalizing t with
  | nil => rfl
  | cons x cs ih => exact ih _

theorem settleNow_audits (t : Timeline) : ∃ as, Audits as t.passes t t.settleNow := by
  simp only [settleNow, foldl_modify]
  obtain ⟨as, ha, hw⟩ := answer_due_audits (·.due ≤ t.now) t.pending t.cluster []
  -- What is answered, before the passes go on.
  generalize hu : ({ t with
    cluster := (t.pending.filter (·.due ≤ t.now)).foldl
      (fun c x => c.modify x.node (·.answer x.push)) t.cluster
    pending := t.pending.filter (t.now < ·.due)
    passes := [] } : Timeline) = u
  have huw : u.world = as.foldl World.step t.world := by
    have hlate : t.pending.filter (t.now < ·.due) = t.pending.filter fun x => !(x.due ≤ t.now) := by
      simp only [← decide_not, Nat.not_le]
    subst hu
    refine Eq.trans ?_ hw.symm
    simp only [world, hlate, List.nil_append]
  generalize hps : t.passes.map _ = ps
  have hqueue : ∀ p ∈ t.passes, ∃ q ∈ ps, q.node = p.node ∧ q.queue = p.queue := by
    intro p hp
    subst hps
    exact ⟨_, List.mem_map_of_mem hp, rfl, rfl⟩
  obtain ⟨as₁, h₁⟩ := goOn_all_audits ps u
  obtain ⟨as₂, h₂⟩ := tick_all_audits (ps.foldl goOn u).tickers.keys (ps.foldl goOn u)
  have h := h₁.trans h₂
  refine ⟨as ++ (as₁ ++ as₂), fun a hm => (List.mem_append.mp hm).elim (ha a) (h.acts a), ?_, ?_⟩
  · rw [List.foldl_append, ← huw]
    exact h.world
  · intro p hp d hd
    obtain ⟨q, hq, hn, hqq⟩ := hqueue p hp
    rcases h.queued q (List.mem_append_left _ hq) d (hqq ▸ hd) with hc | ⟨q', hq', hn', hdq⟩
    · exact .inl (List.mem_append_right _ (hn ▸ hc))
    · exact .inr ⟨q', hq', hn'.trans hn, hdq⟩

theorem awaitFor_audits (t : Timeline) (pass ms : Nat) :
    ∃ as, Audits as t.passes t (t.awaitFor pass ms) := by
  fun_induction awaitFor t pass ms with
  | case1 t ms hway hg => exact ⟨[], .refl t⟩
  | case2 t ms hway g hg hlate ih =>
    obtain ⟨as, h⟩ := settleNow_audits { t with now := t.now + g }
    obtain ⟨as', h'⟩ := ih
    exact ⟨as ++ as', (h.trans h').of_eq rfl rfl rfl⟩
  | case3 t ms hway g hg hlate => exact ⟨[], .refl t⟩
  | case4 t ms hway => exact ⟨[], .refl t⟩

/-- What has happened when an audit of a member returns is an audit of the member, if by then all that
was pushed meanwhile is answered and no pass of the member has devices left to check. Other pushes and
passes may have been under way before, and may still be. -/
theorem audit_isAudit {n : NodeId}
    (hover : ∀ x ∈ (t.audit n).1.world.pending, x ∈ t.world.pending)
    (hdone : ∀ q ∈ (t.audit n).1.passes, q.node = n → q.queue = []) :
    ∃ as, World.Audit n t.world as ∧ (t.audit n).1.world = as.foldl World.step t.world := by
  obtain ⟨as₁, h₁, hall⟩ := t.startPass_audits n
  obtain ⟨as₂, h₂⟩ := (t.startPass n).1.awaitFor_audits (t.startPass n).2
    ((t.startPass n).1.longestWait (t.startPass n).2)
  have h : Audits (as₁ ++ as₂) t.passes t (t.audit n).1 := h₁.trans h₂
  refine ⟨as₁ ++ as₂, ⟨h.acts, ?_, h.world ▸ hover⟩, h.world⟩
  intro s hs device hd
  rcases hall s hs device hd with hc | ⟨q, hq, hn, hdq⟩
  · exact List.mem_append_left _ hc
  · rcases h₂.queued q hq _ hdq with hc | ⟨q', hq', hn', hdq'⟩
    · exact List.mem_append_right _ (hn ▸ hc)
    · rw [hdone q' hq' (hn'.trans hn)] at hdq'
      cases hdq'

/-- The passes under way have got their tickets before. -/
def Numbered (t : Timeline) : Prop := ∀ p ∈ t.passes, p.ticket < t.tickets

theorem Numbered.mono (h : t.Numbered) (hp : t'.passes = t.passes) (ht : t.tickets ≤ t'.tickets) :
    t'.Numbered :=
  fun p hm => Nat.lt_of_lt_of_le (h p (hp ▸ hm)) ht

theorem startCheck_tickets (t : Timeline) (n : NodeId) (timeout : Nat) (d : DeviceId) :
    t.tickets ≤ (t.startCheck n timeout d).1.tickets := by
  simp only [startCheck, run]
  rcases t.cluster.run n (·.check d) with ⟨cluster, _ | _ | p⟩
  · exact Nat.le_refl _
  · exact Nat.le_refl _
  · dsimp only
    split
    · exact Nat.le_refl _
    · exact Nat.le_succ _

theorem startChecks_tickets (p : Pass) (ds : List DeviceId) (awaited : List (Nat × Nat))
    (t : Timeline) : t.tickets ≤ (startChecks p ds awaited t).1.tickets ∧
      (startChecks p ds awaited t).2.ticket = p.ticket := by
  induction ds generalizing awaited t with
  | nil => exact ⟨Nat.le_refl _, rfl⟩
  | cons d ds ih =>
    unfold startChecks
    split
    · exact ⟨Nat.le_refl _, rfl⟩
    · obtain ⟨ht, hp⟩ := ih (awaited ++ (t.startCheck p.node p.timeout d).2.toList)
        (t.startCheck p.node p.timeout d).1
      exact ⟨Nat.le_trans (t.startCheck_tickets p.node p.timeout d) ht, hp⟩

theorem Numbered.goOn (h : t.Numbered) (hp : p.ticket < t.tickets) :
    (t.goOn p).Numbered ∧ t.tickets ≤ (t.goOn p).tickets := by
  obtain ⟨_, _, _, hpasses, _⟩ := startChecks_audits p p.queue p.awaited t
  obtain ⟨ht, hticket⟩ := startChecks_tickets p p.queue p.awaited t
  unfold Timeline.goOn
  generalize startChecks p p.queue p.awaited t = r at hpasses ht hticket
  obtain ⟨t', p'⟩ := r
  dsimp only at hpasses ht hticket ⊢
  have hrest : t'.Numbered := h.mono hpasses ht
  split
  · exact ⟨hrest, ht⟩
  · refine ⟨fun q hq => ?_, ht⟩
    rcases List.mem_append.mp hq with hq | hq
    · exact hrest q hq
    · rw [List.mem_singleton.mp hq, hticket]
      exact Nat.lt_of_lt_of_le hp ht

theorem Numbered.goOn_all (h : t.Numbered) (hps : ∀ p ∈ ps, p.ticket < t.tickets) :
    (ps.foldl Timeline.goOn t).Numbered := by
  induction ps generalizing t with
  | nil => exact h
  | cons p ps ih =>
    obtain ⟨hgo, ht⟩ := h.goOn (hps p List.mem_cons_self)
    exact ih hgo fun q hq => Nat.lt_of_lt_of_le (hps q (List.mem_cons_of_mem p hq)) ht

theorem Numbered.startPass (h : t.Numbered) (n : NodeId) : (t.startPass n).1.Numbered := by
  have hnext : Numbered { t with tickets := t.tickets + 1 } := h.mono rfl (Nat.le_succ _)
  unfold Timeline.startPass
  split
  · exact h
  · exact (hnext.goOn (Nat.lt_succ_self _)).1

theorem Numbered.tick (h : t.Numbered) (n : NodeId) : (t.tick n).Numbered := by
  unfold Timeline.tick
  split
  · exact h
  · split
    · exact (h.startPass n).mono rfl (Nat.le_refl _)
    · exact h

theorem Numbered.tick_all (h : t.Numbered) (ns : List NodeId) :
    (ns.foldl Timeline.tick t).Numbered := by
  induction ns generalizing t with
  | nil => exact h
  | cons n ns ih => exact ih (h.tick n)

theorem Numbered.settleNow (h : t.Numbered) : t.settleNow.Numbered := by
  simp only [Timeline.settleNow, foldl_modify]
  refine Numbered.tick_all (Numbered.goOn_all (fun _ hp => absurd hp List.not_mem_nil)
    fun p hp => ?_) _
  obtain ⟨q, hq, rfl⟩ := List.mem_map.mp hp
  exact h q hq

theorem Numbered.elapse (h : t.Numbered) (ms : Nat) : (t.elapse ms).Numbered := by
  fun_induction Timeline.elapse t ms with
  | case2 t ms g hg hlate ih => exact ih (settleNow (t := { t with now := t.now + g }) h)
  | _ => exact h

/-- No pass gets a ticket that another one has. -/
theorem Numbered.audit (h : t.Numbered) (n : NodeId) : (t.audit n).1.Numbered := by
  have hawait : ∀ (t : Timeline) pass ms, t.Numbered → (t.awaitFor pass ms).Numbered := by
    intro t pass ms h
    fun_induction awaitFor t pass ms with
    | case2 t ms hway g hg hlate ih => exact ih (settleNow (t := { t with now := t.now + g }) h)
    | _ => exact h
  exact hawait _ _ _ (h.startPass n)

end Timeline
end Mastership
