import Mastership.Proofs.Availability

namespace Mastership
namespace World

variable {n : NodeId} {d : DeviceId} {w : World} {a : Act}

/-- No task of the member about the device is begun while one of its pushes to it is not answered. -/
def InTurn (n : NodeId) (d : DeviceId) (w : World) : Act → Prop
  | .task m t => m = n → t.device = d → ∀ x ∈ w.pending, x.1 = n → x.2.device ≠ d
  | _ => True

/-- No task of the member is begun while one of its pushes is not answered. -/
def Alone (n : NodeId) (w : World) : Act → Prop
  | .task m _ => m = n → ∀ x ∈ w.pending, x.1 ≠ n
  | _ => True

instance (n : NodeId) (w : World) : DecidablePred (w.Alone n)
  | .task m _ => inferInstanceAs (Decidable (m = n → ∀ x ∈ w.pending, x.1 ≠ n))
  | .change .. | .answer _ | .request .. | .relinquish .. | .setRole .. =>
    inferInstanceAs (Decidable True)

/-- Where each task is run on its own, each device has its turn. -/
theorem Alone.inTurn (h : w.Alone n a) (d : DeviceId) : w.InTurn n d a := by
  cases a with
  | task m t => exact fun hm _ x hx hn => absurd hn (h hm x hx)
  | _ => trivial

/-- What holds of a member and a device whose tasks are run in turn. The device is stored anew before
MASTER is pushed to it, and it loses its role whenever it may have become unavailable. -/
structure Heralding (n : NodeId) (d : DeviceId) (w : World) : Prop where
  kept : w.Kept
  /-- Who is master of the device has it available, if it is stored. -/
  master : ∀ s, w.cluster.site? n = some s → s.applied d = .master → s.Lit d
  /-- So has who is about to become master, unless the device will be stored first. -/
  pushed : ∀ s, w.cluster.site? n = some s → ∀ p, (n, p) ∈ w.pending → p.device = d →
    p.role = .master → p.sequel = .settle → s.Lit d
  /-- Observers know whether the device is available. -/
  heard : ∀ s, w.cluster.site? n = some s →
    heardAvailable false (eventsOf n d w.cluster.journal) = s.node.replica.isAvailable d
  heralded : Heralded false (eventsOf n d w.cluster.journal)

theorem heralding_of_fresh {c : Cluster} (h : c.Fresh) (n : NodeId) (d : DeviceId) :
    Heralding n d ⟨c, []⟩ := by
  have hnone : eventsOf n d c.journal = [] := by rw [h.journal]; rfl
  have hunstored : ∀ s, c.site? n = some s → s.node.replica.device? d = none := by
    intro s hs
    obtain ⟨node, hn, rfl⟩ := Option.map_eq_some_iff.mp hs
    simp [(h.nodes n node hn).replica, Replica.device?]
  refine ⟨kept_of_fresh h, fun s hs _ hstored => ?_, by simp, fun s hs => ?_, ?_⟩
  · simp [Site.stored, hunstored s hs] at hstored
  · simp [hnone, heardAvailable, Replica.isAvailable, hunstored s hs]
  · rw [hnone]
    trivial

/-- The member's site may be exchanged if what becomes of the device is told. -/
theorem Heralding.setSite (h : w.Heralding n d) {s s' : Site} {es : List DeviceEvent}
    {pending : List (NodeId × Push)} (hs : w.cluster.site? n = some s)
    (hr : s.Recites d s' es) (hes : Heralded (s.node.replica.isAvailable d) es)
    (hkept : Kept ⟨w.cluster.setSite n s', pending⟩) (hm : s'.applied d = .master → s'.Lit d)
    (hp : ∀ p, (n, p) ∈ pending → p.device = d → p.role = .master → p.sequel = .settle → s'.Lit d) :
    Heralding n d ⟨w.cluster.setSite n s', pending⟩ := by
  obtain ⟨ps, ns, hj, _, hposts⟩ := hr.emits
  rw [h.kept.id n s hs] at hposts
  have hevents : eventsOf n d s'.journal = eventsOf n d w.cluster.journal ++ es := by
    rw [hj, eventsOf_append, eventsOf_self hposts hr.about, Cluster.site?_journal hs]
  have hself : ∀ x, (w.cluster.setSite n s').site? n = some x → x = s' := fun x hx => by
    rw [Cluster.site?_setSite_self] at hx
    exact (Option.some.inj hx).symm
  refine ⟨hkept, fun x hx => ?_, fun x hx => ?_, fun x hx => ?_, ?_⟩
  · exact hself x hx ▸ hm
  · exact hself x hx ▸ hp
  · rw [hself x hx]
    change heardAvailable false (eventsOf n d s'.journal) = _
    rw [hevents, heardAvailable_append, h.heard s hs, hr.heard]
  · change Heralded false (eventsOf n d s'.journal)
    rw [hevents, heralded_append, h.heard s hs]
    exact ⟨h.heralded, hes⟩

theorem Heralding.task (h : w.Heralding n d) {s : Site} {t : Site.Task}
    (hs : w.cluster.site? n = some s) (hd : t.device = d) (ha : w.InTurn n d (.task n t))
    (hkept : Kept ⟨w.cluster.setSite n (s.run t).1,
      w.pending ++ ((s.run t).2.map (n, ·)).toList⟩) :
    Heralding n d ⟨w.cluster.setSite n (s.run t).1,
      w.pending ++ ((s.run t).2.map (n, ·)).toList⟩ := by
  subst hd
  obtain ⟨es, hr, hsilent⟩ := s.run_recites (h.kept.tidy n s hs) t
  refine h.setSite hs hr (heralded_of_silence hsilent) hkept
    (s.run_master_lit (h.master s hs)) fun p hp hd hrole hq => ?_
  -- No push to the device is under way but the one that the task has just left.
  rcases List.mem_append.mp hp with hp | hp
  · exact absurd hd (ha rfl rfl _ hp rfl)
  · obtain ⟨q, hleft, he⟩ := Option.map_eq_some_iff.mp (Option.mem_toList.mp hp)
    obtain rfl : q = p := congrArg Prod.snd he
    exact s.run_pushes_lit hleft hrole hq

theorem Heralding.answer (h : w.Heralding n d) {s : Site} {i : Nat} {p : Push}
    (hs : w.cluster.site? n = some s) (hi : w.pending[i]? = some (n, p)) (hd : p.device = d)
    (hkept : Kept ⟨w.cluster.setSite n (s.answer p), w.pending.eraseIdx i⟩) :
    Heralding n d ⟨w.cluster.setSite n (s.answer p), w.pending.eraseIdx i⟩ := by
  subst hd
  have hpushed := h.pushed s hs p (List.mem_of_getElem? hi) rfl
  obtain ⟨es, hr, hes⟩ := s.answer_recites
    (Site.Tidy.filed (h.kept.tidy n s hs) p.device) hpushed
  refine h.setSite hs hr hes hkept (s.answer_master_lit (h.master s hs) hpushed) ?_
  intro q hq hd hrole hsettle
  exact (s.answer_course p).lit (h.pushed s hs q (List.mem_of_mem_eraseIdx hq) hd hrole hsettle)

theorem Heralding.step (h : w.Heralding n d) (ha : w.InTurn n d a) : (w.step a).Heralding n d := by
  have hkept := h.kept.step a
  by_cases hc : w.Concerns n d a
  · have hstep := hc.step
    generalize w.step a = w' at hstep hkept ⊢
    cases hstep with
    | absent hs hp =>
      exact ⟨hkept, h.master, fun s hs p hx => h.pushed s hs p (hp _ hx), h.heard, h.heralded⟩
    | task hs hd => exact h.task hs hd ha hkept
    | answer hs hi hd => exact h.answer hs hi hd hkept
  · obtain ⟨hsite, hevents, hpending⟩ := h.kept.step_spares hc
    refine ⟨hkept, fun s' hs' hm => ?_, fun s' hs' p hp hd hrole hq => ?_, fun s' hs' => ?_,
      hevents ▸ h.heralded⟩
    all_goals obtain ⟨s, hs, hu⟩ := hsite s' hs'
    · rw [Site.applied, RoleTable.role, hu.entry] at hm
      exact (h.master s hs hm).of_device hu.device?
    · exact (h.pushed s hs p (hpending p hp hd) hd hrole hq).of_device hu.device?
    · rw [hevents, h.heard s hs, Replica.isAvailable, Replica.isAvailable, hu.device?]

/-- A device comes before its role. Whatever goes on in a cluster, whatever fails and whatever terms
the member is told: if none of its tasks about a device is begun while one of its pushes to the device
is not answered, then at any time observers know whether the device is available, the device is
available if it is stored and the member is master of it, and whenever the member told of MASTER, the
event showed the device as available and came after the one that told that it became so, with none in
between that told otherwise. -/
theorem device_before_role {c : Cluster} (hc : c.Fresh) {n : NodeId} {d : DeviceId} {as : List Act}
    (h : Throughout (InTurn n d) ⟨c, []⟩ as) (hw : w = as.foldl World.step ⟨c, []⟩) :
    (∀ s, w.cluster.site? n = some s →
      heardAvailable false (eventsOf n d w.cluster.journal) = s.node.replica.isAvailable d ∧
      (s.stored d = true → s.applied d = .master → s.node.replica.isAvailable d = true)) ∧
    ∀ before e after, eventsOf n d w.cluster.journal = before ++ e :: after →
      e.kind = .mastershipChanged → e.role = some .master → e.device.available = true ∧
        ∃ hidden x since, before = hidden ++ x :: since ∧ heardAvailable false hidden = false ∧
          (x.kind = .deviceAdded ∨ x.kind = .deviceUpdated ∨ x.kind = .availabilityChanged) ∧
          x.device.available = true ∧ ∀ y ∈ since, y.availability? ≠ some false := by
  have hrun : w.Heralding n d := by
    rw [hw]
    exact h.run (fun _ _ hi ha => hi.step ha) (heralding_of_fresh hc n d)
  refine ⟨fun s hs => ⟨hrun.heard s hs, fun hstored hm => hrun.master s hs hm hstored⟩, ?_⟩
  intro before e after hsplit hkind hrole
  obtain ⟨hknown, havailable⟩ := (hsplit ▸ hrun.heralded).of_split ⟨hkind, hrole⟩
  obtain ⟨hfalse, _⟩ | ⟨hidden, x, since, rfl, hhidden, hx, hsince⟩ := heardAvailable_since hknown
  · cases hfalse
  · obtain ⟨hkinds, hshown⟩ := DeviceEvent.availability?_eq_true hx
    exact ⟨havailable, hidden, x, since, rfl, hhidden, hkinds, hshown, hsince⟩

end World

namespace Sample

/-- The device disconnects from its owner, which asks for it again when it is audited. -/
def returningActs : List World.Act :=
  joins east ++ [.task east (.disconnect 0 lamp), .task east (.check lamp), .answer 0]

def returning : World := returningActs.foldl World.step ⟨pair, []⟩

theorem returning_alone : World.Throughout (World.Alone east) ⟨pair, []⟩ returningActs := by
  decide +kernel

/-- The last event is that the member is master again, which observers had heard to be gone. -/
theorem returning_master : ∃ before e,
    eventsOf east lamp returning.cluster.journal = before ++ [e] ∧ e.kind = .mastershipChanged ∧
      e.role = some .master ∧ before.any (·.isOffline) = true :=
  ⟨(eventsOf east lamp returning.cluster.journal).dropLast,
    .ofRole ⟨lamp, ⟨"of", "sim"⟩, default, true⟩ .master,
    by decide +kernel, rfl, rfl, by decide +kernel⟩

end Sample

/-- Observers hear that the device is back before they hear that it has its master back. -/
theorem World.returning_device_first : ∃ before e,
    eventsOf Sample.east Sample.lamp Sample.returning.cluster.journal = before ++ [e] ∧
      e.role = some .master ∧ e.device.available = true ∧ before.any (·.isOffline) = true ∧
      ∃ hidden x since, before = hidden ++ x :: since ∧ heardAvailable false hidden = false ∧
        x.device.available = true := by
  obtain ⟨before, e, hevents, hkind, hrole, hoffline⟩ := Sample.returning_master
  have hturn := Sample.returning_alone.imp fun _ _ ha => Alone.inTurn ha Sample.lamp
  obtain ⟨havailable, hidden, x, since, hsplit, hhidden, _, hshown, _⟩ :=
    (device_before_role Sample.pair_fresh hturn (rfl : Sample.returning = _)).2
      before e [] hevents hkind hrole
  exact ⟨before, e, hevents, hrole, havailable, hoffline, hidden, x, since, hsplit, hhidden, hshown⟩

end Mastership
