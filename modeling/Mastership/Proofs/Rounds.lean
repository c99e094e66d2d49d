import Mathlib.Data.List.Perm.Basic
import Mastership.Proofs.Independence
import Mastership.Proofs.Passes

namespace Mastership
namespace Site

variable {d d' : DeviceId} {s₀ s t : Site}

theorem relinquish_faults (s : Site) (d : DeviceId) :
    (s.relinquish d).node.faults = s.node.faults := by
  simp only [Site.relinquish]
  split <;> simp [setRoles]

theorem settle_faults (s : Site) (d : DeviceId) (role : Role) (epoch : Option Nat)
    (result : Except Failure Unit) : (s.settle d role epoch result).node.faults = s.node.faults := by
  cases result with
  | error e => exact relinquish_faults s d
  | ok =>
    simp only [settle]
    split <;> simp [setRoles]

theorem conclude_faults (s : Site) (p : Push) (result : Except Failure Unit) :
    (s.conclude p result).node.faults = s.node.faults := by
  unfold conclude
  split
  · exact settle_faults s _ _ _ result
  · exact settle_faults _ _ _ _ result

theorem startPush_faults (s : Site) (d : DeviceId) (role : Role) (epoch : Option Nat)
    (sequel : Push.Sequel) : (s.startPush d role epoch sequel).1.node.faults = s.node.faults := by
  unfold startPush
  split
  · exact conclude_faults s _ _
  · exact conclude_faults s _ _
  · rfl

theorem answer_faults (s : Site) (p : Push) : (s.answer p).node.faults = s.node.faults := by
  unfold answer
  generalize s.node.south.finish p.slot p.device p.role = r
  obtain ⟨south, result⟩ := r
  cases result with
  | error e => exact conclude_faults _ p _
  | ok calls => exact conclude_faults _ p _

theorem observeTerm_faults (s : Site) (d : DeviceId) :
    (s.observeTerm d).1.node.faults = s.node.faults := by
  unfold observeTerm
  split <;> rfl

theorem observeEpoch_faults (s : Site) (d : DeviceId) (t : Option Term) :
    (s.observeEpoch d t).1.node.faults = s.node.faults := by
  cases t <;> rfl

theorem informed_faults (s : Site) (d : DeviceId) (requested : Role) :
    (s.informed d requested).node.faults = s.node.faults := by
  have hasked : (s.asked d requested).node.faults = s.node.faults := by
    unfold asked
    split
    · rw [request_node]
    · rfl
  exact ((observeEpoch_faults _ d _).trans (observeTerm_faults _ d)).trans hasked

theorem markOnline_faults (s : Site) (d : DeviceId) :
    (s.markOnline d).node.faults = s.node.faults := by
  unfold markOnline
  split
  · rfl
  · split <;> rfl

theorem check_faults (s : Site) (d : DeviceId) : (s.check d).1.node.faults = s.node.faults := by
  have hreassert : (s.reassert d .none).1.node.faults = s.node.faults := by
    rw [reassert_eq]
    dsimp only
    split
    · refine (startPush_faults _ d _ _ _).trans ?_
      split
      · exact (markOnline_faults _ d).trans (informed_faults s d .none)
      · exact informed_faults s d .none
    · exact informed_faults s d .none
  unfold check
  split
  · split
    · exact hreassert
    · rfl
  · rfl

theorem answerNow_of_none {r : Site × Option Push} (h : r.2 = none) : answerNow r = r.1 := by
  obtain ⟨s, push⟩ := r
  obtain rfl : push = none := h
  rfl

theorem answerNow_of_some {r : Site × Option Push} {p : Push} (h : r.2 = some p) :
    answerNow r = r.1.answer p := by
  obtain ⟨s, push⟩ := r
  obtain rfl : push = some p := h
  rfl

/-- What is done about a device without meeting a fault leaves all that is known of other devices. -/
theorem Abreast.spares_of_faults (h : Abreast d s₀ s t) (hf : s.node.faults = s₀.node.faults)
    (hd : d' ≠ d) : Agree d' s₀ s := by
  have hagree := (h.spares d' hd).facing s₀.node.faults.offline
  have hs : (s.facing []).facing s₀.node.faults.offline = s := by
    rw [← hf]
    rfl
  rw [hs] at hagree
  exact hagree

end Site

namespace Cluster

variable {c c' : Cluster} {n : NodeId} {d d' : DeviceId} {s s' t : Site}

/-- Checks one device of a member that answers at once. -/
def check (c : Cluster) (n : NodeId) (d : DeviceId) : Cluster :=
  c.modify n fun s => Site.answerNow (s.check d)

theorem check_of_site (hs : c.site? n = some s) (d : DeviceId) :
    c.check n d = c.setSite n (Site.answerNow (s.check d)) :=
  modify_of_site hs _

/-- A device that cannot be reached, or whose provider crashes when it is asked whether it can be,
and a device that the member has a role of in the election are left as they are. -/
theorem check_of_skipped (hs : c.site? n = some s)
    (h : s.reachable? d ≠ some true ∨ s.electedRole d ≠ .none) : c.check n d = c := by
  rw [check_of_site hs, Site.check_skips h]
  exact setSite_site hs

theorem setSite_setSite (c : Cluster) (n : NodeId) (s t : Site) :
    (c.setSite n s).setSite n t = c.setSite n t := by
  simp only [setSite, Table.insert_insert]

/-- A site may be exchanged for what has come of it by work on one device. -/
theorem Filed.worked (hc : c.Filed) (hs : c.site? n = some s) (h : Site.Abreast d s s' t)
    (hf : s'.node.faults = s.node.faults) :
    (c.setSite n s').Filed ∧ ∀ d' ≠ d, c.Agree d' (c.setSite n s') := by
  have hothers : ∀ d' ≠ d, s.Agree d' s' := fun d' hd => h.spares_of_faults hf hd
  exact ⟨hc.exchange hs h.filed hothers, fun d' hd => agree_setSite hs (hothers d' hd)⟩

end Cluster

namespace World

variable {c : Cluster} {n : NodeId} {d d' : DeviceId} {s₀ : Site} {w w' : World}
  {ds done : List DeviceId} {as : List Act}

/-- The device that an act checks, if it is a check. -/
def Act.checked? : Act → Option DeviceId
  | .task _ (.check d) => some d
  | _ => none

/-- The devices that acts check, in this order. -/
def checksIn (as : List Act) : List DeviceId := as.filterMap Act.checked?

/-- A member checks each of the devices once while nothing else is under way, and all that is pushed is
answered, in whatever order: any number of checks may have begun before the first is answered. -/
structure Round (n : NodeId) (ds : List DeviceId) (c : Cluster) (as : List Act) : Prop where
  acts : ∀ a ∈ as, (∃ d, a = .task n (.check d)) ∨ ∃ i, a = .answer i
  once : (checksIn as).Perm ds
  complete : (as.foldl World.step ⟨c, []⟩).pending = []

/-- The pushes to a device that are still to be answered. -/
def awaited (w : World) (d : DeviceId) : List (NodeId × Push) := w.pending.filter (·.2.device = d)

/-- How far the check of a device has come that has begun in `c`: its push is still to be answered, or
it is over. Either way all is as if nothing else had been done. -/
inductive Checked (c : Cluster) (n : NodeId) (d : DeviceId) (w : World) : Prop
  | asked {s : Site} {p : Push} : c.site? n = some s → (s.check d).2 = some p →
      (c.setSite n (s.check d).1).Agree d w.cluster → w.awaited d = [(n, p)] → Checked c n d w
  | ended : (c.check n d).Agree d w.cluster → w.awaited d = [] → Checked c n d w

/-- The devices `done` are checked or being checked, and all is as if each were the only one. -/
structure Rounding (c : Cluster) (n : NodeId) (done : List DeviceId) (w : World) : Prop where
  filed : w.cluster.Filed
  waiting : ∀ d ∉ done, c.Agree d w.cluster ∧ w.awaited d = []
  checked : ∀ d ∈ done, Checked c n d w

theorem Checked.mono (h : Checked c n d w) (hc : w.cluster.Agree d w'.cluster)
    (hp : w'.awaited d = w.awaited d) : Checked c n d w' := by
  cases h with
  | asked hs hpush hagree haw => exact .asked hs hpush (hagree.trans hc) (hp.trans haw)
  | ended hagree haw => exact .ended (hagree.trans hc) (hp.trans haw)

theorem Rounding.start (hc : c.Filed) (n : NodeId) : Rounding c n [] ⟨c, []⟩ :=
  ⟨hc, fun d _ => ⟨.refl d c, rfl⟩, nofun⟩

/-- What is done about one device concerns no other. -/
theorem Rounding.turn (h : Rounding c n done w) {done' : List DeviceId}
    (hdone : ∀ d', d' ∈ done' ↔ d' ∈ done ∨ d' = d) (hf : w'.cluster.Filed)
    (hothers : ∀ d' ≠ d, w.cluster.Agree d' w'.cluster ∧ w'.awaited d' = w.awaited d')
    (hown : Checked c n d w') : Rounding c n done' w' := by
  refine ⟨hf, fun d' hd => ?_, fun d' hd => ?_⟩
  · obtain ⟨hwaits, hne⟩ := not_or.mp (mt (hdone d').mpr hd)
    obtain ⟨hagree, haw⟩ := hothers d' hne
    exact ⟨(h.waiting d' hwaits).1.trans hagree, haw.trans (h.waiting d' hwaits).2⟩
  · by_cases hne : d' = d
    · exact hne ▸ hown
    · obtain ⟨hagree, haw⟩ := hothers d' hne
      exact (h.checked d' (((hdone d').mp hd).resolve_right hne)).mono hagree haw

theorem awaited_append (c c' : Cluster) (ps : List (NodeId × Push)) (n : NodeId) (p : Push)
    (d : DeviceId) : awaited ⟨c', ps ++ [(n, p)]⟩ d =
      awaited ⟨c, ps⟩ d ++ if p.device = d then [(n, p)] else [] := by
  simp only [awaited, List.filter_append]
  split <;> simp [*]

/-- A check begins. -/
theorem Rounding.check (h : Rounding c n done w) (hc : c.Filed) (hs₀ : c.site? n = some s₀)
    (hd : d ∉ done) : Rounding c n (done ++ [d]) (w.step (.task n (.check d))) := by
  obtain ⟨hagree, haw⟩ := h.waiting d hd
  obtain ⟨s, hs, hst⟩ := hagree.exists_site hs₀
  -- The check is made where others have been made, and beside that in `c`.
  obtain ⟨hown, _⟩ := (Site.Abreast.start (.refl d s) (h.filed.site hs d)).check
  obtain ⟨hbeside, hpush⟩ := (Site.Abreast.start hst (hc.site hs₀ d)).check
  obtain ⟨hfiled, hspares⟩ := h.filed.worked hs hown (s.check_faults d)
  have hset := hagree.setSite n hbeside.agree
  obtain ⟨ms, hdecides⟩ := s₀.check_decides d
  have hdone : ∀ d', d' ∈ done ++ [d] ↔ d' ∈ done ∨ d' = d := by simp
  rw [step_task hs]
  change Rounding c n (done ++ [d])
    ⟨w.cluster.setSite n (s.check d).1, w.pending ++ ((s.check d).2.map (n, ·)).toList⟩
  rw [hpush]
  cases hp : (s₀.check d).2 with
  | none =>
    rw [Option.map_none, Option.toList_none, List.append_nil]
    refine h.turn hdone hfiled (fun d' hd' => ⟨hspares d' hd', rfl⟩) (.ended ?_ haw)
    rw [Cluster.check_of_site hs₀, Site.answerNow_of_none hp]
    exact hset
  | some p =>
    have hpd : p.device = d := hdecides.device p hp
    have haw' : ∀ d', awaited ⟨w.cluster.setSite n (s.check d).1, w.pending ++ [(n, p)]⟩ d' =
        w.awaited d' ++ if d = d' then [(n, p)] else [] := by
      intro d'
      rw [← hpd]
      exact awaited_append w.cluster _ w.pending n p d'
    refine h.turn hdone hfiled (fun d' hd' => ⟨hspares d' hd', ?_⟩) (.asked hs₀ hp hset ?_)
    · exact (haw' d').trans (by rw [if_neg (Ne.symm hd'), List.append_nil])
    · exact (haw' d).trans (by rw [haw, if_pos rfl, List.nil_append])

/-- What is left to be answered when one push is. -/
theorem awaited_eraseIdx {i : Nat} {x : NodeId × Push} (hi : w.pending[i]? = some x)
    (c : Cluster) (d : DeviceId) : (w.awaited d).Perm
      ((if x.2.device = d then [x] else []) ++ awaited ⟨c, w.pending.eraseIdx i⟩ d) := by
  obtain ⟨hlt, rfl⟩ := List.getElem?_eq_some_iff.mp hi
  have hperm := (List.getElem_cons_eraseIdx_perm hlt).symm.filter (·.2.device = d)
  refine hperm.trans (List.Perm.of_eq ?_)
  simp only [awaited, List.filter_cons, decide_eq_true_eq]
  split <;> rfl

/-- At most one push to a device is awaited, by the member that has checked it. -/
theorem Rounding.awaited_of (h : Rounding c n done w) (d : DeviceId) :
    w.awaited d = [] ∨ ∃ p, w.awaited d = [(n, p)] := by
  by_cases hd : d ∈ done
  · cases h.checked d hd with
    | asked _ _ _ haw => exact .inr ⟨_, haw⟩
    | ended _ haw => exact .inl haw
  · exact .inl (h.waiting d hd).2

/-- A push that is awaited is the only one to its device, and a check of the device has left it. -/
theorem Rounding.begun (h : Rounding c n done w) {i : Nat} {m : NodeId} {p : Push}
    (hi : w.pending[i]? = some (m, p)) : m = n ∧ p.device ∈ done ∧ w.awaited p.device = [(n, p)] ∧
      ∃ s, c.site? n = some s ∧ (s.check p.device).2 = some p ∧
        (c.setSite n (s.check p.device).1).Agree p.device w.cluster := by
  have hmem : (m, p) ∈ w.awaited p.device :=
    List.mem_filter.mpr ⟨List.mem_of_getElem? hi, by simp⟩
  have hdone : p.device ∈ done := by
    by_contra hd
    rw [(h.waiting p.device hd).2] at hmem
    cases hmem
  cases h.checked p.device hdone with
  | ended _ haw =>
    rw [haw] at hmem
    cases hmem
  | asked hs hq hagree haw =>
    rw [haw] at hmem
    obtain ⟨rfl, rfl⟩ := Prod.mk.inj (List.mem_singleton.mp hmem)
    exact ⟨rfl, hdone, haw, _, hs, hq, hagree⟩

/-- A push is answered, and the check that has left it is over. -/
theorem Rounding.answer (h : Rounding c n done w) (hc : c.Filed) (i : Nat) :
    Rounding c n done (w.step (.answer i)) := by
  cases hi : w.pending[i]? with
  | none =>
    simp only [World.step, hi]
    exact h
  | some x =>
    obtain ⟨m, p⟩ := x
    obtain ⟨rfl, hdone, haw, s₀, hs₀, hq, hagree⟩ := h.begun hi
    obtain ⟨s, hs, hst⟩ := hagree.exists_site (Cluster.site?_setSite_self _ _ _)
    -- The answer comes where others have been checked, and beside that in `c`.
    obtain ⟨hbegun, _⟩ := (Site.Abreast.start (.refl p.device s₀) (hc.site hs₀ _)).check
    have hown := (Site.Abreast.start (.refl p.device s) (h.filed.site hs _)).answer
    have hbeside := (Site.Abreast.start hst hbegun.filed).answer
    obtain ⟨hfiled, hspares⟩ := h.filed.worked hs hown (s.answer_faults p)
    have hset := hagree.setSite m hbeside.agree
    rw [Cluster.setSite_setSite, ← Site.answerNow_of_some hq, ← Cluster.check_of_site hs₀] at hset
    rw [step_answer hi hs]
    have hperm := awaited_eraseIdx hi (w.cluster.setSite m (s.answer p))
    refine h.turn (d := p.device) ?_ hfiled (fun d' hd' => ⟨hspares d' hd', ?_⟩) (.ended hset ?_)
    · exact fun d' => ⟨.inl, fun hd => hd.elim id (· ▸ hdone)⟩
    · have hrest := hperm d'
      rw [if_neg (Ne.symm hd'), List.nil_append] at hrest
      rcases h.awaited_of d' with haw' | ⟨q, haw'⟩ <;> rw [haw'] at hrest ⊢
      · exact List.nil_perm.mp hrest
      · exact (List.singleton_perm.mp hrest).symm
    · have hrest := hperm p.device
      rw [haw, if_pos rfl, List.singleton_append] at hrest
      exact List.nil_perm.mp hrest.cons_inv

/-- What is checked once all the acts are done, if nothing is checked twice. -/
theorem Rounding.run (h : Rounding c n done w) (hc : c.Filed) (hs₀ : c.site? n = some s₀)
    (ha : ∀ a ∈ as, (∃ d, a = .task n (.check d)) ∨ ∃ i, a = .answer i)
    (hnodup : (done ++ checksIn as).Nodup) :
    Rounding c n (done ++ checksIn as) (as.foldl World.step w) := by
  induction as generalizing done w with
  | nil => rwa [checksIn, List.filterMap_nil, List.append_nil]
  | cons a as ih =>
    have hrest := fun b hb => ha b (List.mem_cons_of_mem a hb)
    rcases ha a List.mem_cons_self with ⟨d, rfl⟩ | ⟨i, rfl⟩
    · have hcons : checksIn (.task n (.check d) :: as) = d :: checksIn as := rfl
      rw [hcons] at hnodup ⊢
      have hd : d ∉ done := fun hd => List.disjoint_of_nodup_append hnodup hd List.mem_cons_self
      rw [List.append_cons] at hnodup ⊢
      exact ih (h.check hc hs₀ hd) hrest hnodup
    · exact ih (h.answer hc i) hrest hnodup

/-- Whatever the order, each device is left as if it had been checked alone. -/
theorem Round.isolated (h : Round n ds c as) (hc : c.Filed) (hs₀ : c.site? n = some s₀)
    (hds : ds.Nodup) :
    (∀ d ∈ ds, (c.check n d).Agree d (as.foldl World.step ⟨c, []⟩).cluster) ∧
      ∀ d ∉ ds, c.Agree d (as.foldl World.step ⟨c, []⟩).cluster := by
  have hnodup : ([] ++ checksIn as).Nodup := h.once.nodup_iff.mpr hds
  have hend := (Rounding.start hc n).run hc hs₀ h.acts hnodup
  rw [List.nil_append] at hend
  refine ⟨fun d hd => ?_, fun d hd => (hend.waiting d (mt h.once.mem_iff.mp hd)).1⟩
  cases hend.checked d (h.once.mem_iff.mpr hd) with
  | asked _ _ _ haw =>
    rw [awaited, h.complete, List.filter_nil] at haw
    cases haw
  | ended hagree _ => exact hagree

/-- Each check is over before the next one begins. -/
def inTurn (n : NodeId) (ds : List DeviceId) : List Act :=
  ds.flatMap fun d => [.task n (.check d), .answer 0]

theorem step_check_answer (c : Cluster) (n : NodeId) (d : DeviceId) :
    (step ⟨c, []⟩ (.task n (.check d))).step (.answer 0) = ⟨c.check n d, []⟩ := by
  cases hs : c.site? n with
  | none =>
    rw [step_task_of_none hs, Cluster.check, Cluster.modify_of_none hs]
    rfl
  | some s =>
    rw [step_task hs, Cluster.check_of_site hs]
    change step ⟨c.setSite n (s.check d).1, ((s.check d).2.map (n, ·)).toList⟩ _ = _
    cases hp : (s.check d).2 with
    | none =>
      rw [Site.answerNow_of_none hp]
      rfl
    | some p =>
      rw [Site.answerNow_of_some hp]
      refine (step_answer rfl (Cluster.site?_setSite_self c n _)).trans ?_
      rw [Cluster.setSite_setSite]
      rfl

theorem run_inTurn (c : Cluster) (n : NodeId) (ds : List DeviceId) :
    (inTurn n ds).foldl World.step ⟨c, []⟩ = ⟨ds.foldl (fun c d => c.check n d) c, []⟩ := by
  induction ds generalizing c with
  | nil => rfl
  | cons d ds ih =>
    rw [inTurn, List.flatMap_cons, List.foldl_append]
    change (inTurn n ds).foldl World.step ((step ⟨c, []⟩ (.task n (.check d))).step (.answer 0)) = _
    rw [step_check_answer]
    exact ih _

theorem checksIn_inTurn (n : NodeId) (ds : List DeviceId) : checksIn (inTurn n ds) = ds := by
  induction ds with
  | nil => rfl
  | cons d ds ih => exact congrArg (d :: ·) ih

theorem inTurn_round (c : Cluster) (n : NodeId) (ds : List DeviceId) :
    Round n ds c (inTurn n ds) where
  acts a ha := by
    obtain ⟨d, _, hmem⟩ := List.mem_flatMap.mp ha
    simp only [List.mem_cons, List.not_mem_nil, or_false] at hmem
    exact hmem.imp (⟨d, ·⟩) (⟨0, ·⟩)
  once := .of_eq (checksIn_inTurn n ds)
  complete := by rw [run_inTurn]

end World

namespace Southbound

variable {s s' : Southbound}

/-- No provider is slow. -/
def Prompt (s : Southbound) : Prop :=
  ∀ p ∈ s.providers.values, ∀ line ∈ p.lines.values, line.delay = 0

instance : Decidable s.Prompt :=
  inferInstanceAs (Decidable (∀ p ∈ s.providers.values, ∀ line ∈ p.lines.values, line.delay = 0))

theorem Prompt.delay (h : s.Prompt) {slot : Nat} {p : Provider}
    (hp : s.providers.get? slot = some p) (d : DeviceId) : (p.line d).delay = 0 := by
  unfold Provider.line
  cases hl : p.lines.get? d with
  | none => rfl
  | some line => exact h p (Table.mem_values.mpr ⟨slot, hp⟩) line (Table.mem_values.mpr ⟨d, hl⟩)

theorem Prompt.alike (h : s.Prompt) (ha : s.Alike s') : s'.Prompt := by
  intro p hp
  obtain ⟨slot, hslot⟩ := Table.mem_values.mp hp
  have hlines := ha.lines slot
  rw [hslot, Option.map_some] at hlines
  obtain ⟨p₀, hp₀, he⟩ := Option.map_eq_some_iff.mp hlines.symm
  rw [← he]
  exact h p₀ (Table.mem_values.mpr ⟨slot, hp₀⟩)

end Southbound

theorem Site.check_alike (s : Site) (d : DeviceId) :
    s.node.south.Alike (answerNow (s.check d)).node.south := by
  obtain ⟨ms, hdecides⟩ := s.check_decides d
  cases hp : (s.check d).2 with
  | none =>
    rw [answerNow_of_none hp]
    exact hdecides.does.south
  | some p =>
    rw [answerNow_of_some hp]
    exact hdecides.does.south.trans ((s.check d).1.answer_does p).south

/-- If devices are filed under their ids, they are listed under the keys of their records. -/
theorem Replica.ids_eq_keys {r : Replica} (h : ∀ d, r.Filed d) :
    r.devices.map Device.id = r.records.keys := by
  simp only [devices, Table.values, Table.keys, List.map_map]
  refine List.map_congr_left fun entry hmem => ?_
  obtain ⟨d, rec⟩ := entry
  exact h d rec.device (Option.map_eq_some_iff.mpr ⟨rec, Table.mem_entries.mp hmem, rfl⟩)

theorem Replica.nodup_ids {r : Replica} (h : ∀ d, r.Filed d) :
    (r.devices.map Device.id).Nodup := by
  rw [ids_eq_keys h]
  exact r.records.keys_ascending.imp Key.ne_of_lt

namespace Timeline

variable {t : Timeline} {n : NodeId} {d : DeviceId} {s : Site} {ds : List DeviceId}

/-- Starts a pass over the devices that a member's store lists in this order. -/
def startPassOver (t : Timeline) (n : NodeId) (ds : List DeviceId) : Timeline × Nat :=
  match t.cluster.nodes.get? n with
  | none => (t, t.tickets)
  | some node =>
    let p : Pass := ⟨t.tickets, n, node.audit.concurrency, node.audit.timeout, ds, []⟩
    (({ t with tickets := t.tickets + 1 }).goOn p, p.ticket)

/-- Audits a member's devices once that its store lists in this order. -/
def auditOver (t : Timeline) (n : NodeId) (ds : List DeviceId) : Timeline × Nat :=
  let (t', pass) := t.startPassOver n ds
  let t' := t'.await pass
  (t', t'.now - t.now)

theorem audit_eq (hs : t.cluster.site? n = some s) :
    t.audit n = t.auditOver n (s.node.replica.devices.map Device.id) := by
  obtain ⟨node, hn, rfl⟩ := Option.map_eq_some_iff.mp hs
  simp only [audit, auditOver, startPass, startPassOver, hn]

theorem delay_prompt (hs : t.cluster.site? n = some s) (h : s.node.south.Prompt) (p : Push) :
    t.delay n p = 0 := by
  obtain ⟨node, hn, rfl⟩ := Option.map_eq_some_iff.mp hs
  simp only [delay, hn, Option.bind_some]
  cases hp : node.south.providers.get? p.slot with
  | none => rfl
  | some provider => exact h.delay hp p.device

/-- A check that is answered at once is not awaited. -/
theorem startCheck_prompt (hs : t.cluster.site? n = some s) (h : s.node.south.Prompt)
    (timeout : Nat) (d : DeviceId) :
    t.startCheck n timeout d = ({ t with cluster := t.cluster.check n d }, none) := by
  have hbegun : (t.cluster.setSite n (s.check d).1).site? n = some (s.check d).1 :=
    Cluster.site?_setSite_self _ _ _
  obtain ⟨ms, hdecides⟩ := s.check_decides d
  rw [Cluster.check_of_site hs]
  simp only [startCheck, run, Cluster.run_of_site hs]
  cases hp : (s.check d).2 with
  | none => rw [Site.answerNow_of_none hp]
  | some p =>
    have hdelay := delay_prompt (t := { t with cluster := t.cluster.setSite n (s.check d).1 })
      hbegun (h.alike hdecides.does.south) p
    rw [Site.answerNow_of_some hp]
    simp only [hdelay, if_true, modify, Cluster.modify_of_site hbegun, Cluster.setSite_setSite]

theorem startChecks_prompt (p : Pass) (ds : List DeviceId) (hs : t.cluster.site? p.node = some s)
    (h : s.node.south.Prompt) : startChecks p ds [] t =
      ({ t with cluster := ds.foldl (fun c d => c.check p.node d) t.cluster },
        { p with queue := [], awaited := [] }) := by
  induction ds generalizing t s with
  | nil => rfl
  | cons d ds ih =>
    have hfree : ¬(p.limit ≠ 0 ∧ p.limit ≤ ([] : List (Nat × Nat)).length) := by simp
    have hnext : (t.cluster.check p.node d).site? p.node = some (Site.answerNow (s.check d)) := by
      rw [Cluster.check_of_site hs]
      exact Cluster.site?_setSite_self _ _ _
    rw [startChecks, if_neg hfree, startCheck_prompt hs h]
    exact ih (t := { t with cluster := t.cluster.check p.node d }) hnext (h.alike (s.check_alike d))

/-- Then a pass is over as soon as it has begun. -/
theorem startPassOver_prompt (hs : t.cluster.site? n = some s) (h : s.node.south.Prompt)
    (ds : List DeviceId) : ∃ tickers, t.startPassOver n ds =
      ({ t with cluster := ds.foldl (fun c d => c.check n d) t.cluster
                tickets := t.tickets + 1, tickers }, t.tickets) := by
  obtain ⟨node, hn, rfl⟩ := Option.map_eq_some_iff.mp hs
  have hchecks := startChecks_prompt (t := { t with tickets := t.tickets + 1 })
    ⟨t.tickets, n, node.audit.concurrency, node.audit.timeout, ds, []⟩ ds hs h
  simp only [startPassOver, hn, goOn, hchecks]
  exact ⟨_, rfl⟩

/-- Nobody waits for a pass that is over. -/
theorem await_of_over {pass : Nat} (h : t.isUnderWay pass = false) : t.await pass = t := by
  rw [await, awaitFor, if_neg (Bool.eq_false_iff.mp h)]

theorem auditOver_prompt (hs : t.cluster.site? n = some s) (h : s.node.south.Prompt)
    (ht : t.isUnderWay t.tickets = false) (ds : List DeviceId) :
    ∃ tickers, t.auditOver n ds =
      ({ t with cluster := ds.foldl (fun c d => c.check n d) t.cluster
                tickets := t.tickets + 1, tickers }, 0) := by
  obtain ⟨tickers, hpass⟩ := startPassOver_prompt hs h ds
  refine ⟨tickers, ?_⟩
  have hover := await_of_over (t := { t with
    cluster := ds.foldl (fun c d => c.check n d) t.cluster
    tickets := t.tickets + 1, tickers }) ht
  simp only [auditOver, hpass, hover, Nat.sub_self]

/-- The checks of an audit keep apart. Let no provider of a member be slow, let its store list its
devices in any order, and let any number of checks be allowed at once. Then an audit is over at
once, whichever devices refuse their roles and whichever providers crash when they are asked whether
a device can be reached. It checks each stored device, once, and leaves each as if it had been the
only one to be checked: its election, what every member knows of it, what was done towards it, and
the notices about it. All other devices are left as they were, and so are those that cannot be
reached and those that the member has a role of in the election. Nor does it matter that checks
overlap: to whatever extent they do, and in whatever order the devices answer, the cluster comes to
be the same. All it takes is that members file their devices under their ids and that no ticket is
given out twice, which is so whatever happens (`World.Kept.filed`, `Numbered.audit`,
`Numbered.elapse`). -/
theorem audit_isolated (hc : t.cluster.Filed) (ht : t.Numbered)
    (hs : t.cluster.site? n = some s) (hprompt : s.node.south.Prompt)
    (hds : ds.Perm (s.node.replica.devices.map Device.id)) :
    t.audit n = t.auditOver n (s.node.replica.devices.map Device.id) ∧ ds.Nodup ∧
    ∃ t', t.auditOver n ds = (t', 0) ∧ t'.now = t.now ∧ t'.pending = t.pending ∧
      t'.passes = t.passes ∧ t'.cluster = ds.foldl (fun c d => c.check n d) t.cluster ∧
      (∀ d ∈ ds, (t.cluster.check n d).Agree d t'.cluster) ∧
      (∀ d, d ∉ ds ∨ s.reachable? d ≠ some true ∨ s.electedRole d ≠ .none →
        t.cluster.Agree d t'.cluster) ∧
      ∀ as, World.Round n ds t.cluster as →
        t'.cluster.Matches (as.foldl World.step ⟨t.cluster, []⟩).cluster := by
  have hnodup : ds.Nodup := hds.nodup_iff.mpr (Replica.nodup_ids (hc.site hs))
  have hfree : t.isUnderWay t.tickets = false := by
    rw [isUnderWay, List.any_eq_false]
    intro p hp he
    exact Nat.ne_of_lt (ht p hp) (beq_iff_eq.mp he)
  obtain ⟨tickers, haudit⟩ := auditOver_prompt hs hprompt hfree ds
  obtain ⟨hchecked, hothers⟩ := (World.inTurn_round t.cluster n ds).isolated hc hs hnodup
  rw [World.run_inTurn] at hchecked hothers
  refine ⟨audit_eq hs, hnodup, _, haudit, rfl, rfl, rfl, rfl, hchecked, ?_, fun as has => ?_⟩
  · rintro d (hd | hskipped)
    · exact hothers d hd
    · by_cases hd : d ∈ ds
      · have hagree := hchecked d hd
        rwa [Cluster.check_of_skipped hs hskipped] at hagree
      · exact hothers d hd
  · obtain ⟨hchecked', hothers'⟩ := has.isolated hc hs hnodup
    refine Cluster.matches_of_agree fun d => ?_
    by_cases hd : d ∈ ds
    · exact (hchecked d hd).symm.trans (hchecked' d hd)
    · exact (hothers d hd).symm.trans (hothers' d hd)

end Timeline

namespace Sample

def kiln : DeviceId := ⟨"of:3"⟩

/-- A device has connected and is given up by hand. -/
def arrives (d : DeviceId) : List World.Act :=
  [.change east (.setLine 0 d { reachable := true }), .task east (.connect 0 d default), .answer 0,
    .relinquish east d]

/-- Three devices are stored and nobody's. The provider crashes over the first one, and the second
one refuses roles. -/
def stockedActs : List World.Act :=
  opens east ++ [lamp, desk, kiln].flatMap arrives ++
    [.change east (.setLine 0 lamp { reachable := true, crashing := true }),
      .change east (.setLine 0 desk { reachable := true, rejecting := true })]

def stocked : Timeline := { cluster := (stockedActs.foldl World.step ⟨pair, []⟩).cluster }

theorem stocked_site : ∃ s, stocked.cluster.site? east = some s ∧ s.node.south.Prompt ∧
    s.node.replica.devices.map Device.id = [lamp, desk, kiln] ∧ s.reachable? lamp = none := by
  have h : (stocked.cluster.site? east).any (fun s => decide s.node.south.Prompt &&
      s.node.replica.devices.map Device.id == [lamp, desk, kiln] &&
      (s.reachable? lamp).isNone) = true := by
    decide +kernel
  simpa [Option.any_eq_true, and_assoc] using h

theorem stocked_filed : stocked.cluster.Filed :=
  ((World.kept_of_fresh pair_fresh).run stockedActs).filed

theorem stocked_checks :
    (stocked.cluster.check east kiln).election.master? kiln = some east ∧
      (stocked.cluster.check east desk).election.master? desk = none := by
  decide +kernel

/-- All checks begin before any is answered, and the last one is answered first. -/
def overlapping : List World.Act :=
  [.task east (.check desk), .task east (.check lamp), .task east (.check kiln), .answer 1, .answer 0]

theorem overlapping_round : World.Round east [kiln, lamp, desk] stocked.cluster overlapping where
  acts := by simp [overlapping]
  once := by decide +kernel
  complete := by decide +kernel

end Sample

/-- An audit gets one device for its member, though the provider crashes over another and a third one
refuses, and so does one whose checks overlap. -/
theorem Timeline.stocked_isolated :
    ∃ t', Sample.stocked.auditOver Sample.east [Sample.kiln, Sample.lamp, Sample.desk] = (t', 0) ∧
      t'.cluster.election.master? Sample.kiln = some Sample.east ∧
      t'.cluster.election.master? Sample.desk = none ∧
      Sample.stocked.cluster.Agree Sample.lamp t'.cluster ∧
      t'.cluster.Matches (Sample.overlapping.foldl World.step ⟨Sample.stocked.cluster, []⟩).cluster := by
  obtain ⟨s, hs, hprompt, hids, hcrash⟩ := Sample.stocked_site
  obtain ⟨hkiln, hdesk⟩ := Sample.stocked_checks
  have hds : [Sample.kiln, Sample.lamp, Sample.desk].Perm
      (s.node.replica.devices.map Device.id) := by
    rw [hids]
    decide +kernel
  obtain ⟨_, _, t', haudit, _, _, _, _, hchecked, huntouched, hoverlap⟩ :=
    audit_isolated Sample.stocked_filed nofun hs hprompt hds
  have hmaster : ∀ d ∈ [Sample.kiln, Sample.lamp, Sample.desk], t'.cluster.election.master? d =
      (Sample.stocked.cluster.check Sample.east d).election.master? d := by
    intro d hd
    simp only [Election.master?, Election.seat_of_get? (hchecked d hd).seat]
  refine ⟨t', haudit, (hmaster _ (by simp)).trans hkiln, (hmaster _ (by simp)).trans hdesk,
    huntouched _ (.inr (.inl ?_)), hoverlap _ Sample.overlapping_round⟩
  simp [hcrash]

end Mastership
