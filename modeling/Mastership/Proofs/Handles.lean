import Mastership.Proofs.Concerns
import Mastership.Proofs.Holdings
import Mastership.Proofs.Independence
import Mastership.Proofs.Service

namespace Mastership

theorem Table.size_map {κ β γ : Type} [Key κ] (f : β → γ) (t : Table κ β) :
    (t.map f).size = t.size :=
  List.length_map _

namespace Registry

variable {r r' : Registry} {id id' : ProviderId} {slot : Nat}

theorem isRegistered_unregister (r : Registry) (id : ProviderId) :
    (r.unregister id).1.isRegistered id = false := by
  unfold unregister
  split
  · simp [isRegistered]
  · next h => exact Bool.eq_false_iff.mpr h

/-- To unregister a provider registers none. -/
theorem isRegistered_of_unregister (h : (r.unregister id').1.isRegistered id = true) :
    r.isRegistered id = true := by
  unfold unregister at h
  split at h
  · simp only [isRegistered, Table.get?_erase] at h ⊢
    split at h
    · cases h
    · exact h
  · exact h

/-- A registration makes no other id registered. -/
theorem isRegistered_of_register (h : r.register id' slot = .ok r') (hid : id ≠ id')
    (hr : r'.isRegistered id = true) : r.isRegistered id = true := by
  unfold register at h
  split at h
  · cases h
  · cases h
    simp only [isRegistered, Table.get?_insert] at hr ⊢
    split at hr
    · exact absurd (by simpa using hr) (Ne.symm hid)
    · exact hr

end Registry

namespace Southbound

variable {s s' : Southbound} {id id' : ProviderId} {slot : Nat}

/-- The ids of all providers, by slot. -/
def ids (s : Southbound) : Table Nat ProviderId := s.providers.map Provider.id

theorem Alike.ids_eq (h : s.Alike s') : s'.ids = s.ids := by
  refine Table.ext fun slot => ?_
  rw [Southbound.ids, Southbound.ids, Table.get?_map, Table.get?_map, h.ids]

theorem ids_setLine (s : Southbound) (slot : Nat) (d : DeviceId) (f : Line → Line) :
    (s.setLine slot d f).ids = s.ids := by
  unfold setLine
  split
  · rfl
  · next p hp =>
    rw [ids, Table.map_insert]
    exact Table.insert_eq_self (by simp [hp, Provider.setLine])

theorem registry_setLine (s : Southbound) (slot : Nat) (d : DeviceId) (f : Line → Line) :
    (s.setLine slot d f).registry = s.registry := by
  unfold setLine
  split <;> rfl

theorem Packed.of_ids (h : s.Packed) (hi : s'.ids = s.ids) : s'.Packed := by
  intro slot hslot
  have hsize : s'.providers.size = s.providers.size := by
    rw [← Table.size_map Provider.id, ← Table.size_map Provider.id s.providers]
    exact congrArg Table.size hi
  have hsome := congrArg (fun t => (t.get? slot).isSome) hi
  simp only [ids, Table.get?_map, Option.isSome_map] at hsome
  rw [hsize]
  exact h slot (hsome ▸ hslot)

/-- A provider that is registered takes a new slot, and all others keep theirs. -/
theorem Packed.get?_ids_enroll (h : s.Packed) (hslot : s.ids.get? slot = some id)
    (id' : ProviderId) : (s.enroll id').ids.get? slot = some id := by
  unfold enroll register
  cases hr : (s.add id').registry.register id' s.providers.size with
  | error e => exact hslot
  | ok r =>
    have hlt : slot < s.providers.size := h slot <| by
      rw [ids, Table.get?_map] at hslot
      obtain ⟨p, hp, _⟩ := Option.map_eq_some_iff.mp hslot
      simp [hp]
    change (s.add id').ids.get? slot = some id
    rw [ids, add, Table.map_insert, Table.get?_insert_of_ne _ _ (Nat.ne_of_gt hlt)]
    exact hslot

theorem isRegistered_of_enroll (hid : id ≠ id')
    (hr : (s.enroll id').registry.isRegistered id = true) : s.registry.isRegistered id = true := by
  unfold enroll register at hr
  cases hreg : (s.add id').registry.register id' s.providers.size with
  | error e =>
    rw [hreg] at hr
    exact hr
  | ok r =>
    rw [hreg] at hr
    exact Registry.isRegistered_of_register hreg hid hr

end Southbound

namespace Site

variable {s : Site} {id : ProviderId} {slot : Nat}

/-- The slot through which a provider calls back. -/
def Task.slot? : Task → Option Nat
  | .connect slot _ _ | .disconnect slot _ | .setPorts slot _ _ | .setPort slot _ _
  | .setStatistics slot _ _ | .roleReply slot _ _ _ => some slot
  | .reassert .. | .check _ | .handle _ | .remove _ => none

/-- A callback that is refused fails, changes nothing, and leaves no push. -/
theorem run_of_refusal {failure : Failure} (h : s.refusal? slot = some failure) {t : Task}
    (ht : t.slot? = some slot) : s.outcome t = .failed failure ∧ s.run t = (s, none) := by
  cases t <;> simp only [Task.slot?, Option.some.injEq, reduceCtorEq] at ht <;> subst ht <;>
    simp [outcome, run, connect, disconnect, setPorts, setPort, setStatistics, roleReply, guarded, h]

theorem refusal?_of_id (h : s.node.south.ids.get? slot = some id)
    (hid : s.node.south.registry.isRegistered id = false) :
    s.refusal? slot =
      some (if s.node.active then .providerInvalid id.text else .shuttingDown) := by
  have hslot : s.providerId slot = id := by
    rw [Southbound.ids, Table.get?_map] at h
    simp [providerId, h]
  unfold refusal?
  rw [hslot]
  by_cases ha : s.node.active <;> simp [ha, hid]

theorem register_of_error {failure : Failure} (h : (s.register id).2 = .error failure) :
    (s.register id).1 = s := by
  unfold register at h ⊢
  dsimp only at h ⊢
  split at h
  · rfl
  · cases h

theorem run_alike (s : Site) (t : Task) : s.node.south.Alike (s.run t).1.node.south := by
  obtain ⟨ms, h⟩ := s.run_decides t
  exact h.does.south

/-- The controller has taken its slots in order, and this one for a provider with this id. -/
structure Issued (slot : Nat) (id : ProviderId) (c : Controller) : Prop where
  packed : c.south.Packed
  kept : c.south.ids.get? slot = some id

theorem Issued.of_ids {c c' : Controller} (h : Issued slot id c) (hi : c'.south.ids = c.south.ids) :
    Issued slot id c' :=
  ⟨h.packed.of_ids hi, hi ▸ h.kept⟩

theorem packed_change (h : s.node.south.Packed) (c : Change) : (s.change c).node.south.Packed := by
  cases c with
  | register id =>
    rw [change, Southbound.register_eq_enroll]
    exact Southbound.enroll_packed h id
  | unregister id => exact h.of_ids rfl
  | setLine slot d line => exact h.of_ids (Southbound.ids_setLine _ _ _ _)
  | setFaults faults => exact h
  | setActive active => exact h

theorem Issued.change (h : Issued slot id s.node) (c : Change) :
    Issued slot id (s.change c).node := by
  refine ⟨packed_change h.packed c, ?_⟩
  cases c with
  | register id' =>
    rw [Site.change, Southbound.register_eq_enroll]
    exact h.packed.get?_ids_enroll h.kept id'
  | unregister id' => exact h.kept
  | setLine slot' d line =>
    exact (congrArg (·.get? slot) (Southbound.ids_setLine _ _ _ _)).trans h.kept
  | setFaults faults => exact h.kept
  | setActive active => exact h.kept

/-- Who registers a provider is given a slot that has its id. -/
theorem issued_register (h : s.node.south.Packed) (hr : (s.register id).2 = .ok slot) :
    Issued slot id (s.change (.register id)).node := by
  refine ⟨packed_change h _, ?_⟩
  simp only [Site.change, Site.register, Southbound.register] at hr ⊢
  cases hreg : (s.node.south.add id).registry.register id s.node.south.providers.size with
  | error e =>
    rw [hreg] at hr
    cases hr
  | ok r =>
    rw [hreg] at hr
    cases hr
    change ((s.node.south.add id).providers.map Provider.id).get? s.node.south.providers.size = _
    simp [Southbound.add]

end Site

namespace World

variable {n : NodeId} {id : ProviderId} {slot : Nat} {w : World} {s : Site} {as : List Act}

/-- Every member of a cluster has taken the slots of its providers in order. -/
def Packed (w : World) : Prop :=
  ∀ n s, w.cluster.site? n = some s → s.node.south.Packed

theorem Packed.step (h : w.Packed) (a : Act) : (w.step a).Packed := by
  refine step_nodes (P := fun _ node => node.south.Packed) ?_ ?_ ?_ h a
  · exact fun _ s t hs => hs.of_ids (s.run_alike t).ids_eq
  · exact fun _ s c hs => Site.packed_change hs c
  · exact fun _ s p hs => hs.of_ids (s.answer_does p).south.ids_eq

theorem Packed.run (h : w.Packed) (as : List Act) : (as.foldl World.step w).Packed := by
  induction as generalizing w with
  | nil => exact h
  | cons a as ih => exact ih (h.step a)

/-- The slot is one that the member has given to a provider with this id. -/
def Issued (w : World) (n : NodeId) (slot : Nat) (id : ProviderId) : Prop :=
  ∀ s, w.cluster.site? n = some s → Site.Issued slot id s.node

theorem Issued.step (h : w.Issued n slot id) (a : Act) : (w.step a).Issued n slot id := by
  have hall : ∀ m s, w.cluster.site? m = some s → m = n → Site.Issued slot id s.node := by
    rintro m s hs rfl
    exact h s hs
  refine fun s hs => step_nodes (P := fun m node => m = n → Site.Issued slot id node)
    ?_ ?_ ?_ hall a n s hs rfl
  · exact fun _ s t hs hm => (hs hm).of_ids (s.run_alike t).ids_eq
  · exact fun _ s c hs hm => (hs hm).change c
  · exact fun _ s p hs hm => (hs hm).of_ids (s.answer_does p).south.ids_eq

theorem Issued.run (h : w.Issued n slot id) (as : List Act) :
    (as.foldl World.step w).Issued n slot id := by
  induction as generalizing w with
  | nil => exact h
  | cons a as ih => exact ih (h.step a)

theorem Packed.register (h : w.Packed) (hs : w.cluster.site? n = some s)
    (hr : (s.register id).2 = .ok slot) : (w.step (.change n (.register id))).Issued n slot id := by
  intro s' hs'
  simp only [World.step, Cluster.modify_of_site hs, Cluster.site?_setSite_self] at hs'
  cases hs'
  exact Site.issued_register (h n s hs) hr

/-- The act registers a provider with this id at the member. -/
def Enrolls (w : World) (n : NodeId) (id : ProviderId) : Act → Prop
  | .change m (.register id') => m = n ∧ id' = id ∧
      ∃ s slot, w.cluster.site? n = some s ∧ (s.register id).2 = .ok slot
  | _ => False

/-- The member has no provider with this id registered. -/
def Unserved (w : World) (n : NodeId) (id : ProviderId) : Prop :=
  ∀ s, w.cluster.site? n = some s → s.node.south.registry.isRegistered id = false

/-- No other act registers a provider with this id. -/
theorem Unserved.step (h : w.Unserved n id) {a : Act} (ha : ¬ w.Enrolls n id a) :
    (w.step a).Unserved n id := by
  have hsteps := w.steps a
  generalize w.step a = w' at hsteps ⊢
  have hset : ∀ {m s s'}, w.cluster.site? m = some s →
      (m = n → s'.node.south.registry.isRegistered id = true →
        s.node.south.registry.isRegistered id = true) →
      ∀ pending, Unserved ⟨w.cluster.setSite m s', pending⟩ n id := by
    intro m s s' hs hkeep pending x hx
    rcases Cluster.site?_setSite hx with ⟨rfl, rfl⟩ | ⟨_, y, hy, rfl⟩
    · rw [Bool.eq_false_iff]
      intro hr
      exact Bool.eq_false_iff.mp (h s hs) (hkeep rfl hr)
    · exact h y hy
  cases hsteps with
  | idle => exact h
  | @task m s t hs =>
    refine hset hs (fun _ hr => ?_) _
    rwa [(s.run_alike t).registry] at hr
  | @change m s c hs =>
    refine hset hs (fun hm hr => ?_) _
    cases c with
    | register id' =>
      cases hreg : (s.register id').2 with
      | error e =>
        rw [Site.change, Site.register_of_error hreg] at hr
        exact hr
      | ok slot =>
        have hid : id ≠ id' := by
          rintro rfl
          exact ha ⟨hm, rfl, s, slot, hm ▸ hs, hreg⟩
        rw [Site.change, Southbound.register_eq_enroll] at hr
        exact Southbound.isRegistered_of_enroll hid hr
    | unregister id' => exact Registry.isRegistered_of_unregister hr
    | setLine slot d line => rwa [Site.change, Site.setLine, Site.setSouth, Southbound.registry_setLine] at hr
    | setFaults faults => exact hr
    | setActive active => exact hr
  | @answer m s i p _ hs =>
    refine hset hs (fun _ hr => ?_) _
    rwa [(s.answer_does p).south.registry] at hr
  | lost => exact h
  | moved =>
    intro s hs
    obtain ⟨s₀, hs₀, hn⟩ := site?_moveElection hs
    rw [hn]
    exact h s₀ hs₀

theorem unserved_unregister (w : World) (n : NodeId) (id : ProviderId) :
    (w.step (.change n (.unregister id))).Unserved n id := by
  intro s hs
  cases hs₀ : w.cluster.site? n with
  | none =>
    simp only [World.step, Cluster.modify_of_none hs₀] at hs
    rw [hs₀] at hs
    cases hs
  | some s₀ =>
    simp only [World.step, Cluster.modify_of_site hs₀, Cluster.site?_setSite_self] at hs
    cases hs
    exact Registry.isRegistered_unregister _ id

/-- A handle is dead while its id is not registered. Let anything happen in a cluster, let a member
register a provider, which is given a slot to call back through, let anything happen again, let the
provider be unregistered, and let anything happen once more, in which other providers may come and go,
also for the same devices. As long as no provider with the very same id is registered, each of the six
callbacks through the slot fails, because the member is not active or because the provider is not
registered, and it leaves the whole cluster as it is. -/
theorem retired_handle_refused {w₀ w₁ w₂ : World} (hw₀ : w₀.Packed) (before between after : List Act)
    (hw : w = before.foldl World.step w₀) (hs : w.cluster.site? n = some s)
    (hissued : (s.register id).2 = .ok slot)
    (hw₁ : w₁ = between.foldl World.step (w.step (.change n (.register id))))
    (hw₂ : w₂ = after.foldl World.step (w₁.step (.change n (.unregister id))))
    (ha : Throughout (fun w a => ¬ w.Enrolls n id a) (w₁.step (.change n (.unregister id))) after)
    {s₂ : Site} (hs₂ : w₂.cluster.site? n = some s₂) {t : Site.Task} (ht : t.slot? = some slot) :
    s₂.outcome t = .failed (if s₂.node.active then .providerInvalid id.text else .shuttingDown) ∧
      w₂.step (.task n t) = w₂ := by
  have hpacked : w.Packed := hw ▸ hw₀.run before
  have hkept : w₂.Issued n slot id :=
    hw₂ ▸ ((hw₁ ▸ (hpacked.register hs hissued).run between).step _).run after
  have hunserved : w₂.Unserved n id := hw₂ ▸ ha.run (I := fun w => w.Unserved n id)
    (fun _ _ h ha => h.step ha) (unserved_unregister w₁ n id)
  have hrefused := Site.refusal?_of_id (hkept s₂ hs₂).kept (hunserved s₂ hs₂)
  obtain ⟨houtcome, hrun⟩ := Site.run_of_refusal hrefused ht
  refine ⟨houtcome, ?_⟩
  rw [step_task hs₂, hrun, Cluster.setSite_site hs₂]
  simp

end World

namespace Sample

theorem pair_packed : World.Packed ⟨pair, []⟩ := by
  intro n s hs
  obtain ⟨node, hnode, rfl⟩ := Option.map_eq_some_iff.mp hs
  have hsouth : node.south = {} := by
    simp only [pair, Table.get?_insert, Table.get?_emptyCollection] at hnode
    split at hnode
    · cases hnode
      rfl
    · split at hnode
      · cases hnode
        rfl
      · cases hnode
  intro slot hslot
  simp [hsouth] at hslot

/-- A member that is about to register its first provider. -/
def opening : World := World.step ⟨pair, []⟩ (.change east (.setActive true))

/-- The member has its provider registered, and its device connected. -/
def served : World :=
  [.change east (.setLine 0 lamp { reachable := true }), .task east (.connect 0 lamp default),
    .answer 0].foldl World.step (opening.step (.change east (.register ⟨"of", "sim"⟩)))

/-- The provider is gone, and one with another id serves its devices. -/
def replacedActs : List World.Act := [.change east (.register ⟨"of", "other"⟩)]

def replaced : World :=
  replacedActs.foldl World.step (served.step (.change east (.unregister ⟨"of", "sim"⟩)))

theorem opening_issues : ∃ s, opening.cluster.site? east = some s ∧
    (s.register ⟨"of", "sim"⟩).2 = .ok 0 := by
  have h : (opening.cluster.site? east).any
      (fun s => decide ((s.register ⟨"of", "sim"⟩).2 = .ok 0)) = true := by
    decide +kernel
  simpa [Option.any_eq_true] using h

theorem replacedActs_enroll_another :
    World.Throughout (fun w a => ¬ w.Enrolls east ⟨"of", "sim"⟩ a)
      (served.step (.change east (.unregister ⟨"of", "sim"⟩))) replacedActs := by
  simp [replacedActs, World.Throughout, World.Enrolls]

theorem replaced_active : ∃ s, replaced.cluster.site? east = some s ∧ s.node.active = true := by
  have h : (replaced.cluster.site? east).any (fun s => s.node.active) = true := by decide +kernel
  simpa [Option.any_eq_true] using h

end Sample

/-- Another provider of the scheme does not bring back the handle of the first one. -/
theorem World.replaced_handle_refused :
    ∃ s, Sample.replaced.cluster.site? Sample.east = some s ∧
      s.outcome (.setStatistics 0 Sample.lamp [default]) = .failed (.providerInvalid "of:sim") ∧
      Sample.replaced.step (.task Sample.east (.setStatistics 0 Sample.lamp [default])) =
        Sample.replaced := by
  obtain ⟨s₀, hs₀, hissued⟩ := Sample.opening_issues
  obtain ⟨s, hs, hactive⟩ := Sample.replaced_active
  obtain ⟨houtcome, hstep⟩ := World.retired_handle_refused (Sample.pair_packed.step _) [] _ _
    rfl hs₀ hissued rfl rfl Sample.replacedActs_enroll_another hs
    (t := .setStatistics 0 Sample.lamp [default]) rfl
  rw [if_pos hactive] at houtcome
  exact ⟨s, hs, houtcome, hstep⟩

namespace Sample

/-- The provider is gone, and another one with its id is registered, in the next slot. -/
def succeeded : World :=
  [.change east (.unregister ⟨"of", "sim"⟩), .change east (.register ⟨"of", "sim"⟩)].foldl
    World.step served

end Sample

/-- Another provider with the same id brings back the handle of the one that was unregistered: what the
first one reports is posted, though only the second one is registered. -/
theorem World.retired_handle_revives :
    ∃ s s', Sample.served.cluster.site? Sample.east = some s ∧
      (s.unregister ⟨"of", "sim"⟩).2 = true ∧
      Sample.succeeded.cluster.site? Sample.east = some s' ∧
      s'.node.south.registry.entries.get? "of" = some ⟨⟨"of", "sim"⟩, 1⟩ ∧
      s'.outcome (.setStatistics 0 Sample.lamp [default]) = .done ∧
      (s'.run (.setStatistics 0 Sample.lamp [default])).1.journal ≠ s'.journal := by
  have hserved : (Sample.served.cluster.site? Sample.east).any
      (fun s => (s.unregister ⟨"of", "sim"⟩).2) = true := by
    decide +kernel
  have hsucceeded : (Sample.succeeded.cluster.site? Sample.east).any (fun s =>
      decide (s.node.south.registry.entries.get? "of" = some ⟨⟨"of", "sim"⟩, 1⟩ ∧
        s.outcome (.setStatistics 0 Sample.lamp [default]) = .done ∧
        (s.run (.setStatistics 0 Sample.lamp [default])).1.journal ≠ s.journal)) = true := by
    decide +kernel
  obtain ⟨s, hs, hfound⟩ := (Option.any_eq_true _ _).mp hserved
  obtain ⟨s', hs', hrevived⟩ := (Option.any_eq_true _ _).mp hsucceeded
  exact ⟨s, s', hs, hfound, hs', of_decide_eq_true hrevived⟩

end Mastership
