import Mastership.Proofs.Locality

namespace Mastership

namespace Site

/-- All that is known of `d` at the two sites is the same, with all that has left about it. -/
structure Agree (d : DeviceId) (s t : Site) : Prop where
  seat : t.election.seats.get? d = s.election.seats.get? d
  node : s.node.Agree d t.node
  journal : about d t.journal = about d s.journal

theorem Agree.refl (d : DeviceId) (s : Site) : Agree d s s := ⟨rfl, .refl d _, rfl⟩

theorem Agree.trans {d : DeviceId} {s s' s'' : Site} (h : Agree d s s') (h' : Agree d s' s'') :
    Agree d s s'' :=
  ⟨h'.seat.trans h.seat, h.node.trans h'.node, h'.journal.trans h.journal⟩

/-- The site with other faults to meet its attempts to mark a device offline. -/
def facing (s : Site) (faults : List (Option OfflineFault)) : Site :=
  s.setFaults fun f => { f with offline := faults }

/-- Work on the device `d` has led from `s₀` to `s`, and `t` agrees with `s` about it. About all other
devices `s` agrees with `s₀`, but for the faults of marking that have been met on the way. To do the
same about `d` at `s` and at `t` keeps this, and both come to the same answer. -/
structure Abreast (d : DeviceId) (s₀ s t : Site) : Prop where
  agree : Agree d s t
  filed : s.node.replica.Filed d
  spares : ∀ d' ≠ d, Agree d' (s₀.facing []) (s.facing [])

/-- Besides, both come to the same answer. -/
def Concur {α : Type} (d : DeviceId) (s₀ : Site) (r r' : Site × α) : Prop :=
  Abreast d s₀ r.1 r'.1 ∧ r'.2 = r.2

variable {d : DeviceId} {s₀ s t : Site}

theorem request_eq (s : Site) (d : DeviceId) : s.request d =
    if s.node.faults.request then s.note [.asked s.node.id d .request]
    else (s.note [.asked s.node.id d .request]).moveElection
      (s.election.move d (.request s.node.id)) := rfl

theorem withdraw_eq (s : Site) (d : DeviceId) : s.withdraw d =
    if s.node.faults.relinquish then s.note [.asked s.node.id d .relinquish]
    else (s.note [.asked s.node.id d .relinquish]).moveElection
      (s.election.move d (.relinquish s.node.id)) := rfl

def setStore (s : Site) (replica : Replica) (clock : Clock) : Site :=
  { s with node := { s.node with replica, clock } }

/-- How an attempt to mark a device offline ends that no fault meets. -/
def Marking.of : Except Failure (Option DeviceEvent) → Marking
  | .ok event => .marked event
  | .error e => .refused e

theorem markOffline_strikes (fault : OfflineFault) (d : DeviceId) :
    ∃ m : Marking, (∀ event, m ≠ .marked event) ∧ ∀ s : Site,
      s.node.faults.offline.head?.join = some fault →
        s.markOffline d = (s.facing s.node.faults.offline.tail, m) := by
  cases fault with
  | stale =>
    exact ⟨.refused (.staleMastership d), by simp, fun s hs => by simp only [markOffline, hs]; rfl⟩
  | internal =>
    exact ⟨.refused (.internal "store failed"), by simp,
      fun s hs => by simp only [markOffline, hs]; rfl⟩
  | crash => exact ⟨.crashed, by simp, fun s hs => by simp only [markOffline, hs]; rfl⟩

/-- Without a fault the store is written, and the clock with it. -/
theorem markOffline_unstruck {s : Site} (hs : s.node.faults.offline.head?.join = none)
    (d : DeviceId) : s.markOffline d =
      ((s.facing s.node.faults.offline.tail).setStore
        (s.node.replica.markOffline s.node.clock d).1
        (s.node.replica.markOffline s.node.clock d).2.1,
        .of (s.node.replica.markOffline s.node.clock d).2.2) := by
  simp only [markOffline, hs]
  cases (s.node.replica.markOffline s.node.clock d).2.2 <;> rfl

namespace Abreast

theorem start (h : Agree d s t) (hf : s.node.replica.Filed d) : Abreast d s s t :=
  ⟨h, hf, fun d' _ => .refl d' _⟩

theorem id_eq (h : Abreast d s₀ s t) : t.node.id = s.node.id := h.agree.node.id

theorem device?_eq (h : Abreast d s₀ s t) :
    t.node.replica.device? d = s.node.replica.device? d := by
  simp only [Replica.device?, h.agree.node.record]

theorem term?_eq (h : Abreast d s₀ s t) : t.term? d = s.term? d := by
  simp only [term?, h.agree.node.term, Election.term?, Election.seat_of_get? h.agree.seat]

theorem owns_eq (h : Abreast d s₀ s t) (term : Option Term) : t.owns term = s.owns term := by
  simp only [owns, h.id_eq]

theorem slotFor_eq (h : Abreast d s₀ s t) : t.node.south.slotFor d = s.node.south.slotFor d := by
  simp only [Southbound.slotFor, h.agree.node.registry]

theorem reachable?_eq (h : Abreast d s₀ s t) : t.reachable? d = s.reachable? d := by
  have hline : ∀ south : Southbound, south.lineFor d = ((south.slotFor d).bind fun slot =>
      ((south.providers.get? slot).map (·.at d)).map fun x => x.2.1.getD {}) := by
    intro south
    simp only [Southbound.lineFor]
    cases south.slotFor d with
    | none => rfl
    | some slot => cases hp : south.providers.get? slot <;> simp [hp, Provider.at, Provider.line]
  simp only [reachable?, hline, h.slotFor_eq, h.agree.node.providers]

theorem providerId_eq (h : Abreast d s₀ s t) (slot : Nat) :
    t.providerId slot = s.providerId slot := by
  have hid : ∀ south : Southbound, (south.providers.get? slot).map Provider.id =
      ((south.providers.get? slot).map (·.at d)).map Prod.fst := by
    intro south
    cases south.providers.get? slot <;> rfl
  simp only [providerId, hid, h.agree.node.providers]

theorem refusal?_eq (h : Abreast d s₀ s t) (slot : Nat) : t.refusal? slot = s.refusal? slot := by
  simp only [refusal?, h.agree.node.active, h.agree.node.registry, h.providerId_eq]

theorem note (h : Abreast d s₀ s t) {ns : List Notice} (hns : ∀ x ∈ ns, x.device = d) :
    Abreast d s₀ (s.note ns) (t.note ns) where
  agree := { h.agree with
    journal := by simp only [Site.note, about_append, h.agree.journal] }
  filed := h.filed
  spares d' hd := (h.spares d' hd).trans
    { Agree.refl d' (s.facing []) with
      journal := by
        have hnone : about d' ns = [] := about_of_ne fun x hx => hns x hx ▸ hd.symm
        change about d' (s.journal ++ ns) = about d' s.journal
        rw [about_append, hnone, List.append_nil] }

theorem postAll (h : Abreast d s₀ s t) {es : List DeviceEvent} (hes : ∀ e ∈ es, e.device.id = d) :
    Abreast d s₀ (s.postAll es) (t.postAll es) := by
  simp only [Site.postAll, h.id_eq]
  refine h.note fun x hx => ?_
  obtain ⟨e, he, rfl⟩ := List.mem_map.mp hx
  exact hes e he

theorem moveElection (h : Abreast d s₀ s t) (m : Seat.Move) :
    Abreast d s₀ (s.moveElection (s.election.move d m)) (t.moveElection (t.election.move d m)) := by
  obtain ⟨hseat, hsaid⟩ := Election.move_congr h.agree.seat m
  have habout : ∀ x ∈ (s.election.move d m).2.map Notice.announced, x.device = d := by
    intro x hx
    obtain ⟨a, ha, rfl⟩ := List.mem_map.mp hx
    rw [← Election.moves_singleton] at ha
    exact Election.moves_about ha
  have hmoved : Abreast d s₀ { s with election := (s.election.move d m).1 }
      { t with election := (t.election.move d m).1 } :=
    ⟨{ h.agree with seat := hseat }, h.filed, fun d' hd => (h.spares d' hd).trans
      { Agree.refl d' (s.facing []) with seat := Election.get?_move_of_ne _ hd m }⟩
  simp only [Site.moveElection, hsaid]
  exact hmoved.note habout

theorem setRoles (h : Abreast d s₀ s t) {roles roles' : RoleTable}
    (hd : roles'.entries.get? d = roles.entries.get? d)
    (hne : ∀ d' ≠ d, roles.entries.get? d' = s.node.roles.entries.get? d') :
    Abreast d s₀ (s.setRoles roles) (t.setRoles roles') where
  agree := { h.agree with node := { h.agree.node with role := hd } }
  filed := h.filed
  spares d' hd' := (h.spares d' hd').trans
    { Agree.refl d' (s.facing []) with
      node := { Controller.Agree.refl d' (s.facing []).node with role := hne d' hd' } }

theorem write (h : Abreast d s₀ s t) {f : Replica → Replica × List DeviceEvent}
    (hf : Replica.Local d f) :
    Abreast d s₀ ((s.setReplica (f s.node.replica).1).postAll (f s.node.replica).2)
      ((t.setReplica (f t.node.replica).1).postAll (f t.node.replica).2) := by
  obtain ⟨hrecord, hevents⟩ := hf.congr h.agree.node.record
  obtain ⟨hfiled, habout⟩ := hf.filed h.filed
  have hset : Abreast d s₀ (s.setReplica (f s.node.replica).1)
      (t.setReplica (f t.node.replica).1) :=
    ⟨{ h.agree with node := { h.agree.node with record := hrecord } }, hfiled,
      fun d' hd => (h.spares d' hd).trans
        { Agree.refl d' (s.facing []) with
          node := { Controller.Agree.refl d' (s.facing []).node with
            record := hf.spares _ hd } }⟩
  rw [hevents]
  exact hset.postAll habout

theorem asked (h : Abreast d s₀ s t) (plea : Plea) :
    Abreast d s₀ (s.note [.asked s.node.id d plea]) (t.note [.asked s.node.id d plea]) :=
  h.note fun x hx => by rw [List.mem_singleton.mp hx]; rfl

theorem request (h : Abreast d s₀ s t) : Abreast d s₀ (s.request d) (t.request d) := by
  have hnote := h.asked .request
  rw [request_eq, request_eq, h.id_eq, h.agree.node.request]
  split
  · exact hnote
  · exact hnote.moveElection (.request s.node.id)

theorem withdraw (h : Abreast d s₀ s t) : Abreast d s₀ (s.withdraw d) (t.withdraw d) := by
  have hnote := h.asked .relinquish
  rw [withdraw_eq, withdraw_eq, h.id_eq, h.agree.node.relinquish]
  split
  · exact hnote
  · exact hnote.moveElection (.relinquish s.node.id)

theorem observeTerm (h : Abreast d s₀ s t) : Concur d s₀ (s.observeTerm d) (t.observeTerm d) := by
  simp only [Site.observeTerm, h.term?_eq]
  split
  · exact ⟨h, rfl⟩
  · next term _ =>
    refine ⟨⟨{ h.agree with node := { h.agree.node with stamper := ?_, clock := ?_ } }, h.filed,
      fun d' hd => (h.spares d' hd).trans { Agree.refl d' (s.facing []) with
        node := { Controller.Agree.refl d' (s.facing []).node with stamper := ?_, clock := ?_ } }⟩,
      rfl⟩
    · simp only [Clock.node_setTerm, h.agree.node.stamper]
    · exact Clock.setTerm_congr h.agree.node.clock term
    · exact Clock.node_setTerm _ d term
    · exact Clock.get?_setTerm_of_ne _ hd term

theorem observeEpoch (h : Abreast d s₀ s t) (term : Option Term) :
    Concur d s₀ (s.observeEpoch d term) (t.observeEpoch d term) := by
  cases term with
  | none => exact ⟨h, rfl⟩
  | some term =>
    obtain ⟨hentry, hcurrent⟩ := RoleTable.observe_congr h.agree.node.role term.epoch
    exact ⟨h.setRoles hentry fun d' hd => RoleTable.get?_observe_of_ne _ d hd _, hcurrent⟩

theorem postRole (h : Abreast d s₀ s t) (role : Role) :
    Abreast d s₀ (s.postRole d role) (t.postRole d role) := by
  simp only [Site.postRole, h.device?_eq]
  split
  · exact h
  · next device hd =>
    simp only [Site.post, h.id_eq]
    exact h.note (by simpa [Notice.device, DeviceEvent.ofRole] using h.filed device hd)

theorem relinquish (h : Abreast d s₀ s t) : Abreast d s₀ (s.relinquish d) (t.relinquish d) := by
  have hw := h.withdraw
  obtain ⟨hentry, hcleared⟩ := RoleTable.clear_congr hw.agree.node.role
  have hclear := hw.setRoles hentry fun d' hd => RoleTable.get?_clear_of_ne _ d hd
  simp only [Site.relinquish, hcleared]
  split
  · exact hclear.postRole .none
  · exact hclear

theorem settle (h : Abreast d s₀ s t) (role : Role) (epoch : Option Nat)
    (result : Except Failure Unit) :
    Abreast d s₀ (s.settle d role epoch result) (t.settle d role epoch result) := by
  cases result with
  | error e => exact h.relinquish
  | ok =>
    obtain ⟨hentry, hchanged⟩ := RoleTable.record_congr h.agree.node.role role epoch
    have hrecord := h.setRoles hentry fun d' hd => RoleTable.get?_record_of_ne _ d hd role epoch
    simp only [Site.settle, hchanged]
    split
    · exact hrecord.postRole role
    · exact hrecord

theorem store (h : Abreast d s₀ s t) (provider : ProviderId) (description : DeviceDescription) :
    Abreast d s₀ (s.store provider d description) (t.store provider d description) :=
  h.write (Replica.put_local d provider description)

theorem markOnline (h : Abreast d s₀ s t) : Abreast d s₀ (s.markOnline d) (t.markOnline d) := by
  simp only [Site.markOnline, h.device?_eq]
  split
  · exact h
  · split
    · exact h
    · exact h.store _ _

theorem conclude {p : Push} (h : Abreast p.device s₀ s t) (result : Except Failure Unit) :
    Abreast p.device s₀ (s.conclude p result) (t.conclude p result) := by
  simp only [Site.conclude]
  split
  · exact h.settle _ _ _
  · exact (h.store _ _).settle _ _ _

theorem startPush (h : Abreast d s₀ s t) (role : Role) (epoch : Option Nat)
    (sequel : Push.Sequel) :
    Concur d s₀ (s.startPush d role epoch sequel) (t.startPush d role epoch sequel) := by
  simp only [Site.startPush, Southbound.start, h.slotFor_eq]
  split
  · exact ⟨h.conclude (p := ⟨0, d, role, epoch, sequel⟩) _, rfl⟩
  · exact ⟨h.conclude (p := ⟨0, d, role, epoch, sequel⟩) _, rfl⟩
  · rw [h.id_eq]
    exact ⟨h.note (by simp [Notice.device]), rfl⟩

/-- What a provider does towards a device depends on nothing but the line to the device, and is of
no concern to others. -/
theorem finish (h : Abreast d s₀ s t) (slot : Nat) (role : Role) :
    Abreast d s₀ { s with node := { s.node with south := (s.node.south.finish slot d role).1 } }
        { t with node := { t.node with south := (t.node.south.finish slot d role).1 } } ∧
      (t.node.south.finish slot d role).2 = (s.node.south.finish slot d role).2 := by
  have hp := h.agree.node.providers slot
  have hanswer : ∀ p p' : Provider, p'.at d = p.at d → p'.answer d role = p.answer d role := by
    intro p p' hat
    have hline : p'.line d = p.line d := congrArg (·.2.1.getD {}) hat
    simp only [Provider.answer]
    rw [hline]
  simp only [Southbound.finish]
  cases hs : s.node.south.providers.get? slot with
  | none =>
    rw [hs, Option.map_none, Option.map_eq_none_iff] at hp
    simp only [hp]
    exact ⟨h, trivial⟩
  | some p =>
    rw [hs, Option.map_some, Option.map_eq_some_iff] at hp
    obtain ⟨p', hs', hat⟩ := hp
    simp only [hs', hanswer p p' hat]
    cases p.answer d role with
    | error e => exact ⟨h, rfl⟩
    | ok =>
      refine ⟨⟨{ h.agree with node := { h.agree.node with providers := fun slot' => ?_ } },
        h.filed, fun d' hd => (h.spares d' hd).trans { Agree.refl d' (s.facing []) with
          node := { Controller.Agree.refl d' (s.facing []).node with
            providers := fun slot' => ?_ } }⟩, rfl⟩
      · by_cases hslot : slot = slot'
        · subst hslot
          have hid : p'.id = p.id := congrArg Prod.fst hat
          have hline : p'.lines.get? d = p.lines.get? d := congrArg (·.2.1) hat
          have hdone : p'.calls.filter (·.device = d) = p.calls.filter (·.device = d) :=
            congrArg (·.2.2) hat
          simp [Provider.at, hid, hline, hdone]
        · simp only [Table.get?_insert_of_ne _ _ hslot, h.agree.node.providers]
      · by_cases hslot : slot = slot'
        · subst hslot
          have hnone : (Provider.callsFor d role).filter (fun c => decide (c.device = d')) = [] := by
            rw [List.filter_eq_nil_iff]
            intro c hc
            simpa [Provider.callsFor_device c hc] using hd.symm
          change ((s.node.south.providers.insert slot _).get? slot).map (·.at d') =
            (s.node.south.providers.get? slot).map (·.at d')
          simp [hs, Provider.at, hnone]
        · change ((s.node.south.providers.insert slot _).get? slot').map (·.at d') =
            (s.node.south.providers.get? slot').map (·.at d')
          rw [Table.get?_insert_of_ne _ _ hslot]

theorem called (h : Abreast d s₀ s t) (slot : Nat) {calls : List Call}
    (hc : ∀ c ∈ calls, c.device = d) :
    Abreast d s₀ (s.note (calls.map (.called s.node.id slot)))
      (t.note (calls.map (.called t.node.id slot))) := by
  rw [h.id_eq]
  refine h.note fun x hx => ?_
  obtain ⟨c, hmem, rfl⟩ := List.mem_map.mp hx
  exact hc c hmem

theorem answer {p : Push} (h : Abreast p.device s₀ s t) :
    Abreast p.device s₀ (s.answer p) (t.answer p) := by
  obtain ⟨hfinish, hresult⟩ := h.finish p.slot p.role
  simp only [Site.answer, hresult]
  split
  · exact hfinish.conclude _
  · next calls hok =>
    rw [Southbound.finish_calls hok]
    exact (hfinish.called p.slot Provider.callsFor_device).conclude _

theorem answerNow {r r' : Site × Option Push} (h : Concur d s₀ r r')
    (hd : ∀ p, r.2 = some p → p.device = d) : Abreast d s₀ (answerNow r) (Site.answerNow r') := by
  obtain ⟨s, push⟩ := r
  obtain ⟨t, push'⟩ := r'
  obtain ⟨h, he⟩ := h
  obtain rfl : push' = push := he
  cases push' with
  | none => exact h
  | some p =>
    obtain rfl := hd p rfl
    exact Abreast.answer h

theorem reassert (h : Abreast d s₀ s t) (requested : Role) :
    Concur d s₀ (s.reassert d requested) (t.reassert d requested) := by
  have hask : Abreast d s₀ (if requested = .none then s.request d else s)
      (if requested = .none then t.request d else t) := by
    split
    · exact h.request
    · exact h
  simp only [Site.reassert]
  generalize (if requested = .none then s.request d else s) = s₁,
    (if requested = .none then t.request d else t) = t₁ at hask ⊢
  obtain ⟨hterm, hsame⟩ := hask.observeTerm
  generalize s₁.observeTerm d = r, t₁.observeTerm d = r' at hterm hsame ⊢
  obtain ⟨s₂, term⟩ := r
  obtain ⟨t₂, term'⟩ := r'
  obtain rfl : term' = term := hsame
  obtain ⟨hepoch, hcurrent⟩ := hterm.observeEpoch term'
  dsimp only
  rw [hterm.owns_eq, hcurrent]
  split
  · refine Abreast.startPush ?_ _ _ _
    split
    · exact hepoch.markOnline
    · exact hepoch
  · exact ⟨hepoch, rfl⟩

theorem connected (h : Abreast d s₀ s t) (slot : Nat) (description : DeviceDescription) :
    Concur d s₀ (s.connected slot d description) (t.connected slot d description) := by
  obtain ⟨hterm, hsame⟩ := h.request.observeTerm
  simp only [Site.connected, h.providerId_eq]
  generalize (s.request d).observeTerm d = r, (t.request d).observeTerm d = r' at hterm hsame ⊢
  obtain ⟨s₁, term⟩ := r
  obtain ⟨t₁, term'⟩ := r'
  obtain rfl : term' = term := hsame
  obtain ⟨hepoch, hcurrent⟩ := hterm.observeEpoch term'
  dsimp only
  rw [hterm.owns_eq, hcurrent]
  split
  · exact hepoch.startPush _ _ _
  · exact ⟨hepoch.store _ _, rfl⟩

theorem connect (h : Abreast d s₀ s t) (slot : Nat) (description : DeviceDescription) :
    Concur d s₀ (s.connect slot d description).1 (t.connect slot d description).1 ∧
      (t.connect slot d description).2 = (s.connect slot d description).2 := by
  simp only [Site.connect, h.refusal?_eq]
  split
  · exact ⟨⟨h, rfl⟩, rfl⟩
  · exact ⟨h.connected slot description, rfl⟩

theorem suggestedRole {a : Announcement} (h : Abreast a.device s₀ s t) :
    Concur a.device s₀ (s.suggestedRole a) (t.suggestedRole a) := by
  simp only [Site.suggestedRole, h.id_eq]
  split
  · obtain ⟨hterm, hsame⟩ := h.observeTerm
    refine ⟨hterm, ?_⟩
    dsimp only
    rw [hsame, hterm.owns_eq]
  · exact ⟨h, rfl⟩

theorem handle {a : Announcement} (h : Abreast a.device s₀ s t) :
    Concur a.device s₀ (s.handle a) (t.handle a) := by
  simp only [Site.handle]
  split
  · exact ⟨h, rfl⟩
  · obtain ⟨hrole, hsame⟩ := h.suggestedRole
    simp only [Site.followMaster]
    generalize s.suggestedRole a = r, t.suggestedRole a = r' at hrole hsame ⊢
    obtain ⟨s₁, suggested⟩ := r
    obtain ⟨t₁, suggested'⟩ := r'
    obtain rfl : suggested' = suggested := hsame
    dsimp only at hrole ⊢
    rw [hrole.reachable?_eq, hrole.device?_eq]
    split
    · exact ⟨hrole, rfl⟩
    · split
      · exact ⟨hrole, rfl⟩
      · exact ⟨hrole.relinquish, rfl⟩
    · split
      · exact hrole.reassert suggested'
      · exact ⟨hrole, rfl⟩

theorem check (h : Abreast d s₀ s t) : Concur d s₀ (s.check d) (t.check d) := by
  have helected : t.electedRole d = s.electedRole d := by
    simp only [electedRole, Election.role, Election.seat_of_get? h.agree.seat, h.id_eq]
  simp only [Site.check, h.reachable?_eq, helected]
  split
  · split
    · exact h.reassert .none
    · exact ⟨h, rfl⟩
  · exact ⟨h, rfl⟩

/-- The event of a device that is marked offline may be posted later, and is about it as well. -/
theorem markOffline (h : Abreast d s₀ s t) :
    Concur d s₀ (s.markOffline d) (t.markOffline d) ∧
      ∀ event, (s.markOffline d).2 = .marked event → ∀ e ∈ event.toList, e.device.id = d := by
  have hoffline := h.agree.node.offline
  have hmet : Abreast d s₀ (s.facing s.node.faults.offline.tail)
      (t.facing t.node.faults.offline.tail) :=
    ⟨{ h.agree with node := { h.agree.node with offline := congrArg List.tail hoffline } },
      h.filed, h.spares⟩
  cases hf : s.node.faults.offline.head?.join with
  | some fault =>
    obtain ⟨m, hm, hstrikes⟩ := markOffline_strikes fault d
    rw [hstrikes s hf, hstrikes t (hoffline ▸ hf)]
    exact ⟨⟨hmet, rfl⟩, fun event he => absurd he (hm event)⟩
  | none =>
    obtain ⟨hrecord, hclock, hresult⟩ := Replica.markOffline_congr h.agree.node.record
      h.agree.node.stamper h.agree.node.clock
    obtain ⟨hfiled, hevent⟩ := Replica.Filed.markOffline h.filed s.node.clock
    rw [markOffline_unstruck hf, markOffline_unstruck (hoffline ▸ hf), hresult]
    refine ⟨⟨⟨{ hmet.agree with node := { hmet.agree.node with
        stamper := ?_, clock := hclock, record := hrecord } }, hfiled, fun d' hd =>
      (h.spares d' hd).trans { Agree.refl d' (s.facing []) with
        node := { Controller.Agree.refl d' (s.facing []).node with
          stamper := Replica.stamper_markOffline _ _ _
          clock := Replica.clock_markOffline_of_ne _ hd _
          record := Replica.get?_markOffline_of_ne _ hd _ } }⟩, rfl⟩, fun event he => ?_⟩
    · exact (Replica.stamper_markOffline _ _ _).trans
        (h.agree.node.stamper.trans (Replica.stamper_markOffline _ _ _).symm)
    · refine hevent event ?_
      cases hr : (s.node.replica.markOffline s.node.clock d).2.2 with
      | error e => simp [hr, Marking.of] at he
      | ok event' => simpa [hr, Marking.of] using he

theorem disablePorts (h : Abreast d s₀ s t) :
    Abreast d s₀ (s.disablePorts d) (t.disablePorts d) := by
  have hnone : ∀ s : Site, s.postAll [] = s := by simp [Site.postAll, Site.note]
  have hw := h.write (Replica.disablePorts_local d)
  rwa [hnone, hnone] at hw

theorem markDisconnected (h : Abreast d s₀ s t) :
    Concur d s₀ (s.markDisconnected d) (t.markDisconnected d) ∧
      ∀ event, (s.markDisconnected d).2 = .marked event →
        ∀ e ∈ event.toList, e.device.id = d := by
  obtain ⟨⟨hmark, hsame⟩, hevent⟩ := h.disablePorts.markOffline
  simp only [Site.markDisconnected]
  generalize (s.disablePorts d).markOffline d = r,
    (t.disablePorts d).markOffline d = r' at hmark hsame hevent ⊢
  obtain ⟨s₁, m⟩ := r
  obtain ⟨t₁, m'⟩ := r'
  obtain rfl : m' = m := hsame
  dsimp only at hmark hevent
  cases m' with
  | marked event => exact ⟨⟨hmark, rfl⟩, hevent⟩
  | crashed => exact ⟨⟨hmark, rfl⟩, by simp⟩
  | refused e =>
    dsimp only
    split
    · obtain ⟨hterm, hread⟩ := hmark.request.observeTerm
      generalize (s₁.request d).observeTerm d = q, (t₁.request d).observeTerm d = q' at hterm hread ⊢
      obtain ⟨s₂, term⟩ := q
      obtain ⟨t₂, term'⟩ := q'
      obtain rfl : term' = term := hread
      dsimp only
      rw [hterm.owns_eq]
      split
      · exact hterm.markOffline
      · exact ⟨⟨hterm, rfl⟩, by rintro _ ⟨⟩; simp⟩
    · exact ⟨⟨hmark, rfl⟩, by simp⟩

theorem release (h : Abreast d s₀ s t) : Abreast d s₀ (s.release d) (t.release d) :=
  h.relinquish.setRoles (by simp [RoleTable.forget])
    fun d' hd => RoleTable.get?_forget_of_ne _ d hd

theorem disconnected (h : Abreast d s₀ s t) :
    Concur d s₀ (s.disconnected d) (t.disconnected d) := by
  obtain ⟨⟨hmark, hsame⟩, hevent⟩ := h.markDisconnected
  simp only [Site.disconnected]
  generalize s.markDisconnected d = r, t.markDisconnected d = r' at hmark hsame hevent ⊢
  obtain ⟨s₁, m⟩ := r
  obtain ⟨t₁, m'⟩ := r'
  obtain rfl : m' = m := hsame
  cases m' with
  | marked event => exact ⟨hmark.release.postAll (hevent event rfl), rfl⟩
  | refused e => exact ⟨hmark.release, rfl⟩
  | crashed => exact ⟨hmark.release, rfl⟩

theorem disconnect (h : Abreast d s₀ s t) (slot : Nat) :
    Concur d s₀ (s.disconnect slot d) (t.disconnect slot d) := by
  simp only [Site.disconnect, h.refusal?_eq]
  split
  · exact ⟨h, rfl⟩
  · exact h.disconnected

theorem guarded (h : Abreast d s₀ s t) (slot : Nat) {f : Site → Site}
    (hf : Abreast d s₀ (f s) (f t)) : Concur d s₀ (s.guarded slot f) (t.guarded slot f) := by
  simp only [Site.guarded, h.refusal?_eq]
  split
  · exact ⟨h, rfl⟩
  · exact ⟨hf, rfl⟩

theorem available_eq (h : Abreast d s₀ s t) :
    t.node.clock.available d = s.node.clock.available d := by
  simp only [Clock.available, h.agree.node.clock, h.agree.node.stamper]

theorem portsReported (h : Abreast d s₀ s t) (ps : List PortDescription) :
    Abreast d s₀ (s.portsReported d ps) (t.portsReported d ps) := by
  simp only [Site.portsReported, h.available_eq]
  split
  · exact h.write (Replica.setPorts_local d ps)
  · exact h

theorem portReported (h : Abreast d s₀ s t) (p : PortDescription) :
    Abreast d s₀ (s.portReported d p) (t.portReported d p) := by
  simp only [Site.portReported, h.available_eq]
  split
  · exact h.write (Replica.setPort_local d p)
  · exact h

theorem statisticsReported (h : Abreast d s₀ s t) (ss : List PortStatistics) :
    Abreast d s₀ (s.statisticsReported d ss) (t.statisticsReported d ss) :=
  h.write (Replica.setStatistics_local d ss)

theorem roleReplied (h : Abreast d s₀ s t) (requested response : Option Role) :
    Abreast d s₀ (s.roleReplied d requested response) (t.roleReplied d requested response) := by
  simp only [Site.roleReplied]
  split
  · exact h.relinquish
  · split
    · exact h.relinquish
    · exact h

theorem remove (h : Abreast d s₀ s t) : Abreast d s₀ (s.remove d) (t.remove d) := by
  have hw := h.write (Replica.remove_local d)
  simp only [Site.remove, Replica.remove, h.agree.node.record] at hw ⊢
  cases hrec : s.node.replica.records.get? d with
  | none => exact h
  | some rec =>
    simp only [hrec] at hw
    exact hw.setRoles (by simp [RoleTable.forget])
      fun d' hd => RoleTable.get?_forget_of_ne _ d hd

/-- What a task makes of its device depends on nothing but the device, and it leaves all other
devices alone. -/
theorem run {task : Task} (h : Abreast task.device s₀ s t) :
    Concur task.device s₀ (s.run task) (t.run task) := by
  cases task with
  | connect slot d description => exact (h.connect slot description).1
  | disconnect slot d => exact ⟨(h.disconnect slot).1, rfl⟩
  | setPorts slot d ps => exact ⟨(h.guarded slot (h.portsReported ps)).1, rfl⟩
  | setPort slot d p => exact ⟨(h.guarded slot (h.portReported p)).1, rfl⟩
  | setStatistics slot d ss => exact ⟨(h.guarded slot (h.statisticsReported ss)).1, rfl⟩
  | roleReply slot d requested response =>
    exact ⟨(h.guarded slot (h.roleReplied requested response)).1, rfl⟩
  | reassert d requested => exact h.reassert requested
  | check d => exact h.check
  | handle a => exact h.handle
  | remove d => exact ⟨h.remove, rfl⟩

end Abreast
end Site

end Mastership
