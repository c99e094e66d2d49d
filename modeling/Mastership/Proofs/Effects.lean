import Mastership.Proofs.Moves
import Mastership.Rehearsal

namespace Mastership

/-- The announcements among notices. -/
def announced (ns : List Notice) : List Announcement := ns.filterMap Rehearsal.announcement?

/-- The push whose start a notice tells of, with the member that started it. -/
def Notice.push? : Notice → Option (NodeId × Push)
  | .started n p => some (n, p)
  | _ => none

/-- The pushes that notices say were started. -/
def started (ns : List Notice) : List (NodeId × Push) := ns.filterMap Notice.push?

@[simp] theorem announced_nil : announced [] = [] := rfl

@[simp] theorem announced_append (ns ns' : List Notice) :
    announced (ns ++ ns') = announced ns ++ announced ns' :=
  List.filterMap_append

@[simp] theorem started_nil : started [] = [] := rfl

@[simp] theorem started_append (ns ns' : List Notice) :
    started (ns ++ ns') = started ns ++ started ns' :=
  List.filterMap_append

theorem mem_started {ns : List Notice} {n : NodeId} {p : Push} :
    (n, p) ∈ started ns ↔ .started n p ∈ ns := by
  simp only [started, List.mem_filterMap]
  constructor
  · rintro ⟨x, hx, hp⟩
    cases x <;> simp_all [Notice.push?]
  · exact fun h => ⟨_, h, rfl⟩

@[simp] theorem announced_map_announced (as : List Announcement) :
    announced (as.map .announced) = as := by
  simp [announced, List.filterMap_map, Function.comp_def, Rehearsal.announcement?]

@[simp] theorem started_map_announced (as : List Announcement) :
    started (as.map .announced) = [] := by
  simp [started, List.filterMap_map, Function.comp_def, Notice.push?]

/-- Registrations and lines are the same; what the providers did may differ. -/
structure Southbound.Alike (s s' : Southbound) : Prop where
  registry : s'.registry = s.registry
  ids : ∀ slot, (s'.providers.get? slot).map Provider.id = (s.providers.get? slot).map Provider.id
  lines : ∀ slot, (s'.providers.get? slot).map Provider.lines =
    (s.providers.get? slot).map Provider.lines

namespace Southbound

theorem Alike.refl (s : Southbound) : Alike s s := ⟨rfl, fun _ => rfl, fun _ => rfl⟩

theorem Alike.trans {s s' s'' : Southbound} (h : Alike s s') (h' : Alike s' s'') : Alike s s'' :=
  ⟨h'.registry.trans h.registry, fun slot => (h'.ids slot).trans (h.ids slot),
    fun slot => (h'.lines slot).trans (h.lines slot)⟩

theorem Alike.slotFor {s s' : Southbound} (h : Alike s s') (d : DeviceId) :
    s'.slotFor d = s.slotFor d := by
  simp [Southbound.slotFor, h.registry]

theorem lineFor_eq (s : Southbound) (d : DeviceId) :
    s.lineFor d = ((s.slotFor d).bind fun slot => (s.providers.get? slot).map Provider.lines).map
      fun lines => (lines.get? d).getD {} := by
  unfold lineFor
  cases s.slotFor d with
  | none => rfl
  | some slot =>
    simp only [Option.bind_some, Option.map_map]
    rfl

theorem Alike.lineFor {s s' : Southbound} (h : Alike s s') (d : DeviceId) :
    s'.lineFor d = s.lineFor d := by
  simp only [lineFor_eq, h.slotFor, h.lines]

/-- What a push comes to depends on the lines alone. -/
theorem Alike.finish_result {s s' : Southbound} (h : Alike s s') (slot : Nat) (d : DeviceId)
    (role : Role) : (s'.finish slot d role).2 = (s.finish slot d role).2 := by
  have hlines := h.lines slot
  unfold finish
  cases hp : s.providers.get? slot with
  | none =>
    rw [hp, Option.map_none, Option.map_eq_none_iff] at hlines
    rw [hlines]
  | some p =>
    rw [hp, Option.map_some, Option.map_eq_some_iff] at hlines
    obtain ⟨p', hp', hlines⟩ := hlines
    have hanswer : p'.answer d role = p.answer d role := by
      rw [Provider.answer, Provider.line, hlines]
      rfl
    simp only [hp', hanswer]
    split <;> rfl

theorem finish_alike (s : Southbound) (slot : Nat) (d : DeviceId) (role : Role) :
    Alike s (s.finish slot d role).1 := by
  simp only [finish]
  split
  · exact .refl s
  · next p hp =>
    split
    · exact .refl s
    · refine ⟨rfl, fun slot' => ?_, fun slot' => ?_⟩ <;> by_cases hs : slot = slot'
      · subst hs
        simp [hp]
      · simp [Table.get?_insert_of_ne _ _ hs]
      · subst hs
        simp [hp]
      · simp [Table.get?_insert_of_ne _ _ hs]

end Southbound

namespace Site

/-- The site `s'` comes of `s` by the controller's moves `ms` in the election of `d`, with the pushes
`ps` started on the way. All other devices, the faults and the lines to the devices stay as they are. -/
structure Does (d : DeviceId) (ms : List Seat.Move) (ps : List Push) (s s' : Site) : Prop where
  id : s'.node.id = s.node.id
  active : s'.node.active = s.node.active
  own : ∀ m ∈ ms, m.node = s.node.id
  election : s'.election = (s.election.moves d ms).1
  journal : ∃ ns, s'.journal = s.journal ++ ns ∧ announced ns = (s.election.moves d ms).2 ∧
    started ns = ps.map (s.node.id, ·)
  south : s.node.south.Alike s'.node.south
  request : s'.node.faults.request = s.node.faults.request
  relinquish : s'.node.faults.relinquish = s.node.faults.relinquish
  terms : s'.node.faults.terms = s.node.faults.terms
  roles : ∀ d' ≠ d, s'.node.roles.entries.get? d' = s.node.roles.entries.get? d'
  records : ∀ d' ≠ d, s'.node.replica.records.get? d' = s.node.replica.records.get? d'
  clock : ∀ d' ≠ d, s'.node.clock.entries.get? d' = s.node.clock.entries.get? d'

variable {d : DeviceId} {ms ms' : List Seat.Move} {ps ps' : List Push} {s s' s'' : Site}

theorem Does.refl (d : DeviceId) (s : Site) : Does d [] [] s s where
  id := rfl
  active := rfl
  own := by simp
  election := rfl
  journal := ⟨[], by simp⟩
  south := .refl _
  request := rfl
  relinquish := rfl
  terms := rfl
  roles _ _ := rfl
  records _ _ := rfl
  clock _ _ := rfl

theorem Does.trans (h : Does d ms ps s s') (h' : Does d ms' ps' s' s'') :
    Does d (ms ++ ms') (ps ++ ps') s s'' where
  id := h'.id.trans h.id
  active := h'.active.trans h.active
  own m hm := by
    rcases List.mem_append.mp hm with hm | hm
    · exact h.own m hm
    · exact (h'.own m hm).trans h.id
  election := by rw [h'.election, h.election, Election.moves_append]
  journal := by
    obtain ⟨ns, hj, ha, hp⟩ := h.journal
    obtain ⟨ns', hj', ha', hp'⟩ := h'.journal
    refine ⟨ns ++ ns', by rw [hj', hj, List.append_assoc], ?_, ?_⟩
    · rw [announced_append, ha, ha', h.election, Election.moves_append]
    · rw [started_append, hp, hp', h.id, List.map_append]
  south := h.south.trans h'.south
  request := h'.request.trans h.request
  relinquish := h'.relinquish.trans h.relinquish
  terms := h'.terms.trans h.terms
  roles d' hd := (h'.roles d' hd).trans (h.roles d' hd)
  records d' hd := (h'.records d' hd).trans (h.records d' hd)
  clock d' hd := (h'.clock d' hd).trans (h.clock d' hd)

/-- An operation that moves nothing and starts nothing may come before another. -/
theorem Does.after (h : Does d ms ps s' s'') (h' : Does d [] [] s s') : Does d ms ps s s'' :=
  h'.trans h

theorem Does.then (h : Does d ms ps s s') (h' : Does d [] [] s' s'') : Does d ms ps s s'' := by
  simpa using h.trans h'

theorem Does.seat_ne (h : Does d ms ps s s') {d' : DeviceId} (hd : d' ≠ d) :
    s'.election.seat d' = s.election.seat d' := by
  rw [h.election, Election.seat_moves_ne _ hd]

theorem Does.precedes (h : Does d ms ps s s') (d' : DeviceId) :
    (s.election.seat d').Precedes (s'.election.seat d') :=
  h.election ▸ Election.moves_precedes _ d d' ms

theorem Does.role_ne (h : Does d ms ps s s') {d' : DeviceId} (hd : d' ≠ d) :
    s'.node.roles.entry d' = s.node.roles.entry d' := by
  simp only [RoleTable.entry, h.roles d' hd]

theorem Does.device?_ne (h : Does d ms ps s s') {d' : DeviceId} (hd : d' ≠ d) :
    s'.node.replica.device? d' = s.node.replica.device? d' := by
  simp only [Replica.device?, h.records d' hd]

theorem Does.reachable? (h : Does d ms ps s s') (d' : DeviceId) :
    s'.reachable? d' = s.reachable? d' := by
  simp only [Site.reachable?, h.south.lineFor]

theorem note_does (s : Site) {ns : List Notice} (ha : announced ns = [])
    (hp : started ns = ps.map (s.node.id, ·)) : Does d [] ps s (s.note ns) :=
  { Does.refl d s with journal := ⟨ns, rfl, ha, hp⟩ }

theorem postAll_does (d : DeviceId) (s : Site) (es : List DeviceEvent) :
    Does d [] [] s (s.postAll es) := by
  refine note_does s ?_ ?_ <;>
    simp [announced, started, List.filterMap_map, Function.comp_def, Rehearsal.announcement?,
      Notice.push?]

theorem setRoles_does (s : Site) {roles : RoleTable}
    (h : ∀ d' ≠ d, roles.entries.get? d' = s.node.roles.entries.get? d') :
    Does d [] [] s (s.setRoles roles) :=
  { Does.refl d s with roles := h }

theorem setReplica_does (s : Site) {replica : Replica}
    (h : ∀ d' ≠ d, replica.records.get? d' = s.node.replica.records.get? d') :
    Does d [] [] s (s.setReplica replica) :=
  { Does.refl d s with records := h }

theorem setClock_does (s : Site) {clock : Clock}
    (h : ∀ d' ≠ d, clock.entries.get? d' = s.node.clock.entries.get? d') :
    Does d [] [] s { s with node := { s.node with clock } } :=
  { Does.refl d s with clock := h }

theorem setSouth_does (d : DeviceId) (s : Site) {south : Southbound}
    (h : s.node.south.Alike south) :
    Does d [] [] s { s with node := { s.node with south } } :=
  { Does.refl d s with south := h }

theorem moveElection_does (s : Site) {m : Seat.Move} (hm : m.node = s.node.id) :
    Does d [m] [] s (s.moveElection (s.election.move d m)) :=
  { Does.refl d s with
    own := by simpa using hm
    election := by rw [Election.moves_singleton]; rfl
    journal := ⟨(s.election.move d m).2.map .announced, rfl,
      by rw [announced_map_announced, Election.moves_singleton], by simp⟩ }

/-- The moves that asking for a device amounts to. -/
def requests (s : Site) : List Seat.Move :=
  if s.node.faults.request then [] else [.request s.node.id]

/-- The moves that giving up a device amounts to. -/
def withdrawals (s : Site) : List Seat.Move :=
  if s.node.faults.relinquish then [] else [.relinquish s.node.id]

theorem Does.requests_eq (h : Does d ms ps s s') : s'.requests = s.requests := by
  simp only [requests, h.request, h.id]

theorem Does.withdrawals_eq (h : Does d ms ps s s') : s'.withdrawals = s.withdrawals := by
  simp only [withdrawals, h.relinquish, h.id]

theorem request_does (s : Site) (d : DeviceId) : Does d s.requests [] s (s.request d) := by
  have hn : Does d [] [] s (s.note [.asked s.node.id d .request]) := note_does s rfl rfl
  by_cases hf : s.node.faults.request = true
  · have he : s.request d = s.note [.asked s.node.id d .request] := if_pos hf
    simpa [requests, hf, he] using hn
  · have he : s.request d = (s.note [.asked s.node.id d .request]).moveElection
        ((s.note [.asked s.node.id d .request]).election.move d (.request s.node.id)) :=
      if_neg hf
    simpa [requests, hf, he] using hn.trans (moveElection_does _ rfl)

theorem withdraw_does (s : Site) (d : DeviceId) : Does d s.withdrawals [] s (s.withdraw d) := by
  have hn : Does d [] [] s (s.note [.asked s.node.id d .relinquish]) := note_does s rfl rfl
  by_cases hf : s.node.faults.relinquish = true
  · have he : s.withdraw d = s.note [.asked s.node.id d .relinquish] := if_pos hf
    simpa [withdrawals, hf, he] using hn
  · have he : s.withdraw d = (s.note [.asked s.node.id d .relinquish]).moveElection
        ((s.note [.asked s.node.id d .relinquish]).election.move d (.relinquish s.node.id)) :=
      if_neg hf
    simpa [withdrawals, hf, he] using hn.trans (moveElection_does _ rfl)

theorem observeTerm_does (s : Site) (d : DeviceId) : Does d [] [] s (s.observeTerm d).1 := by
  unfold observeTerm
  split
  · exact .refl d s
  · exact setClock_does s fun _ hd => Clock.get?_setTerm_of_ne _ hd _

theorem observeEpoch_does (s : Site) (d : DeviceId) (t : Option Term) :
    Does d [] [] s (s.observeEpoch d t).1 := by
  cases t with
  | none => exact .refl d s
  | some t => exact setRoles_does s fun d' hd => RoleTable.get?_observe_of_ne _ _ hd _

theorem postRole_does (s : Site) (d : DeviceId) (role : Role) :
    Does d [] [] s (s.postRole d role) := by
  unfold postRole
  split
  · exact .refl d s
  · exact note_does s rfl rfl

theorem store_does (s : Site) (provider : ProviderId) (d : DeviceId)
    (description : DeviceDescription) : Does d [] [] s (s.store provider d description) :=
  (setReplica_does s fun _ hd => Replica.get?_put_of_ne _ hd _ _).then (postAll_does d _ _)

theorem markOnline_does (s : Site) (d : DeviceId) : Does d [] [] s (s.markOnline d) := by
  unfold markOnline
  split
  · exact .refl d s
  · split
    · exact .refl d s
    · exact store_does s _ d _

end Site
end Mastership
