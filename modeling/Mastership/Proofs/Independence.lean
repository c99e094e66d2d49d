import Mastership.Proofs.Abreast

namespace Mastership
namespace Election

variable {e e' : Election} {d : DeviceId}

theorem moves_congr (h : e'.seats.get? d = e.seats.get? d) (ms : List Seat.Move) :
    (e'.moves d ms).1.seats.get? d = (e.moves d ms).1.seats.get? d ∧
      (e'.moves d ms).2 = (e.moves d ms).2 := by
  induction ms generalizing e e' with
  | nil => exact ⟨h, rfl⟩
  | cons m ms ih =>
    obtain ⟨hone, hsaid⟩ := move_congr h m
    obtain ⟨hrest, hothers⟩ := ih hone
    rw [moves_cons, moves_cons]
    exact ⟨hrest, by rw [hsaid, hothers]⟩

theorem get?_moves_of_ne (e : Election) {d' : DeviceId} (h : d' ≠ d) (ms : List Seat.Move) :
    (e.moves d ms).1.seats.get? d' = e.seats.get? d' := by
  induction ms generalizing e with
  | nil => rfl
  | cons m ms ih =>
    rw [moves_cons]
    exact (ih _).trans (e.get?_move_of_ne h m)

end Election

namespace Site

variable {d : DeviceId} {s t : Site}

/-- Does a task to its end, with these faults to meet its attempts to mark the device offline. -/
def complete (s : Site) (task : Task) (faults : List (Option OfflineFault)) : Site :=
  (answerNow ((s.facing faults).run task)).facing s.node.faults.offline

/-- What a task comes to for who asked for it. Only callbacks fail; whoever asks a crashing provider
for a device crashes. -/
def outcome (s : Site) : Task → Outcome
  | .connect slot d description => (s.connect slot d description).2
  | .disconnect slot d => (s.disconnect slot d).2
  | .setPorts slot d ps => (s.setPorts slot d ps).2
  | .setPort slot d p => (s.setPort slot d p).2
  | .setStatistics slot d ss => (s.setStatistics slot d ss).2
  | .roleReply slot d requested response => (s.roleReply slot d requested response).2
  | .check d => if (s.reachable? d).isNone then .crashed else .done
  | .handle a => if a.kind = .master ∧ (s.reachable? a.device).isNone then .crashed else .done
  | .reassert .. | .remove _ => .done

theorem Agree.facing (h : Agree d s t) (faults : List (Option OfflineFault)) :
    Agree d (s.facing faults) (t.facing faults) :=
  { h with node := { h.node with offline := rfl } }

/-- A task that is done to its end knows its device alone. -/
theorem Agree.complete {task : Task} (h : Agree task.device s t)
    (hf : s.node.replica.Filed task.device) (faults : List (Option OfflineFault)) :
    Agree task.device (s.complete task faults) (t.complete task faults) ∧
      (s.complete task faults).node.replica.Filed task.device ∧
      ∀ d ≠ task.device, Agree d s (s.complete task faults) := by
  have hrun := (Abreast.start (h.facing faults) hf).run
  have hdevice : ∀ p, ((s.facing faults).run task).2 = some p → p.device = task.device := by
    obtain ⟨ms, hd⟩ := (s.facing faults).run_decides task
    exact hd.device
  have hend := Abreast.answerNow hrun hdevice
  refine ⟨?_, hend.filed, fun d hd => (hend.spares d hd).facing s.node.faults.offline⟩
  have hagree := hend.agree.facing s.node.faults.offline
  simp only [Site.complete, h.node.offline]
  exact hagree

theorem Agree.outcome_eq {task : Task} (h : Agree task.device s t)
    (hf : s.node.replica.Filed task.device) : t.outcome task = s.outcome task := by
  have hs := Abreast.start h hf
  have hreach := hs.reachable?_eq
  cases task with
  | connect slot d description => exact (hs.connect slot description).2
  | disconnect slot d => exact (hs.disconnect slot).2
  | setPorts slot d ps => exact (hs.guarded slot (hs.portsReported ps)).2
  | setPort slot d p => exact (hs.guarded slot (hs.portReported p)).2
  | setStatistics slot d ss => exact (hs.guarded slot (hs.statisticsReported ss)).2
  | roleReply slot d requested response =>
    exact (hs.guarded slot (hs.roleReplied requested response)).2
  | check d =>
    dsimp only [Task.device] at hreach
    simp only [outcome]
    rw [hreach]
  | handle a =>
    dsimp only [Task.device] at hreach
    simp only [outcome]
    rw [hreach]
  | reassert d requested => rfl
  | remove d => rfl

end Site

namespace Cluster

/-- An operation about one device, done to its end with nothing else in between. -/
inductive Operation where
  /-- The faults meet the attempts of the task to mark its device offline, in this order. -/
  | task (n : NodeId) (t : Site.Task) (faults : List (Option OfflineFault))
  | request (n : NodeId) (d : DeviceId)
  | relinquish (n : NodeId) (d : DeviceId)
  | setRole (n : NodeId) (d : DeviceId) (role : Role)

inductive Operation.Result where
  | nothing
  | ended (outcome : Outcome)
  | granted (role : Role)
deriving DecidableEq, Repr

def Operation.device : Operation → DeviceId
  | .task _ t _ => t.device
  | .request _ d | .relinquish _ d | .setRole _ d _ => d

def perform (c : Cluster) : Operation → Cluster
  | .task n t faults => c.modify n (·.complete t faults)
  | .request n d => c.moveElection (·.request n d)
  | .relinquish n d => c.moveElection (·.relinquish n d)
  | .setRole n d role => c.moveElection (·.setRole n d role)

/-- What an operation would answer now. -/
def result (c : Cluster) : Operation → Operation.Result
  | .task n t faults =>
    match c.site? n with
    | none => .nothing
    | some s => .ended ((s.facing faults).outcome t)
  | .request n d => .granted (c.election.granted n d)
  | .relinquish .. | .setRole .. => .nothing

/-- All members file their devices under their ids. -/
def Filed (c : Cluster) : Prop :=
  ∀ n node, c.nodes.get? n = some node → ∀ d, node.replica.Filed d

/-- The same in all that concerns a device: its election, what each member knows of it, and what has
left about it, in this order. -/
structure Agree (d : DeviceId) (c c' : Cluster) : Prop where
  seat : c'.election.seats.get? d = c.election.seats.get? d
  nodes : ∀ n, Option.Rel (Controller.Agree d) (c.nodes.get? n) (c'.nodes.get? n)
  journal : about d c'.journal = about d c.journal

variable {c c' c'' : Cluster} {d : DeviceId} {n : NodeId} {s t s' t' : Site}

theorem Agree.refl (d : DeviceId) (c : Cluster) : c.Agree d c := by
  refine ⟨rfl, fun n => ?_, rfl⟩
  cases c.nodes.get? n with
  | none => exact .none
  | some node => exact .some (.refl d node)

theorem Agree.symm (h : c.Agree d c') : c'.Agree d c := by
  refine ⟨h.seat.symm, fun n => ?_, h.journal.symm⟩
  have hn := h.nodes n
  revert hn
  generalize c.nodes.get? n = x, c'.nodes.get? n = y
  rintro (hn | _)
  · exact .some hn.symm
  · exact .none

theorem Agree.trans (h : c.Agree d c') (h' : c'.Agree d c'') : c.Agree d c'' := by
  refine ⟨h'.seat.trans h.seat, fun n => ?_, h'.journal.trans h.journal⟩
  have hn := h.nodes n
  have hn' := h'.nodes n
  revert hn hn'
  generalize c.nodes.get? n = x, c'.nodes.get? n = y, c''.nodes.get? n = z
  rintro (hn | _) (hn' | _)
  · exact .some (hn.trans hn')
  · exact .none

/-- Clusters that agree about a device have the same members. -/
theorem Agree.site? (h : c.Agree d c') (n : NodeId) :
    Option.Rel (Site.Agree d) (c.site? n) (c'.site? n) := by
  have hn := h.nodes n
  simp only [Cluster.site?]
  revert hn
  generalize c.nodes.get? n = x, c'.nodes.get? n = y
  rintro (hn | _)
  · exact .some ⟨h.seat, hn, h.journal⟩
  · exact .none

theorem Agree.exists_site (h : c.Agree d c') (hs : c.site? n = some s) :
    ∃ t, c'.site? n = some t ∧ s.Agree d t := by
  have hsites := h.site? n
  rw [hs] at hsites
  generalize c'.site? n = x at hsites
  cases hsites with
  | some hst => exact ⟨_, rfl, hst⟩

theorem Agree.setSite (h : c.Agree d c') (n : NodeId) (hst : s.Agree d t) :
    (c.setSite n s).Agree d (c'.setSite n t) := by
  refine ⟨hst.seat, fun m => ?_, hst.journal⟩
  simp only [Cluster.setSite]
  by_cases hm : n = m
  · subst hm
    simp only [Table.get?_insert_self]
    exact .some hst.node
  · simp only [Table.get?_insert_of_ne _ _ hm]
    exact h.nodes m

theorem agree_setSite (hs : c.site? n = some s) (hst : s.Agree d t) :
    c.Agree d (c.setSite n t) := by
  have h := (Agree.refl d c).setSite n hst
  rwa [setSite_site hs] at h

theorem Filed.site (h : c.Filed) (hs : c.site? n = some s) (d : DeviceId) :
    s.node.replica.Filed d := by
  obtain ⟨node, hnode, rfl⟩ := Option.map_eq_some_iff.mp hs
  exact h n node hnode d

theorem Filed.setSite (h : c.Filed) (hs : ∀ d, s.node.replica.Filed d) :
    (c.setSite n s).Filed := by
  intro m node hnode
  simp only [Cluster.setSite, Table.get?_insert] at hnode
  split at hnode
  · obtain rfl := Option.some.inj hnode
    exact hs
  · exact h m node hnode

/-- A site may be exchanged for one that agrees with it about all devices but one. -/
theorem Filed.exchange (h : c.Filed) (hs : c.site? n = some s) (hown : t.node.replica.Filed d)
    (hothers : ∀ d' ≠ d, s.Agree d' t) : (c.setSite n t).Filed := by
  refine h.setSite fun d' => ?_
  by_cases hd : d' = d
  · exact hd ▸ hown
  · intro device hdevice
    rw [Replica.device?, (hothers d' hd).node.record] at hdevice
    exact h.site hs d' device hdevice

/-- A move by hand knows its device alone. -/
theorem Agree.moved (h : c.Agree d c') (move : Election → Election × List Announcement)
    {ms : List Seat.Move} (hm : move c.election = c.election.moves d ms)
    (hm' : move c'.election = c'.election.moves d ms) :
    (c.moveElection move).Agree d (c'.moveElection move) := by
  obtain ⟨hseat, hsaid⟩ := Election.moves_congr h.seat ms
  refine ⟨?_, h.nodes, ?_⟩
  · simp only [moveElection, hm, hm']
    exact hseat
  · simp only [moveElection, hm, hm', hsaid, about_append, h.journal]

theorem agree_moved {d' : DeviceId} (hd : d ≠ d') (move : Election → Election × List Announcement)
    {ms : List Seat.Move} (hm : move c.election = c.election.moves d' ms) :
    c.Agree d (c.moveElection move) := by
  refine ⟨?_, (Agree.refl d c).nodes, ?_⟩
  · simp only [moveElection, hm]
    exact Election.get?_moves_of_ne _ hd ms
  · have hnone : about d ((c.election.moves d' ms).2.map .announced) = [] := by
      refine about_of_ne fun x hx => ?_
      obtain ⟨a, ha, rfl⟩ := List.mem_map.mp hx
      exact fun he => hd (he.symm.trans (Election.moves_about ha))
    simp only [moveElection, hm, about_append, hnone, List.append_nil]

theorem byHand_congr (h : c.Agree d c') (n : NodeId) (role : Role) :
    c'.election.byHand n d role = c.election.byHand n d role := by
  have hmaster : c'.election.master? d = c.election.master? d := by
    simp only [Election.master?, Election.seat_of_get? h.seat]
  unfold Election.byHand
  rw [hmaster]

/-- What an operation makes of its device depends on nothing but the device. -/
theorem Agree.perform {a : Operation} (h : c.Agree a.device c') (hc : c.Filed) :
    (c.perform a).Agree a.device (c'.perform a) := by
  cases a with
  | task n t faults =>
    have hsites := h.site? n
    simp only [Cluster.perform]
    generalize hs : c.site? n = x, hs' : c'.site? n = y at hsites
    cases hsites with
    | none =>
      rw [modify_of_none hs, modify_of_none hs']
      exact h
    | some hst =>
      rw [modify_of_site hs, modify_of_site hs']
      exact h.setSite n (hst.complete (hc.site hs _) faults).1
  | request n d =>
    exact h.moved (·.request n d) (Election.request_eq_moves _ n d)
      (Election.request_eq_moves _ n d)
  | relinquish n d =>
    exact h.moved (·.relinquish n d) (Election.relinquish_eq_moves _ n d)
      (Election.relinquish_eq_moves _ n d)
  | setRole n d role =>
    refine h.moved (·.setRole n d role) (Election.setRole_eq_moves _ n d role) ?_
    exact byHand_congr h n role ▸ Election.setRole_eq_moves c'.election n d role

/-- What an operation answers depends on nothing but its device. -/
theorem Agree.result_eq {a : Operation} (h : c.Agree a.device c') (hc : c.Filed) :
    c'.result a = c.result a := by
  cases a with
  | task n t faults =>
    have hsites := h.site? n
    simp only [result]
    generalize hs : c.site? n = x, c'.site? n = y at hsites
    cases hsites with
    | none => rfl
    | some hst => exact congrArg _ ((hst.facing faults).outcome_eq (hc.site hs _))
  | request n d =>
    have hseat : c'.election.seat d = c.election.seat d := Election.seat_of_get? h.seat
    simp only [result, Election.granted, hseat]
  | relinquish n d => rfl
  | setRole n d role => rfl

/-- An operation leaves all other devices as they are. -/
theorem Filed.perform_spares (hc : c.Filed) (a : Operation) (hd : d ≠ a.device) :
    c.Agree d (c.perform a) := by
  cases a with
  | task n t faults =>
    simp only [perform]
    cases hs : c.site? n with
    | none =>
      rw [modify_of_none hs]
      exact .refl d c
    | some s =>
      rw [modify_of_site hs]
      exact agree_setSite hs
        (((Site.Agree.refl t.device s).complete (hc.site hs _) faults).2.2 d hd)
  | request n d' => exact agree_moved hd (·.request n d') (Election.request_eq_moves _ n d')
  | relinquish n d' =>
    exact agree_moved hd (·.relinquish n d') (Election.relinquish_eq_moves _ n d')
  | setRole n d' role =>
    exact agree_moved hd (·.setRole n d' role) (Election.setRole_eq_moves _ n d' role)

theorem Filed.perform (hc : c.Filed) (a : Operation) : (c.perform a).Filed := by
  cases a with
  | task n t faults =>
    simp only [Cluster.perform]
    cases hs : c.site? n with
    | none =>
      rw [modify_of_none hs]
      exact hc
    | some s =>
      rw [modify_of_site hs]
      obtain ⟨_, hown, hothers⟩ :=
        (Site.Agree.refl t.device s).complete (hc.site hs _) faults
      exact hc.exchange hs hown hothers
  | _ => exact hc

end Cluster

/-- The same controller, but for the order in which its providers did what they did towards different
devices. -/
structure Controller.Matches (c c' : Controller) : Prop where
  id : c'.id = c.id
  audit : c'.audit = c.audit
  active : c'.active = c.active
  clock : c'.clock = c.clock
  replica : c'.replica = c.replica
  roles : c'.roles = c.roles
  south : c.south.Alike c'.south
  faults : c'.faults = c.faults
  calls : ∀ slot d, (c'.south.providers.get? slot).map (·.calls.filter (·.device = d)) =
    (c.south.providers.get? slot).map (·.calls.filter (·.device = d))

/-- The same cluster, but for the order in which notices about different devices have left. -/
structure Cluster.Matches (c c' : Cluster) : Prop where
  election : c'.election = c.election
  nodes : ∀ n, Option.Rel Controller.Matches (c.nodes.get? n) (c'.nodes.get? n)
  journal : ∀ d, about d c'.journal = about d c.journal

theorem Clock.eq_of {c c' : Clock} (hn : c'.node = c.node)
    (he : ∀ d, c'.entries.get? d = c.entries.get? d) : c' = c := by
  obtain ⟨node, entries⟩ := c
  obtain ⟨node', entries'⟩ := c'
  exact congr (congrArg Clock.mk hn) (Table.ext he)

theorem Faults.eq_of {f f' : Faults} (hq : f'.request = f.request)
    (hl : f'.relinquish = f.relinquish) (ht : ∀ d, f'.terms.get? d = f.terms.get? d)
    (ho : f'.offline = f.offline) : f' = f := by
  obtain ⟨request, relinquish, terms, offline⟩ := f
  obtain ⟨request', relinquish', terms', offline'⟩ := f'
  exact congr (congr (congr (congrArg Faults.mk hq) hl) (Table.ext ht)) ho

theorem Provider.eq_of_at {p p' : Provider} (h : ∀ d, p'.at d = p.at d) :
    p'.id = p.id ∧ p'.lines = p.lines ∧
      ∀ d, p'.calls.filter (·.device = d) = p.calls.filter (·.device = d) :=
  ⟨congrArg Prod.fst (h default), Table.ext fun d => congrArg (·.2.1) (h d),
    fun d => congrArg (·.2.2) (h d)⟩

/-- Controllers that agree about every device are the same. -/
theorem Controller.matches_of_agree {c c' : Controller} (h : ∀ d, c.Agree d c') :
    c.Matches c' := by
  have hat : ∀ slot, Option.Rel (fun p p' : Provider => ∀ d, p'.at d = p.at d)
      (c.south.providers.get? slot) (c'.south.providers.get? slot) := by
    intro slot
    have hp := fun d => (h d).providers slot
    revert hp
    cases c.south.providers.get? slot <;> cases c'.south.providers.get? slot <;> intro hp
    · exact .none
    · simpa using hp default
    · simpa using hp default
    · exact .some fun d => Option.some.inj (hp d)
  have hproviders : ∀ {β : Type} (f : Provider → β) slot,
      (∀ p p' : Provider, (∀ d, p'.at d = p.at d) → f p' = f p) →
        (c'.south.providers.get? slot).map f = (c.south.providers.get? slot).map f := by
    intro β f slot hf
    have hrel := hat slot
    revert hrel
    generalize c.south.providers.get? slot = x, c'.south.providers.get? slot = y
    rintro (hp | _)
    · exact congrArg some (hf _ _ hp)
    · rfl
  exact {
    id := (h default).id
    audit := (h default).audit
    active := (h default).active
    clock := Clock.eq_of (h default).stamper fun d => (h d).clock
    replica := congrArg Replica.mk (Table.ext fun d => (h d).record)
    roles := congrArg RoleTable.mk (Table.ext fun d => (h d).role)
    south := ⟨(h default).registry,
      fun slot => hproviders _ slot fun _ _ hp => (Provider.eq_of_at hp).1,
      fun slot => hproviders _ slot fun _ _ hp => (Provider.eq_of_at hp).2.1⟩
    faults := Faults.eq_of (h default).request (h default).relinquish (fun d => (h d).term)
      (h default).offline
    calls := fun slot d => hproviders _ slot fun _ _ hp => (Provider.eq_of_at hp).2.2 d }

namespace Cluster

variable {c c' : Cluster} {d : DeviceId}

theorem matches_of_agree (h : ∀ d, c.Agree d c') : c.Matches c' where
  election := congrArg Election.mk (Table.ext fun d => (h d).seat)
  nodes n := by
    have hn := fun d => (h d).nodes n
    revert hn
    generalize c.nodes.get? n = x, c'.nodes.get? n = y
    intro hn
    cases hn default with
    | none => exact .none
    | some _ =>
      refine .some (Controller.matches_of_agree fun d => ?_)
      cases hn d with
      | some hd => exact hd
  journal d := (h d).journal

/-- Two operations about different devices may change places. -/
theorem Filed.perform_comm (hc : c.Filed) {a b : Operation} (h : a.device ≠ b.device) (d : DeviceId) :
    ((c.perform a).perform b).Agree d ((c.perform b).perform a) := by
  have ha := hc.perform a
  have hb := hc.perform b
  by_cases hda : d = a.device
  · -- The first operation is done to its device alike, whether the other has gone before or not.
    subst hda
    exact (ha.perform_spares b h).symm.trans ((hc.perform_spares b h).perform hc)
  · by_cases hdb : d = b.device
    · subst hdb
      exact ((hc.perform_spares a hda).perform hc).symm.trans (hb.perform_spares a hda)
    · exact ((hc.perform_spares a hda).trans (ha.perform_spares b hdb)).symm.trans
        ((hc.perform_spares b hdb).trans (hb.perform_spares a hda))

/-- An operation about one device, whether it succeeds or fails, leaves all that is known of any other
device as it is at every member and in the election, and nothing leaves that is about the other.
Hence two operations about different devices, at the same member or at different ones, come to the
same in either order: the same state, the same results, and for each device the same notices in the
same order. All it takes is that members file their devices under their ids, which they always do
(`World.Kept.filed`, `Filed.perform`). -/
theorem operations_keep_apart (hc : c.Filed) :
    (∀ (a : Operation) (d : DeviceId), d ≠ a.device → c.Agree d (c.perform a)) ∧
      ∀ a b : Operation, a.device ≠ b.device →
        ((c.perform a).perform b).Matches ((c.perform b).perform a) ∧
          (c.perform a).result b = c.result b ∧ (c.perform b).result a = c.result a :=
  ⟨fun a _ hd => hc.perform_spares a hd, fun a b h =>
    ⟨matches_of_agree (hc.perform_comm h),
      (hc.perform_spares a h.symm).result_eq hc, (hc.perform_spares b h).result_eq hc⟩⟩

end Cluster

/-- Whatever has happened, and whatever terms and faults the members have met with, they file their
devices under their ids. -/
theorem World.Kept.filed {w : World} (h : w.Kept) : w.cluster.Filed := by
  intro n node hnode d device hd
  obtain ⟨rec, hrec, rfl⟩ := Option.map_eq_some_iff.mp hd
  exact (h.tidy n ⟨_, node, _⟩ (Option.map_eq_some_iff.mpr ⟨node, hnode, rfl⟩) d rec hrec).id

namespace Sample

def desk : DeviceId := ⟨"of:2"⟩

/-- A member has connected one device and reaches another. -/
def furnishedActs : List World.Act :=
  opens east ++ [.change east (.setLine 0 desk { reachable := true }),
    .task east (.connect 0 desk default), .answer 0,
    .change east (.setLine 0 lamp { reachable := true })]

def furnished : Cluster := (furnishedActs.foldl World.step ⟨pair, []⟩).cluster

/-- The one device connects. -/
def arrival : Cluster.Operation := .task east (.connect 0 lamp default) []

/-- The other one disconnects, and cannot be marked offline. -/
def departure : Cluster.Operation := .task east (.disconnect 0 desk) [some .internal]

theorem furnished_results : furnished.result arrival = .ended .done ∧
    furnished.result departure = .ended (.failed (.internal "store failed")) ∧
    ((furnished.perform arrival).perform departure).journal ≠
      ((furnished.perform departure).perform arrival).journal := by
  decide +kernel

end Sample

/-- A connection and a disconnection that fails change places, at one member. -/
theorem Cluster.arrival_beside_departure :
    ((Sample.furnished.perform Sample.arrival).perform Sample.departure).Matches
      ((Sample.furnished.perform Sample.departure).perform Sample.arrival) ∧
    (Sample.furnished.perform Sample.arrival).result Sample.departure =
      .ended (.failed (.internal "store failed")) ∧
    (Sample.furnished.perform Sample.departure).result Sample.arrival = .ended .done := by
  obtain ⟨harrival, hdeparture, _⟩ := Sample.furnished_results
  have hfiled : Sample.furnished.Filed :=
    ((World.kept_of_fresh Sample.pair_fresh).run Sample.furnishedActs).filed
  obtain ⟨_, hcomm⟩ := operations_keep_apart hfiled
  obtain ⟨hstate, hb, ha⟩ := hcomm Sample.arrival Sample.departure (by decide)
  exact ⟨hstate, hb.trans hdeparture, ha.trans harrival⟩

end Mastership
