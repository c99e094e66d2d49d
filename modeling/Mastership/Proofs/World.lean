import Mastership.Cluster
import Mastership.Proofs.Epochs

namespace Mastership

/-- What a controller may have to do about a device. -/
inductive Site.Task where
  | connect (slot : Nat) (d : DeviceId) (description : DeviceDescription)
  | disconnect (slot : Nat) (d : DeviceId)
  | setPorts (slot : Nat) (d : DeviceId) (ps : List PortDescription)
  | setPort (slot : Nat) (d : DeviceId) (p : PortDescription)
  | setStatistics (slot : Nat) (d : DeviceId) (ss : List PortStatistics)
  | roleReply (slot : Nat) (d : DeviceId) (requested response : Option Role)
  | reassert (d : DeviceId) (requested : Role)
  | check (d : DeviceId)
  | handle (a : Announcement)
  | remove (d : DeviceId)

/-- What may change around a controller. -/
inductive Site.Change where
  | register (id : ProviderId)
  | unregister (id : ProviderId)
  | setLine (slot : Nat) (d : DeviceId) (line : Line)
  | setFaults (faults : Faults)
  | setActive (active : Bool)

namespace Site

def Task.device : Task → DeviceId
  | .connect _ d _ | .disconnect _ d | .setPorts _ d _ | .setPort _ d _ | .setStatistics _ d _ => d
  | .roleReply _ d _ _ | .reassert d _ | .check d | .remove d => d
  | .handle a => a.device

/-- Does a task, up to the push that it may leave to be answered. -/
def run (s : Site) : Task → Site × Option Push
  | .connect slot d description => (s.connect slot d description).1
  | .disconnect slot d => ((s.disconnect slot d).1, none)
  | .setPorts slot d ps => ((s.setPorts slot d ps).1, none)
  | .setPort slot d p => ((s.setPort slot d p).1, none)
  | .setStatistics slot d ss => ((s.setStatistics slot d ss).1, none)
  | .roleReply slot d requested response => ((s.roleReply slot d requested response).1, none)
  | .reassert d requested => s.reassert d requested
  | .check d => s.check d
  | .handle a => s.handle a
  | .remove d => (s.remove d, none)

def change (s : Site) : Change → Site
  | .register id => (s.register id).1
  | .unregister id => (s.unregister id).1
  | .setLine slot d line => s.setLine slot d fun _ => line
  | .setFaults faults => s.setFaults fun _ => faults
  | .setActive active => { s with node := { s.node with active } }

/-- No change gives a controller terms other than the election's. -/
def Change.Honest : Change → Prop
  | .setFaults faults => faults.terms = ∅
  | _ => True

/-- A task decides about its device alone. -/
theorem run_decides (s : Site) (t : Task) : ∃ ms, Decides t.device ms s (s.run t) := by
  cases t with
  | connect slot d description => exact connect_decides s slot d description
  | disconnect slot d =>
    obtain ⟨ms, h⟩ := disconnect_does s slot d
    exact ⟨ms, h.decides⟩
  | setPorts slot d ps =>
    obtain ⟨ms, h⟩ := guarded_does slot (f := (·.portsReported d ps)) (portsReported_does s d ps)
    exact ⟨ms, h.decides⟩
  | setPort slot d p =>
    obtain ⟨ms, h⟩ := guarded_does slot (f := (·.portReported d p)) (portReported_does s d p)
    exact ⟨ms, h.decides⟩
  | setStatistics slot d ss =>
    obtain ⟨ms, h⟩ :=
      guarded_does slot (f := (·.statisticsReported d ss)) (statisticsReported_does s d ss)
    exact ⟨ms, h.decides⟩
  | roleReply slot d requested response =>
    obtain ⟨ms, h⟩ := roleReplied_does s d requested response
    obtain ⟨ms, h⟩ := guarded_does slot (f := (·.roleReplied d requested response)) h
    exact ⟨ms, h.decides⟩
  | reassert d requested => exact reassert_decides s d requested
  | check d => exact check_decides s d
  | handle a => exact handle_decides s a
  | remove d => exact ⟨[], (remove_does s d).decides⟩

theorem Truthful.guarded {s : Site} (h : s.Truthful) (slot : Nat) {f : Site → Site}
    (hf : (f s).Truthful) : (s.guarded slot f).1.Truthful := by
  unfold Site.guarded
  split
  · exact h
  · exact hf

theorem Truthful.run {s : Site} (h : s.Truthful) (t : Task) : (s.run t).1.Truthful := by
  cases t with
  | connect slot d description => exact h.connect slot d description
  | disconnect slot d => exact h.disconnect slot d
  | setPorts slot d ps =>
    refine h.guarded slot ((portsReported_does s d ps).truthful_of_eq h ?_)
    unfold portsReported
    split <;> simp
  | setPort slot d p =>
    refine h.guarded slot ((portReported_does s d p).truthful_of_eq h ?_)
    unfold portReported
    split <;> simp
  | setStatistics slot d ss =>
    exact h.guarded slot ((statisticsReported_does s d ss).truthful_of_eq h rfl)
  | roleReply slot d requested response =>
    apply h.guarded slot
    rcases roleReplied_eq s d requested response with hr | hr <;> rw [hr]
    · exact h.relinquish d
    · exact h
  | reassert d requested => exact h.reassert d requested
  | check d => exact h.check d
  | handle a => exact h.handle a
  | remove d => exact h.remove d

/-- A change leaves the election, what has left the controller, and what it knows as they are. -/
theorem change_keeps (s : Site) (c : Change) :
    (s.change c).election = s.election ∧ (s.change c).journal = s.journal ∧
      (s.change c).node.id = s.node.id ∧ (s.change c).node.roles = s.node.roles := by
  cases c with
  | register id =>
    simp only [change, register]
    split <;> exact ⟨rfl, rfl, rfl, rfl⟩
  | _ => exact ⟨rfl, rfl, rfl, rfl⟩

theorem change_replica (s : Site) (c : Change) :
    (s.change c).node.replica = s.node.replica := by
  cases c with
  | register id =>
    simp only [change, register]
    split <;> rfl
  | _ => rfl

theorem change_terms (s : Site) {c : Change} (hc : c.Honest) (h : s.node.faults.terms = ∅) :
    (s.change c).node.faults.terms = ∅ := by
  cases c with
  | register id =>
    simp only [change, register]
    split <;> exact h
  | setFaults faults => exact hc
  | _ => exact h

theorem Truthful.change {s : Site} (h : s.Truthful) {c : Change} (hc : c.Honest) :
    (s.change c).Truthful := by
  obtain ⟨he, _, _, hr⟩ := change_keeps s c
  exact ⟨change_terms s hc h.terms, fun d => by rw [he, hr]; exact h.seen d⟩

/-- Another's move in the election leaves a controller truthful. -/
theorem Truthful.elsewhere {s s' : Site} (h : s.Truthful) (hn : s'.node = s.node)
    (hs : ∀ d, (s.election.seat d).Precedes (s'.election.seat d)) : s'.Truthful :=
  ⟨hn ▸ h.terms, fun d => hn ▸ Nat.le_trans (h.seen d) (hs d).epoch_le⟩

end Site

/-- A controller that has just been set up under a name. -/
structure Controller.Fresh (n : NodeId) (c : Controller) : Prop where
  id : c.id = n
  clock : c.clock = { node := n }
  replica : c.replica = {}
  roles : c.roles = {}
  faults : c.faults = {}

/-- A cluster in which nothing has happened yet. Members may differ in their providers, the lines
to their devices and their settings. -/
structure Cluster.Fresh (c : Cluster) : Prop where
  election : c.election = {}
  journal : c.journal = []
  nodes : ∀ n node, c.nodes.get? n = some node → node.Fresh n

/-- A cluster in which anything may happen at any time, with the pushes that are not answered yet.
Tasks run one at a time and end when a push is started; its answer comes at any later moment or never,
in any order. -/
structure World where
  cluster : Cluster := {}
  pending : List (NodeId × Push) := []

namespace World

/-- What may happen next. Announcements may be handled late, again and again, or not at all. -/
inductive Act where
  | task (n : NodeId) (t : Site.Task)
  | change (n : NodeId) (c : Site.Change)
  /-- The device answers one of the pending pushes. -/
  | answer (i : Nat)
  /-- The election is moved by hand. -/
  | request (n : NodeId) (d : DeviceId)
  | relinquish (n : NodeId) (d : DeviceId)
  | setRole (n : NodeId) (d : DeviceId) (role : Role)

def Act.Honest : Act → Prop
  | .change _ c => c.Honest
  | _ => True

def step (w : World) : Act → World
  | .task n t =>
    let (cluster, push) := w.cluster.run n (·.run t)
    ⟨cluster, w.pending ++ (push.join.map (n, ·)).toList⟩
  | .change n c => { w with cluster := w.cluster.modify n (·.change c) }
  | .answer i =>
    match w.pending[i]? with
    | none => w
    | some (n, p) => ⟨w.cluster.modify n (·.answer p), w.pending.eraseIdx i⟩
  | .request n d => { w with cluster := w.cluster.moveElection (·.request n d) }
  | .relinquish n d => { w with cluster := w.cluster.moveElection (·.relinquish n d) }
  | .setRole n d role => { w with cluster := w.cluster.moveElection (·.setRole n d role) }

/-- What can come of a fresh cluster whose members are told the election's own terms. -/
inductive Reachable : World → Prop
  | fresh {c : Cluster} : c.Fresh → Reachable ⟨c, []⟩
  | step {w : World} {a : Act} : Reachable w → a.Honest → Reachable (w.step a)

theorem step_task {w : World} {n : NodeId} {s : Site} (hs : w.cluster.site? n = some s)
    (t : Site.Task) : w.step (.task n t) =
      ⟨w.cluster.setSite n (s.run t).1, w.pending ++ ((s.run t).2.map (n, ·)).toList⟩ := by
  simp [World.step, Cluster.run_of_site hs]

theorem step_task_of_none {w : World} {n : NodeId} (hs : w.cluster.site? n = none)
    (t : Site.Task) : w.step (.task n t) = w := by
  simp [World.step, Cluster.run_of_none hs]

theorem step_answer {w : World} {n : NodeId} {s : Site} {i : Nat} {p : Push}
    (hi : w.pending[i]? = some (n, p)) (hs : w.cluster.site? n = some s) :
    w.step (.answer i) = ⟨w.cluster.setSite n (s.answer p), w.pending.eraseIdx i⟩ := by
  simp [World.step, hi, Cluster.modify_of_site hs]

theorem step_answer_of_none {w : World} {n : NodeId} {i : Nat} {p : Push}
    (hi : w.pending[i]? = some (n, p)) (hs : w.cluster.site? n = none) :
    w.step (.answer i) = ⟨w.cluster, w.pending.eraseIdx i⟩ := by
  simp [World.step, hi, Cluster.modify_of_none hs]

/-- What a step comes to: nothing, where the member or the push is missing, another site of one
member, a push whose answer is lost, or a move by hand. -/
inductive Steps (w : World) : Act → World → Prop
  | idle (a : Act) : Steps w a w
  | task {n : NodeId} {s : Site} (t : Site.Task) : w.cluster.site? n = some s →
      Steps w (.task n t)
        ⟨w.cluster.setSite n (s.run t).1, w.pending ++ ((s.run t).2.map (n, ·)).toList⟩
  | change {n : NodeId} {s : Site} (c : Site.Change) : w.cluster.site? n = some s →
      Steps w (.change n c) ⟨w.cluster.setSite n (s.change c), w.pending⟩
  | answer {n : NodeId} {s : Site} {i : Nat} {p : Push} : w.pending[i]? = some (n, p) →
      w.cluster.site? n = some s →
      Steps w (.answer i) ⟨w.cluster.setSite n (s.answer p), w.pending.eraseIdx i⟩
  | lost {n : NodeId} {i : Nat} {p : Push} : w.pending[i]? = some (n, p) →
      w.cluster.site? n = none → Steps w (.answer i) ⟨w.cluster, w.pending.eraseIdx i⟩
  | moved (a : Act) (move : Election → Election × List Announcement) :
      Steps w a ⟨w.cluster.moveElection move, w.pending⟩

theorem steps (w : World) (a : Act) : w.Steps a (w.step a) := by
  cases a with
  | task n t =>
    cases hs : w.cluster.site? n with
    | none =>
      rw [step_task_of_none hs]
      exact .idle _
    | some s =>
      rw [step_task hs]
      exact .task t hs
  | change n c =>
    cases hs : w.cluster.site? n with
    | none =>
      simp only [World.step, Cluster.modify_of_none hs]
      exact .idle _
    | some s =>
      simp only [World.step, Cluster.modify_of_site hs]
      exact .change c hs
  | answer i =>
    cases hi : w.pending[i]? with
    | none =>
      simp only [World.step, hi]
      exact .idle _
    | some x =>
      cases hs : w.cluster.site? x.1 with
      | none =>
        rw [step_answer_of_none hi hs]
        exact .lost hi hs
      | some s =>
        rw [step_answer hi hs]
        exact .answer hi hs
  | request n d => exact .moved _ _
  | relinquish n d => exact .moved _ _
  | setRole n d role => exact .moved _ _

/-- A move by hand leaves every controller as it is. -/
theorem site?_moveElection {c : Cluster} {move : Election → Election × List Announcement}
    {n : NodeId} {s : Site} (hs : (c.moveElection move).site? n = some s) :
    ∃ s₀, c.site? n = some s₀ ∧ s.node = s₀.node := by
  obtain ⟨node, hn, rfl⟩ := Option.map_eq_some_iff.mp hs
  exact ⟨_, Option.map_eq_some_iff.mpr ⟨node, hn, rfl⟩, rfl⟩

/-- What holds of a world whatever has happened. -/
structure Lawful (w : World) : Prop where
  id : ∀ n s, w.cluster.site? n = some s → s.node.id = n
  truthful : ∀ n s, w.cluster.site? n = some s → s.Truthful
  orderly : ∀ d, (w.cluster.election.seat d).Orderly
  pending : ∀ x ∈ w.pending, x.2.epoch.getD 0 ≤ (w.cluster.election.seat x.2.device).epoch

theorem lawful_of_fresh {c : Cluster} (h : c.Fresh) : Lawful ⟨c, []⟩ := by
  refine ⟨?_, ?_, ?_, by simp⟩
  · intro n s hs
    obtain ⟨node, hn, rfl⟩ := Option.map_eq_some_iff.mp hs
    exact (h.nodes n node hn).id
  · intro n s hs
    obtain ⟨node, hn, rfl⟩ := Option.map_eq_some_iff.mp hs
    have hf := h.nodes n node hn
    exact ⟨by simp [hf.faults], fun d => by simp [hf.roles, RoleTable.entry]⟩
  · intro d
    simp only [h.election, Election.seat]
    exact ⟨List.nodup_nil, fun _ => rfl⟩

/-- A member's site may be exchanged for one that comes of it lawfully. -/
theorem Lawful.setSite {w : World} (h : w.Lawful) {n : NodeId} {s s' : Site} {d : DeviceId}
    {ms : List Seat.Move} {pending : List (NodeId × Push)} (hs : w.cluster.site? n = some s)
    (hid : s'.node.id = s.node.id) (ht : s'.Truthful)
    (he : s'.election = (s.election.moves d ms).1)
    (hp : ∀ x ∈ pending, x.2.epoch.getD 0 ≤ (s'.election.seat x.2.device).epoch) :
    Lawful ⟨w.cluster.setSite n s', pending⟩ := by
  have hse := Cluster.site?_election hs
  have hprec : ∀ d, (w.cluster.election.seat d).Precedes (s'.election.seat d) := by
    intro d'
    rw [he, hse]
    exact Election.moves_precedes _ d d' ms
  refine ⟨?_, ?_, ?_, hp⟩
  · intro m x hx
    rcases Cluster.site?_setSite hx with ⟨rfl, rfl⟩ | ⟨_, y, hy, rfl⟩
    · exact hid.trans (h.id _ _ hs)
    · exact h.id m y hy
  · intro m x hx
    rcases Cluster.site?_setSite hx with ⟨rfl, rfl⟩ | ⟨_, y, hy, rfl⟩
    · exact ht
    · exact (h.truthful _ _ hy).elsewhere rfl fun d' =>
        Cluster.site?_election hy ▸ hprec d'
  · intro d'
    change (s'.election.seat d').Orderly
    rw [he, hse]
    exact Election.moves_orderly h.orderly d ms d'

theorem mem_eraseIdx_of_ne {x y : NodeId × Push} {l : List (NodeId × Push)} {i : Nat}
    (hi : l[i]? = some y) (h : x ≠ y) : x ∈ l.eraseIdx i ↔ x ∈ l := by
  refine ⟨List.mem_of_mem_eraseIdx, ?_⟩
  intro hx
  obtain ⟨j, hj⟩ := List.mem_iff_getElem?.mp hx
  refine List.mem_eraseIdx_iff_getElem?.mpr ⟨j, ?_, hj⟩
  rintro rfl
  exact h (Option.some.inj (hj.symm.trans hi))

theorem Lawful.moved {w : World} (h : w.Lawful) (d : DeviceId) (ms : List Seat.Move)
    {cluster : Cluster} (hn : cluster.nodes = w.cluster.nodes)
    (he : cluster.election = (w.cluster.election.moves d ms).1) : Lawful ⟨cluster, w.pending⟩ := by
  have hprec : ∀ d', (w.cluster.election.seat d').Precedes (cluster.election.seat d') := fun d' =>
    he ▸ Election.moves_precedes _ d d' ms
  have hsite : ∀ n s, cluster.site? n = some s → ∃ s₀, w.cluster.site? n = some s₀ ∧
      s.node = s₀.node ∧ s₀.election = w.cluster.election ∧ s.election = cluster.election := by
    intro n s hs
    obtain ⟨node, hnode, rfl⟩ := Option.map_eq_some_iff.mp hs
    exact ⟨_, Option.map_eq_some_iff.mpr ⟨node, hn ▸ hnode, rfl⟩, rfl, rfl, rfl⟩
  refine ⟨?_, ?_, ?_, ?_⟩
  · intro n s hs
    obtain ⟨s₀, hs₀, hnode, _, _⟩ := hsite n s hs
    exact hnode ▸ h.id n s₀ hs₀
  · intro n s hs
    obtain ⟨s₀, hs₀, hnode, he₀, he'⟩ := hsite n s hs
    exact (h.truthful n s₀ hs₀).elsewhere hnode fun d' => by rw [he₀, he']; exact hprec d'
  · intro d'
    change (cluster.election.seat d').Orderly
    rw [he]
    exact Election.moves_orderly h.orderly d ms d'
  · intro x hx
    exact Nat.le_trans (h.pending x hx) (hprec x.2.device).epoch_le

/-- What an act does to the election: moves about one device, which may be none. The pushes started
meanwhile are left pending. -/
structure Does (d : DeviceId) (ms : List Seat.Move) (ps : List (NodeId × Push)) (w w' : World) :
    Prop where
  election : w'.cluster.election = (w.cluster.election.moves d ms).1
  journal : ∃ ns, w'.cluster.journal = w.cluster.journal ++ ns ∧
    announced ns = (w.cluster.election.moves d ms).2 ∧ started ns = ps

/-- A push that an act leaves was decided on the term as it is when the act is over, and as MASTER
by its owner alone; to start it was the last thing done. -/
structure Decides (w : World) (x : NodeId × Push) : Prop where
  last : w.cluster.journal.getLast? = some (.started x.1 x.2)
  epoch : x.2.epoch = (w.cluster.election.term? x.2.device).map Term.epoch
  owned : x.2.role = .master →
    ∃ t, w.cluster.election.term? x.2.device = some t ∧ t.owner = x.1

/-- What any act amounts to. -/
structure Advances (w w' : World) : Prop where
  lawful : w'.Lawful
  does : ∃ d ms ps, Does d ms ps w w' ∧ ∀ x ∈ ps, w'.Decides x

theorem Lawful.stays {w : World} (h : w.Lawful) : Advances w w :=
  ⟨h, default, [], [], ⟨rfl, [], by simp⟩, by simp⟩

theorem Lawful.task {w : World} (h : w.Lawful) (n : NodeId) (t : Site.Task) :
    Advances w (w.step (.task n t)) := by
  simp only [World.step]
  cases hs : w.cluster.site? n with
  | none =>
    simpa [Cluster.run_of_none hs] using h.stays
  | some s =>
    have hid := h.id n s hs
    have hse := Cluster.site?_election hs
    have ht := (h.truthful n s hs).run t
    obtain ⟨ms, hd⟩ := s.run_decides t
    rw [Cluster.run_of_site hs]
    dsimp only
    generalize s.run t = r at ht hd ⊢
    obtain ⟨s', push⟩ := r
    have hp : ∀ p, push = some p → p.epoch = (s'.election.term? p.device).map Term.epoch := by
      intro p hp
      rw [hd.epoch p hp, hd.device p hp, ht.term?_eq]
    refine ⟨h.setSite hs hd.does.id ht hd.does.election fun x hx => ?_, t.device, ms,
      push.toList.map (n, ·), ⟨hse ▸ hd.does.election, ?_⟩, fun x hx => ?_⟩
    · rcases List.mem_append.mp hx with hx | hx
      · exact Nat.le_trans (h.pending x hx) (hse ▸ hd.does.precedes x.2.device).epoch_le
      · cases push with
        | none => simp at hx
        | some p =>
          obtain rfl : x = (n, p) := by simpa using hx
          have ho := ht.opened p.device
          rwa [ht.term?_eq, ← hp p rfl] at ho
    · rw [← hse, ← Cluster.site?_journal hs, ← hid]
      exact hd.does.journal
    · cases push with
      | none => simp at hx
      | some p =>
        obtain rfl : x = (n, p) := by simpa using hx
        refine ⟨hid ▸ hd.last p rfl, hp p rfl, fun hm => ?_⟩
        have ho := hd.owned p rfl hm
        rw [ht.term?_eq, ← hd.device p rfl, Site.owns, Option.any_eq_true] at ho
        obtain ⟨t, hterm, howner⟩ := ho
        exact ⟨t, hterm, (beq_iff_eq.mp howner).trans (hd.does.id.trans hid)⟩

theorem Lawful.change {w : World} (h : w.Lawful) (n : NodeId) {c : Site.Change} (hc : c.Honest) :
    Advances w (w.step (.change n c)) := by
  simp only [World.step]
  cases hs : w.cluster.site? n with
  | none =>
    rw [Cluster.modify_of_none hs]
    exact h.stays
  | some s =>
    obtain ⟨he, hj, hid, _⟩ := s.change_keeps c
    have he' := he.trans (Cluster.site?_election hs)
    rw [Cluster.modify_of_site hs]
    have hm : (s.change c).election = (s.election.moves default []).1 := he
    refine ⟨h.setSite hs hid ((h.truthful n s hs).change hc) hm fun x hx => ?_,
      default, [], [], ⟨he', [], ?_, rfl, rfl⟩, by simp⟩
    · rw [he']
      exact h.pending x hx
    · rw [List.append_nil]
      exact hj.trans (Cluster.site?_journal hs)

theorem Lawful.answer {w : World} (h : w.Lawful) (i : Nat) :
    Advances w (w.step (.answer i)) := by
  simp only [World.step]
  split
  · exact h.stays
  · next n p hi =>
    have hx : (n, p) ∈ w.pending := List.mem_of_getElem? hi
    have hrest : ∀ y ∈ w.pending.eraseIdx i, y ∈ w.pending := fun y hy =>
      List.mem_of_mem_eraseIdx hy
    cases hs : w.cluster.site? n with
    | none =>
      rw [Cluster.modify_of_none hs]
      exact ⟨⟨h.id, h.truthful, h.orderly, fun y hy => h.pending y (hrest y hy)⟩,
        default, [], [], ⟨rfl, [], by simp⟩, by simp⟩
    | some s =>
      have hd := s.answer_does p
      have hse := Cluster.site?_election hs
      have hopen : s.Opened p.device p.epoch := by
        rw [Site.Opened, hse]
        exact h.pending _ hx
      rw [Cluster.modify_of_site hs]
      refine ⟨h.setSite hs hd.id ((h.truthful n s hs).answer hopen) hd.election fun y hy => ?_,
        p.device, s.givesUp (s.reply p), [], ⟨hse ▸ hd.election, ?_⟩, by simp⟩
      · exact Nat.le_trans (h.pending y (hrest y hy)) (hse ▸ hd.precedes y.2.device).epoch_le
      · rw [← hse, ← Cluster.site?_journal hs]
        exact hd.journal

theorem Lawful.byHand {w : World} (h : w.Lawful) {d : DeviceId} {ms : List Seat.Move}
    {move : Election → Election × List Announcement}
    (hm : move w.cluster.election = w.cluster.election.moves d ms) :
    Advances w { w with cluster := w.cluster.moveElection move } := by
  simp only [Cluster.moveElection, hm]
  exact ⟨h.moved d ms rfl rfl, d, ms, [], ⟨rfl, _, rfl, by simp, by simp⟩, by simp⟩

/-- A step from a lawful world leads to a lawful world. -/
theorem Lawful.step {w : World} (h : w.Lawful) {a : Act} (ha : a.Honest) :
    Advances w (w.step a) := by
  cases a with
  | task n t => exact h.task n t
  | change n c => exact h.change n ha
  | answer i => exact h.answer i
  | request n d => exact h.byHand (Election.request_eq_moves _ n d)
  | relinquish n d => exact h.byHand (Election.relinquish_eq_moves _ n d)
  | setRole n d role => exact h.byHand (Election.setRole_eq_moves _ n d role)

theorem Reachable.lawful {w : World} (h : w.Reachable) : w.Lawful := by
  induction h with
  | fresh hc => exact lawful_of_fresh hc
  | step _ ha ih => exact (ih.step ha).lawful

theorem Reachable.run {w : World} (h : w.Reachable) {as : List Act} (ha : ∀ a ∈ as, a.Honest) :
    (as.foldl World.step w).Reachable := by
  induction as generalizing w with
  | nil => exact h
  | cons a as ih =>
    exact ih (h.step (ha a List.mem_cons_self)) fun b hb => ha b (List.mem_cons_of_mem a hb)

end World

namespace Sample

def east : NodeId := ⟨"east"⟩

def west : NodeId := ⟨"west"⟩

def lamp : DeviceId := ⟨"of:1"⟩

def pair : Cluster where
  nodes := ((∅ : Table NodeId Controller).insert east { id := east }).insert west { id := west }

theorem pair_fresh : pair.Fresh where
  election := rfl
  journal := rfl
  nodes n node h := by
    simp only [pair, Table.get?_insert, Table.get?_emptyCollection] at h
    split at h
    · next hn =>
      cases h
      exact hn ▸ ⟨rfl, rfl, rfl, rfl, rfl⟩
    · split at h
      · next hn =>
        cases h
        exact hn ▸ ⟨rfl, rfl, rfl, rfl, rfl⟩
      · cases h

/-- A member that starts to listen and to serve its devices. -/
def opens (n : NodeId) : List World.Act :=
  [.change n (.setActive true), .change n (.register ⟨"of", "sim"⟩)]

/-- A member that comes to reach the device, and connects it while nothing else is under way. -/
def joins (n : NodeId) : List World.Act :=
  opens n ++ [.change n (.setLine 0 lamp { reachable := true }),
    .task n (.connect 0 lamp default), .answer 0]

theorem joins_honest (n : NodeId) : ∀ a ∈ joins n, a.Honest := by
  simp [joins, opens, World.Act.Honest, Site.Change.Honest]

end Sample
end Mastership
