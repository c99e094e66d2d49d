import Mathlib.Data.List.Induction
import Mastership.Proofs.Addressees

namespace Mastership

/-- What is done for a push that is accepted, by the roles that can be pushed. -/
def Push.exchange (p : Push) : List Call :=
  match p.role with
  | .none => []
  | .standby => [.role p.device .standby]
  | .master => [.role p.device .master, .probe p.device]

/-- The exchange, by the member and the provider. -/
def exchanged (x : NodeId × Push) : List (NodeId × Nat × Call) :=
  x.2.exchange.map (x.1, x.2.slot, ·)

theorem Push.exchange_device {p : Push} {call : Call} (h : call ∈ p.exchange) :
    call.device = p.device := by
  unfold exchange at h
  split at h
  · cases h
  · rw [List.mem_singleton.mp h]
    rfl
  · rcases List.mem_pair.mp h with rfl | rfl <;> rfl

theorem Push.callsFor_eq_exchange {p : Push} (h : p.role ≠ .none) :
    Provider.callsFor p.device p.role = p.exchange := by
  unfold Provider.callsFor exchange
  cases hr : p.role with
  | none => exact absurd hr h
  | master => rfl
  | standby => rfl

/-- A provider does for a push what its exchange says, if the device accepts it, and nothing otherwise. -/
theorem Site.callsOf_eq {s : Site} {p : Push} (h : p.role ≠ .none) :
    s.callsOf p = if (s.reply p).toBool then p.exchange else [] := by
  unfold callsOf
  cases s.reply p with
  | error e => rfl
  | ok => exact Push.callsFor_eq_exchange h

/-- An exchange is about the device of its push, as a whole. -/
theorem Push.filter_exchange (p : Push) (d : DeviceId) :
    p.exchange.filter (·.device = d) = if p.device = d then p.exchange else [] := by
  split
  · next h =>
    rw [List.filter_eq_self]
    intro call hcall
    exact decide_eq_true ((exchange_device hcall).trans h)
  · next h =>
    rw [List.filter_eq_nil_iff]
    intro call hcall hd
    exact h ((exchange_device hcall).symm.trans (of_decide_eq_true hd))

theorem filter_exchanged (x : NodeId × Push) (d : DeviceId) :
    (exchanged x).filter (·.2.2.device = d) = if x.2.device = d then exchanged x else [] := by
  rw [exchanged, List.filter_map]
  change (x.2.exchange.filter (·.device = d)).map _ = _
  rw [Push.filter_exchange]
  split <;> rfl

/-- What is kept of many pieces is the pieces of which something is kept. -/
theorem filter_flatMap_of_pieces {α β : Type} {f g : α → List β} {keep : β → Bool}
    {pick : α → Bool} (h : ∀ x, (f x).filter keep = if pick x then g x else []) (l : List α) :
    (l.flatMap f).filter keep = (l.filter pick).flatMap g := by
  induction l with
  | nil => rfl
  | cons x l ih =>
    rw [List.flatMap_cons, List.filter_append, ih, h]
    cases hx : pick x <;> simp [hx]

/-- What the provider in a slot of a member did so far. -/
def Cluster.heard (c : Cluster) (n : NodeId) (slot : Nat) : List Call :=
  ((c.nodes.get? n).map (·.south.heard slot)).getD []

namespace World

variable {n m : NodeId} {w w₀ : World} {as : List Act} {a : Act} {x : NodeId × Push}

/-- The push that a device accepts in an act, if one does. -/
def accepted (w : World) : Act → Option (NodeId × Push)
  | .answer i =>
    w.pending[i]?.bind fun x => (w.cluster.site? x.1).bind fun s =>
      match s.reply x.2 with
      | .ok () => some x
      | .error _ => none
  | _ => none

/-- The pushes that devices accept while the acts are done, in this order. -/
def taken : World → List Act → List (NodeId × Push) := gather fun w a => (w.accepted a).toList

/-- The pushes that are for a slot of a member. -/
def isFor (n : NodeId) (slot : Nat) (x : NodeId × Push) : Bool :=
  decide (x.1 = n ∧ x.2.slot = slot)

/-- The push was left by a task among the acts, for the provider that was registered at that time for
the scheme of its device. -/
def Started (w₀ : World) (as : List Act) (x : NodeId × Push) : Prop :=
  ∃ before t after s id, as = before ++ .task x.1 t :: after ∧
    (before.foldl World.step w₀).cluster.site? x.1 = some s ∧ (s.run t).2 = some x.2 ∧
    s.node.south.registry.providerFor x.2.device = some ⟨id, x.2.slot⟩

theorem Started.role (h : Started w₀ as x) : x.2.role ≠ .none := by
  obtain ⟨_, _, _, _, _, _, _, hleft, _⟩ := h
  exact Site.run_role_ne_none hleft

/-- There are two kinds of exchanges, and none is of the role NONE. -/
theorem Started.exchange (h : Started w₀ as x) :
    x.2.role = .standby ∧ x.2.exchange = [.role x.2.device .standby] ∨
    x.2.role = .master ∧ x.2.exchange = [.role x.2.device .master, .probe x.2.device] := by
  unfold Push.exchange
  cases hr : x.2.role with
  | none => exact absurd hr h.role
  | standby => exact .inl ⟨rfl, rfl⟩
  | master => exact .inr ⟨rfl, rfl⟩

theorem Started.append (h : Started w₀ as x) (bs : List Act) : Started w₀ (as ++ bs) x := by
  obtain ⟨before, t, after, s, id, rfl, h⟩ := h
  exact ⟨before, t, after ++ bs, s, id, by simp, h⟩

theorem started_of_run {t : Site.Task} {s : Site} (hw : w = as.foldl World.step w₀)
    (hs : w.cluster.site? x.1 = some s) (hp : (s.run t).2 = some x.2) :
    Started w₀ (as ++ [.task x.1 t]) x := by
  have hslot : s.node.south.slotFor x.2.device = some x.2.slot := Site.run_fits hp
  obtain ⟨⟨id, slot⟩, hserves, rfl⟩ := Option.map_eq_some_iff.mp hslot
  exact ⟨as, t, [], s, id, rfl, hw ▸ hs, hp, hserves⟩

/-- A push that awaits its answer has done so before, or a task has just started it. -/
theorem pending_step (h : x ∈ (w.step a).pending) :
    x ∈ w.pending ∨ ∃ t s, a = .task x.1 t ∧ w.cluster.site? x.1 = some s ∧
      (s.run t).2 = some x.2 := by
  have hsteps := w.steps a
  generalize w.step a = w' at hsteps h
  cases hsteps with
  | idle => exact .inl h
  | @task n s t hs =>
    rcases List.mem_append.mp h with h | h
    · exact .inl h
    · obtain ⟨p, hp, rfl⟩ := Option.map_eq_some_iff.mp (Option.mem_toList.mp h)
      exact .inr ⟨t, s, rfl, hs, hp⟩
  | change => exact .inl h
  | answer => exact .inl (List.mem_of_mem_eraseIdx h)
  | lost => exact .inl (List.mem_of_mem_eraseIdx h)
  | moved => exact .inl h

/-- All pushes that await an answer were started in the course of the run. -/
theorem pending_started (hw₀ : w₀.pending = []) (as : List Act) :
    ∀ x ∈ (as.foldl World.step w₀).pending, Started w₀ as x := by
  induction as using List.reverseRecOn with
  | nil =>
    intro x hx
    simp [hw₀] at hx
  | append_singleton as a ih =>
    intro x hx
    rw [List.foldl_append] at hx
    rcases pending_step hx with hx | ⟨t, s, rfl, hs, hp⟩
    · exact (ih x hx).append [a]
    · exact started_of_run rfl hs hp

theorem accepted_eq_some (h : w.accepted a = some x) :
    ∃ i s, a = .answer i ∧ w.pending[i]? = some x ∧ w.cluster.site? x.1 = some s ∧
      s.reply x.2 = .ok () := by
  cases a with
  | answer i =>
    obtain ⟨y, hi, h⟩ := Option.bind_eq_some_iff.mp h
    obtain ⟨s, hs, h⟩ := Option.bind_eq_some_iff.mp h
    split at h
    · next hr =>
      cases h
      exact ⟨i, s, rfl, hi, hs, hr⟩
    · cases h
  | _ => cases h

theorem accepted_mem (h : w.accepted a = some x) : x ∈ w.pending := by
  obtain ⟨i, _, _, hi, _⟩ := accepted_eq_some h
  exact List.mem_of_getElem? hi

theorem taken_append (w : World) (as : List Act) (a : Act) :
    taken w (as ++ [a]) = taken w as ++ ((as.foldl World.step w).accepted a).toList := by
  rw [taken, gather_append]
  simp [gather]

/-- Whatever was accepted was started before. -/
theorem taken_started (hw₀ : w₀.pending = []) (as : List Act) :
    ∀ x ∈ taken w₀ as, Started w₀ as x := by
  induction as using List.reverseRecOn with
  | nil =>
    intro x hx
    cases hx
  | append_singleton as a ih =>
    intro x hx
    rw [taken_append] at hx
    rcases List.mem_append.mp hx with hx | hx
    · exact (ih x hx).append [a]
    · have hpending := accepted_mem (Option.mem_toList.mp hx)
      exact (pending_started hw₀ as x hpending).append [a]

theorem accepted_answer {i : Nat} {s : Site} (hi : w.pending[i]? = some x)
    (hs : w.cluster.site? x.1 = some s) :
    w.accepted (.answer i) = if (s.reply x.2).toBool then some x else none := by
  cases hr : s.reply x.2 <;> simp [accepted, hi, hs, hr, Except.toBool]

section Adds

variable {β : Type} {f : Cluster → List β} {g : NodeId × Push → List β}

/-- A record of a cluster to which nothing but accepted pushes add anything grows by what these add. -/
theorem step_adds
    (htask : ∀ n s t, w.cluster.site? n = some s →
      f (w.cluster.setSite n (s.run t).1) = f w.cluster)
    (hchange : ∀ n s c, w.cluster.site? n = some s →
      f (w.cluster.setSite n (s.change c)) = f w.cluster)
    (hanswer : ∀ x s, x ∈ w.pending → w.cluster.site? x.1 = some s →
      f (w.cluster.setSite x.1 (s.answer x.2)) =
        f w.cluster ++ if (s.reply x.2).toBool then g x else [])
    (hmoved : ∀ move, f (w.cluster.moveElection move) = f w.cluster) (a : Act) :
    f (w.step a).cluster = f w.cluster ++ (w.accepted a).toList.flatMap g := by
  cases a with
  | task n t =>
    cases hs : w.cluster.site? n with
    | none => simp [step_task_of_none hs, accepted]
    | some s => simp [step_task hs, accepted, htask n s t hs]
  | change n c =>
    cases hs : w.cluster.site? n with
    | none => simp [World.step, Cluster.modify_of_none hs, accepted]
    | some s => simp [World.step, Cluster.modify_of_site hs, accepted, hchange n s c hs]
  | answer i =>
    cases hi : w.pending[i]? with
    | none => simp [World.step, accepted, hi]
    | some x =>
      cases hs : w.cluster.site? x.1 with
      | none => simp [step_answer_of_none hi hs, accepted, hi, hs]
      | some s =>
        rw [step_answer hi hs, accepted_answer hi hs, hanswer x s (List.mem_of_getElem? hi) hs]
        split <;> simp
  | request n d => simp [World.step, accepted, hmoved]
  | relinquish n d => simp [World.step, accepted, hmoved]
  | setRole n d role => simp [World.step, accepted, hmoved]

theorem run_adds
    (hstep : ∀ (before : List Act) a, f ((before.foldl World.step w₀).step a).cluster =
      f (before.foldl World.step w₀).cluster ++
        ((before.foldl World.step w₀).accepted a).toList.flatMap g) (as : List Act) :
    f (as.foldl World.step w₀).cluster = f w₀.cluster ++ (taken w₀ as).flatMap g := by
  induction as using List.reverseRecOn with
  | nil => simp [taken, gather]
  | append_singleton as a ih =>
    rw [taken_append, List.flatMap_append, ← List.append_assoc, ← ih, List.foldl_append]
    exact hstep as a

end Adds

theorem calls_announced (as : List Announcement) : calls (as.map .announced) = [] := by
  simp [calls, List.filterMap_map, Function.comp_def, Notice.call?]

/-- An act adds the exchange of the push that is accepted in it, and nothing else. -/
theorem calls_step (hk : w.Kept) (hp : ∀ x ∈ w.pending, x.2.role ≠ .none) (a : Act) :
    calls (w.step a).cluster.journal =
      calls w.cluster.journal ++ (w.accepted a).toList.flatMap exchanged := by
  refine step_adds (f := fun c => calls c.journal) ?_ ?_ ?_ ?_ a
  · intro n s t hs
    obtain ⟨ns, hj, hcalls⟩ := s.run_calls t
    change calls (s.run t).1.journal = _
    rw [hj, calls_append, hcalls, List.append_nil, Cluster.site?_journal hs]
  · intro n s c hs
    change calls (s.change c).journal = _
    rw [(s.change_keeps c).2.1, Cluster.site?_journal hs]
  · intro x s hx hs
    obtain ⟨ns, hj, hcalls⟩ := s.answer_calls x.2
    change calls (s.answer x.2).journal = _
    rw [hj, calls_append, hcalls, Cluster.site?_journal hs, hk.id x.1 s hs,
      Site.callsOf_eq (hp x hx)]
    split <;> rfl
  · intro move
    simp [Cluster.moveElection, calls_append, calls_announced]

theorem heard_of_site {c : Cluster} {s : Site} (hs : c.site? n = some s) (slot : Nat) :
    c.heard n slot = s.node.south.heard slot := by
  obtain ⟨node, hn, rfl⟩ := Option.map_eq_some_iff.mp hs
  simp [Cluster.heard, hn]

theorem heard_setSite {c : Cluster} {s s' : Site} {slot : Nat} {cs : List Call}
    (hs : c.site? m = some s) (h : s'.node.south.heard slot = s.node.south.heard slot ++ cs) :
    (c.setSite m s').heard n slot = c.heard n slot ++ if m = n then cs else [] := by
  by_cases hm : m = n
  · subst hm
    rw [heard_of_site (Cluster.site?_setSite_self c m s'), heard_of_site hs, h, if_pos rfl]
  · simp [Cluster.heard, Cluster.setSite, Table.get?_insert_of_ne _ _ hm, if_neg hm]

/-- A provider gets the exchanges that are for it, and nothing else. -/
theorem heard_step (hw : w.Packed) (hp : ∀ x ∈ w.pending, x.2.role ≠ .none) (a : Act) (n : NodeId)
    (slot : Nat) : (w.step a).cluster.heard n slot = w.cluster.heard n slot ++
      (w.accepted a).toList.flatMap fun x => if isFor n slot x then x.2.exchange else [] := by
  refine step_adds (f := fun c => c.heard n slot) ?_ ?_ ?_ ?_ a
  · intro m s t hs
    have hkept : (s.run t).1.node.south.heard slot = s.node.south.heard slot ++ [] := by
      rw [s.run_south t, List.append_nil]
    simp [heard_setSite hs hkept]
  · intro m s c hs
    have hkept : (s.change c).node.south.heard slot = s.node.south.heard slot ++ [] := by
      rw [Site.heard_change (hw m s hs) c, List.append_nil]
    simp [heard_setSite hs hkept]
  · intro x s hx hs
    rw [heard_setSite hs (s.heard_answer x.2 slot), Site.callsOf_eq (hp x hx), isFor]
    by_cases hm : x.1 = n <;> by_cases hslot : x.2.slot = slot <;> simp [hm, hslot]
  · exact fun move => rfl

theorem pending_role (hw₀ : w₀.pending = []) (as : List Act) :
    ∀ x ∈ (as.foldl World.step w₀).pending, x.2.role ≠ .none :=
  fun x hx => (pending_started hw₀ as x hx).role

theorem calls_run (hk : w₀.Kept) (hw₀ : w₀.pending = []) (as : List Act) :
    calls (as.foldl World.step w₀).cluster.journal =
      calls w₀.cluster.journal ++ (taken w₀ as).flatMap exchanged :=
  run_adds (f := fun c => calls c.journal)
    (fun before a => calls_step (hk.run before) (pending_role hw₀ before) a) as

theorem heard_run (hp : w₀.Packed) (hw₀ : w₀.pending = []) (as : List Act) (n : NodeId)
    (slot : Nat) : (as.foldl World.step w₀).cluster.heard n slot =
      w₀.cluster.heard n slot ++
        (taken w₀ as).flatMap fun x => if isFor n slot x then x.2.exchange else [] :=
  run_adds (f := fun c => c.heard n slot)
    (fun before a => heard_step (hp.run before) (pending_role hw₀ before) a n slot) as

/-- What is done towards a device in a run is one exchange after the other, those of the pushes that it
accepted, both over all providers and for each one. Every push, accepted or not, was left by a task for
the provider that was registered then. It is one of STANDBY, and its exchange is this push alone, or one of
MASTER, and its exchange is this push and then one probe. Whatever is done next adds nothing, or all of
the exchange of a push that is accepted. -/
theorem southbound_grammar {c : Cluster} (hc : c.Fresh) (hp : World.Packed ⟨c, []⟩)
    {as : List Act} (hw : w = as.foldl World.step ⟨c, []⟩) :
    (∀ d, (calls w.cluster.journal).filter (·.2.2.device = d) =
      ((taken ⟨c, []⟩ as).filter (·.2.device = d)).flatMap exchanged) ∧
    (∀ n slot d, (w.cluster.heard n slot).filter (·.device = d) =
      (c.heard n slot).filter (·.device = d) ++
        ((taken ⟨c, []⟩ as).filter fun x => isFor n slot x && decide (x.2.device = d)).flatMap
          (·.2.exchange)) ∧
    (∀ x, x ∈ taken ⟨c, []⟩ as ∨ x ∈ w.pending → Started ⟨c, []⟩ as x) ∧
    (∀ x, Started ⟨c, []⟩ as x →
      x.2.role = .standby ∧ x.2.exchange = [.role x.2.device .standby] ∨
      x.2.role = .master ∧ x.2.exchange = [.role x.2.device .master, .probe x.2.device]) ∧
    ∀ a, w.accepted a = none ∧ calls (w.step a).cluster.journal = calls w.cluster.journal ∨
      ∃ x ∈ w.pending, w.accepted a = some x ∧
        calls (w.step a).cluster.journal = calls w.cluster.journal ++ exchanged x := by
  subst hw
  refine ⟨fun d => ?_, fun n slot d => ?_, ?_, fun x => Started.exchange, fun a => ?_⟩
  · have hjournal := calls_run (kept_of_fresh hc) rfl as
    rw [hc.journal, show calls [] = [] from rfl, List.nil_append] at hjournal
    rw [hjournal]
    apply filter_flatMap_of_pieces
    intro x
    simp only [filter_exchanged, decide_eq_true_eq]
  · rw [heard_run hp rfl as n slot, List.filter_append]
    congr 1
    apply filter_flatMap_of_pieces
    intro x
    cases isFor n slot x <;> simp [Push.filter_exchange]
  · rintro x (hx | hx)
    · exact taken_started rfl as x hx
    · exact pending_started rfl as x hx
  · have hstep := calls_step ((kept_of_fresh hc).run as) (pending_role rfl as) a
    cases ha : (as.foldl World.step ⟨c, []⟩).accepted a with
    | none => exact .inl ⟨rfl, by simpa [ha] using hstep⟩
    | some x => exact .inr ⟨x, accepted_mem ha, rfl, by simpa [ha] using hstep⟩

end World

namespace Sample

/-- The push of a check is under way when another provider replaces the one that it went to. The role
is pushed twice more, to the new provider, and the device refuses the last push. -/
def reroutedActs : List World.Act :=
  joins east ++ [.relinquish east lamp, .task east (.check lamp),
    .change east (.unregister ⟨"of", "sim"⟩), .change east (.register ⟨"of", "other"⟩), .answer 0,
    .change east (.setLine 1 lamp { reachable := true }), .task east (.reassert lamp .none),
    .answer 0, .change east (.setLine 1 lamp { reachable := true, rejecting := true }),
    .task east (.reassert lamp .none), .answer 0]

end Sample

/-- The first provider gets both exchanges of the pushes that it was given, the second one a single
exchange, and the refused push makes for none. -/
theorem World.rerouted_exchanges :
    (calls (Sample.reroutedActs.foldl World.step ⟨Sample.pair, []⟩).cluster.journal).filter
        (·.2.2.device = Sample.lamp) =
      [(Sample.east, 0, .role Sample.lamp .master), (Sample.east, 0, .probe Sample.lamp),
        (Sample.east, 0, .role Sample.lamp .master), (Sample.east, 0, .probe Sample.lamp),
        (Sample.east, 1, .role Sample.lamp .master), (Sample.east, 1, .probe Sample.lamp)] := by
  rw [(World.southbound_grammar Sample.pair_fresh Sample.pair_packed rfl).1 Sample.lamp]
  decide +kernel

end Mastership
