import Mastership.Proofs.Annals
import Mastership.Proofs.Writes

namespace Mastership

theorem Replica.clock_markOffline (r : Replica) (c : Clock) (d : DeviceId) :
    (r.markOffline c d).2.1 = if (r.device? d).isSome then (c.next d).1 else c := by
  unfold markOffline device?
  split
  · next hd => simp [hd]
  · next rec hd =>
    simp only [hd, Option.map_some, Option.isSome_some, if_true]
    split
    · next hn => exact (c.next_of_none d (by rw [hn])).symm
    · next hn =>
      rw [hn]
      split <;> rfl

namespace Site

variable {d : DeviceId} {s s' : Site} {ms : List Seat.Move} {ps : List Push}
  {xs : List Timestamp}

theorem Does.grows (h : Does d ms ps s s') : ∃ ns, s'.journal = s.journal ++ ns := by
  obtain ⟨ns, hj, _⟩ := h.journal
  exact ⟨ns, hj⟩

/-- The controller is told the election's own terms. Its clock is its own, and whatever term it
holds was one of the device's, as announced. -/
structure Punctual (s : Site) : Prop where
  terms : s.node.faults.terms = ∅
  own : s.node.clock.node = s.node.id
  recorded : s.election.Recorded (announced s.journal)
  clock : ∀ d t, s.node.clock.term? d = some t → t.On d (announced s.journal)

theorem Does.recorded (h : Does d ms ps s s') (hr : s.election.Recorded (announced s.journal)) :
    s'.election.Recorded (announced s'.journal) := by
  obtain ⟨ns, hj, ha, _⟩ := h.journal
  rw [hj, announced_append, ha, h.election]
  exact hr.moves d ms

/-- A clock stays punctual while it holds the same terms and more is announced. -/
theorem Punctual.grow (h : s.Punctual) (hid : s'.node.id = s.node.id)
    (ht : s'.node.faults.terms = ∅) (hown : s'.node.clock.node = s.node.clock.node)
    (hc : ∀ d, s'.node.clock.term? d = s.node.clock.term? d)
    (hr : s'.election.Recorded (announced s'.journal))
    (hj : ∃ ns, s'.journal = s.journal ++ ns) : s'.Punctual := by
  obtain ⟨ns, hj⟩ := hj
  refine ⟨ht, by rw [hown, hid, h.own], hr, ?_⟩
  intro d t hd
  rw [hj, announced_append]
  rw [hc] at hd
  exact (h.clock d t hd).append _

theorem Does.punctual (h : Does d ms ps s s') (hp : s.Punctual)
    (hown : s'.node.clock.node = s.node.clock.node)
    (hc : ∀ d, s'.node.clock.term? d = s.node.clock.term? d) : s'.Punctual :=
  hp.grow h.id (h.terms.trans hp.terms) hown hc (h.recorded hp.recorded) h.grows

/-- A clock may take any term that the device ever had, however late. -/
theorem Punctual.setTerm (h : s.Punctual) {t : Term} (ht : t.On d (announced s.journal)) :
    Punctual { s with node := { s.node with clock := (s.node.clock.setTerm d t).1 } } := by
  refine ⟨h.terms, (s.node.clock.node_setTerm d t).trans h.own, h.recorded, ?_⟩
  intro d' u hu
  rcases s.node.clock.term?_setTerm_cases d hu with hu | ⟨rfl, rfl⟩
  · exact h.clock d' u hu
  · exact ht

theorem Punctual.term?_eq (h : s.Punctual) (d : DeviceId) : s.term? d = s.election.term? d := by
  simp [term?, h.terms]

theorem Punctual.observeTerm (h : s.Punctual) (d : DeviceId) : (s.observeTerm d).1.Punctual := by
  unfold Site.observeTerm
  split
  · exact h
  · next t ht => exact h.setTerm (h.recorded.on ((h.term?_eq d).symm.trans ht))

theorem markOffline_clock (s : Site) (d : DeviceId) :
    (s.markOffline d).1.node.clock = (s.ticking d).1 := by
  have hr := s.node.replica.clock_markOffline s.node.clock d
  unfold markOffline ticking
  dsimp only
  split
  · next hf => simp [hf]
  · next hf => simp [hf]
  · next hf => simp [hf]
  · next hf =>
    simp only [hf, true_and, stored]
    split <;> rw [hr] <;> split <;> rfl

theorem Punctual.markOffline (h : s.Punctual) (d : DeviceId) : (s.markOffline d).1.Punctual := by
  have hc := markOffline_clock s d
  unfold ticking at hc
  apply (markOffline_does s d).punctual h
  · rw [hc]
    split
    · exact Clock.node_next _ d
    · rfl
  · intro d'
    rw [hc]
    split
    · exact Clock.term?_next _ d d'
    · rfl

/-- A stamp is of an epoch that its controller was given. -/
theorem Punctual.stamp_on (h : s.Punctual) {x : Timestamp} (hx : (s.node.clock.next d).2 = some x) :
    Term.On ⟨s.node.id, x.epoch⟩ d (announced s.journal) :=
  h.clock d _ (h.own ▸ Clock.term?_of_next _ d hx)

/-- Clocks stay punctual whatever is done, and each stamp taken is of an epoch that the controller
was given. -/
theorem Writes.punctual (h : Writes d s xs s') (hp : s.Punctual) : s'.Punctual ∧
    ∀ x ∈ xs, Term.On ⟨s.node.id, x.epoch⟩ d (announced s'.journal) := by
  induction h with
  | rest hd hc => exact ⟨hd.punctual hp (by rw [hc]) (by simp [hc]), by simp⟩
  | edit hd hc => exact ⟨hd.punctual hp (by rw [hc]) (by simp [hc]), by simp⟩
  | hear s => exact ⟨hp.observeTerm d, by simp⟩
  | attempt s =>
    refine ⟨hp.markOffline d, ?_⟩
    intro x hx
    obtain ⟨ns, hj⟩ := (markOffline_does s d).grows
    rw [hj, announced_append]
    apply Term.On.append
    rw [Option.mem_toList, stamp?, ticking] at hx
    split at hx
    · exact hp.stamp_on hx
    · cases hx
  | trans h₁ h₂ ih ih' =>
    obtain ⟨_, _, hd⟩ := h₁.does
    obtain ⟨_, _, hd'⟩ := h₂.does
    obtain ⟨ns, hj⟩ := hd'.grows
    obtain ⟨hp', hxs⟩ := ih hp
    obtain ⟨hp'', hys⟩ := ih' hp'
    refine ⟨hp'', ?_⟩
    intro x hx
    rcases List.mem_append.mp hx with hx | hx
    · rw [hj, announced_append]
      exact (hxs x hx).append _
    · exact hd.id ▸ hys x hx

theorem Punctual.change (h : s.Punctual) {c : Change} (hc : c.Honest) : (s.change c).Punctual := by
  obtain ⟨he, hj, hid, _⟩ := change_keeps s c
  have hclock := change_clock s c
  refine h.grow hid (change_terms s hc h.terms) (by rw [hclock]) (by simp [hclock]) ?_ ⟨[], ?_⟩
  · rw [he, hj]
    exact h.recorded
  · rw [hj, List.append_nil]

end Site

namespace World

/-- The stamps that an act takes, each with the member that takes it and the device. -/
def stamps (w : World) : Act → List (NodeId × DeviceId × Timestamp)
  | .task n t => ((w.cluster.site? n).elim [] (·.stamps t)).map (n, t.device, ·)
  | _ => []

/-- All stamps that are taken while acts follow each other. -/
def issued (w : World) : List Act → List (NodeId × DeviceId × Timestamp)
  | [] => []
  | a :: as => w.stamps a ++ (w.step a).issued as

/-- The election and all clocks are what the announcements account for. -/
structure Chronicled (w : World) : Prop where
  recorded : w.cluster.election.Recorded (announced w.cluster.journal)
  punctual : ∀ n s, w.cluster.site? n = some s → s.Punctual

variable {w : World} {n m : NodeId} {d : DeviceId} {x y : Timestamp} {a : Act} {as : List Act}

theorem chronicled_of_fresh {c : Cluster} (h : c.Fresh) : Chronicled ⟨c, []⟩ := by
  have hr : c.election.Recorded (announced c.journal) := by
    rw [h.election, h.journal]
    exact Election.empty_recorded
  refine ⟨hr, ?_⟩
  intro n s hs
  obtain ⟨node, hn, rfl⟩ := Option.map_eq_some_iff.mp hs
  obtain ⟨hid, hc, _, _, hf⟩ := h.nodes n node hn
  refine ⟨by simp [hf], by simp [hc, hid], hr, ?_⟩
  intro d t ht
  simp [hc, Clock.term?] at ht

theorem Reachable.grows (h : w.Reachable) (ha : a.Honest) :
    ∃ ns, (w.step a).cluster.journal = w.cluster.journal ++ ns := by
  obtain ⟨d, ms, ps, hd, _⟩ := (h.lawful.step ha).does
  obtain ⟨ns, hj, _⟩ := hd.journal
  exact ⟨ns, hj⟩

theorem Chronicled.step (h : w.Chronicled) (hw : w.Reachable) (ha : a.Honest) :
    (w.step a).Chronicled := by
  have hr : (w.step a).cluster.election.Recorded (announced (w.step a).cluster.journal) := by
    obtain ⟨d, ms, ps, hd, _⟩ := (hw.lawful.step ha).does
    obtain ⟨ns, hj, hann, _⟩ := hd.journal
    rw [hj, announced_append, hann, hd.election]
    exact h.recorded.moves d ms
  have hj := hw.grows ha
  refine ⟨hr, ?_⟩
  -- The member that acts is punctual by what it does, every other one by what it is told.
  have hset : ∀ {n s s'}, w.cluster.site? n = some s → s'.Punctual →
      (∃ ns, s'.journal = w.cluster.journal ++ ns) →
      ∀ m y, (w.cluster.setSite n s').site? m = some y → y.Punctual := by
    intro n s s' hs hs' hj m y hy
    rcases Cluster.site?_setSite hy with ⟨rfl, rfl⟩ | ⟨_, z, hz, rfl⟩
    · exact hs'
    · have hp := h.punctual m z hz
      exact hp.grow rfl hp.terms rfl (fun _ => rfl) hs'.recorded (Cluster.site?_journal hz ▸ hj)
  have hsteps := w.steps a
  generalize w.step a = w' at hsteps hr hj ⊢
  cases hsteps with
  | idle => exact h.punctual
  | task t hs => exact hset hs ((Site.run_writes _ t).punctual (h.punctual _ _ hs)).1 hj
  | change c hs => exact hset hs ((h.punctual _ _ hs).change ha) hj
  | answer hi hs => exact hset hs ((Site.answer_writes _ _).punctual (h.punctual _ _ hs)).1 hj
  | lost => exact h.punctual
  | moved a move =>
    intro n s hs
    obtain ⟨s₀, hs₀, hn⟩ := site?_moveElection hs
    have hp := h.punctual n s₀ hs₀
    refine hp.grow (by rw [hn]) (hn ▸ hp.terms) (by rw [hn]) (by simp [hn]) ?_ ?_
    · rw [Cluster.site?_election hs, Cluster.site?_journal hs]
      exact hr
    · rw [Cluster.site?_journal hs, Cluster.site?_journal hs₀]
      exact hj

theorem Reachable.chronicled (h : w.Reachable) : w.Chronicled := by
  induction h with
  | fresh hc => exact chronicled_of_fresh hc
  | step hw ha ih => exact ih.step hw ha

/-- What was told of a term is told in all that comes of the world. -/
theorem Reachable.on_run (h : w.Reachable) (ha : ∀ a ∈ as, a.Honest) {t : Term}
    (ht : t.On d (announced w.cluster.journal)) :
    t.On d (announced (as.foldl World.step w).cluster.journal) := by
  induction as generalizing w with
  | nil => exact ht
  | cons a as ih =>
    have hone := ha a List.mem_cons_self
    obtain ⟨ns, hj⟩ := h.grows hone
    apply ih (h.step hone) fun b hb => ha b (List.mem_cons_of_mem a hb)
    rw [hj, announced_append]
    exact ht.append _

/-- Who stamps a device in an epoch was given that epoch. -/
theorem Reachable.stamps_on (h : w.Reachable) (ha : a.Honest) (hx : (n, d, x) ∈ w.stamps a) :
    Term.On ⟨n, x.epoch⟩ d (announced (w.step a).cluster.journal) := by
  cases a with
  | task n t =>
    obtain ⟨x, hy, he⟩ := List.mem_map.mp hx
    cases he
    cases hs : w.cluster.site? n with
    | none => simp [hs] at hy
    | some s =>
      rw [hs, Option.elim_some] at hy
      have hon := ((s.run_writes t).punctual (h.chronicled.punctual n s hs)).2 x hy
      rw [h.lawful.id n s hs] at hon
      rw [step_task hs]
      exact hon
  | _ => cases hx

/-- No run stamps a device in an epoch that is not its member's. -/
theorem Reachable.issued_on (h : w.Reachable) (ha : ∀ a ∈ as, a.Honest)
    (hx : (n, d, x) ∈ w.issued as) :
    Term.On ⟨n, x.epoch⟩ d (announced (as.foldl World.step w).cluster.journal) := by
  induction as generalizing w with
  | nil => simp [issued] at hx
  | cons a as ih =>
    have hone := ha a List.mem_cons_self
    have hrest := fun b hb => ha b (List.mem_cons_of_mem a hb)
    rw [issued, List.mem_append] at hx
    rcases hx with hx | hx
    · exact (h.step hone).on_run hrest (h.stamps_on hone hx)
    · exact ih (h.step hone) hrest hx

/-- However late each member hears of terms, and whatever else happens: no clock holds a term of an
epoch that is still to come, any two clocks, at any two moments, give one owner to one epoch of a
device, and so no two members stamp a device in one epoch, neither from two clocks as they are at
any two moments nor by the stamps that they take in the run. -/
theorem epochs_stamped_by_one_member {c : Cluster} (hc : c.Fresh) {bs cs : List Act}
    (hb : ∀ a ∈ bs, a.Honest) (hcs : ∀ a ∈ cs, a.Honest) (d : DeviceId) :
    let v := bs.foldl World.step ⟨c, []⟩
    let w := cs.foldl World.step v
    (∀ n s t, w.cluster.site? n = some s → s.node.clock.term? d = some t →
      t.epoch ≤ (w.cluster.election.seat d).epoch) ∧
    (∀ n m r s t u, v.cluster.site? n = some r → w.cluster.site? m = some s →
      r.node.clock.term? d = some t → s.node.clock.term? d = some u → t.epoch = u.epoch →
      t.owner = u.owner) ∧
    (∀ n m r s x y, v.cluster.site? n = some r → w.cluster.site? m = some s →
      (r.node.clock.next d).2 = some x → (s.node.clock.next d).2 = some y → x.epoch = y.epoch →
      n = m) ∧
    (∀ n m x y, (n, d, x) ∈ issued ⟨c, []⟩ (bs ++ cs) → (m, d, y) ∈ issued ⟨c, []⟩ (bs ++ cs) →
      x.epoch = y.epoch → n = m) := by
  intro v w
  have hv : v.Reachable := (Reachable.fresh hc).run hb
  have hw : w.Reachable := hv.run hcs
  refine ⟨?_, ?_, ?_, ?_⟩
  · intro n s t hs ht
    have hp := hw.chronicled.punctual n s hs
    have hle := hp.recorded.epoch_le (hp.clock d t ht)
    rwa [Cluster.site?_election hs] at hle
  · intro n m r s t u hr hs ht hu he
    have hrp := (hv.chronicled.punctual n r hr).clock d t ht
    have hsp := (hw.chronicled.punctual m s hs).clock d u hu
    rw [Cluster.site?_journal hr] at hrp
    rw [Cluster.site?_journal hs] at hsp
    exact (hv.on_run hcs hrp).owner_eq hsp he
  · intro n m r s x y hr hs hx hy he
    have hrp := (hv.chronicled.punctual n r hr).stamp_on hx
    have hsp := (hw.chronicled.punctual m s hs).stamp_on hy
    rw [Cluster.site?_journal hr, hv.lawful.id n r hr] at hrp
    rw [Cluster.site?_journal hs, hw.lawful.id m s hs] at hsp
    exact (hv.on_run hcs hrp).owner_eq hsp he
  · intro n m x y hx hy he
    have hall : ∀ a ∈ bs ++ cs, a.Honest := by
      intro a ha
      rcases List.mem_append.mp ha with ha | ha
      · exact hb a ha
      · exact hcs a ha
    have hfresh := Reachable.fresh hc
    exact (hfresh.issued_on hall hx).owner_eq (hfresh.issued_on hall hy) he

end World

namespace Sample

/-- The device connects to a member and leaves it again. -/
def visits (n : NodeId) : List World.Act := joins n ++ [.task n (.disconnect 0 lamp)]

theorem visits_honest (n : NodeId) : ∀ a ∈ visits n, a.Honest := by
  simp [visits, joins, opens, World.Act.Honest, Site.Change.Honest]

def firstStamp : Timestamp := ⟨1, 1⟩

def secondStamp : Timestamp := ⟨2, 1⟩

theorem visits_stamped : World.issued ⟨pair, []⟩ (visits east ++ visits west) =
    [(east, lamp, firstStamp), (west, lamp, secondStamp)] := by
  decide +kernel

end Sample

/-- Both members have stamped the device that visited them, so they did it in different epochs. -/
theorem World.visits_in_two_epochs : Sample.firstStamp.epoch ≠ Sample.secondStamp.epoch := by
  have h := (epochs_stamped_by_one_member Sample.pair_fresh (Sample.visits_honest Sample.east)
    (Sample.visits_honest Sample.west) Sample.lamp).2.2.2 Sample.east Sample.west Sample.firstStamp
    Sample.secondStamp (by simp [Sample.visits_stamped]) (by simp [Sample.visits_stamped])
  intro he
  exact absurd (h he) (by decide)

end Mastership
