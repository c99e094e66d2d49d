import Mastership.Proofs.Mirror

namespace Mastership

/-- The events that a member posted, in this order. -/
def postedBy (n : NodeId) (ns : List Notice) : List DeviceEvent :=
  ((posts ns).filter (·.1 = n)).map Prod.snd

/-- What a listener has that has heard all that a member posted. -/
def Cluster.mirror (c : Cluster) (n : NodeId) : Mirror :=
  ({} : Mirror).hearAll (postedBy n c.journal)

variable {n m : NodeId} {ns : List Notice}

theorem postedBy_append (n : NodeId) (ns ns' : List Notice) :
    postedBy n (ns ++ ns') = postedBy n ns ++ postedBy n ns' := by
  simp [postedBy, posts, List.filterMap_append]

theorem postedBy_self {es : List DeviceEvent} (h : posts ns = es.map (n, ·)) :
    postedBy n ns = es := by
  simp [postedBy, h, List.filter_map, Function.comp_def]

theorem postedBy_of_ne (h : ∀ x ∈ posts ns, x.1 = m) (hne : m ≠ n) : postedBy n ns = [] := by
  have hnone : (posts ns).filter (·.1 = n) = [] := by
    rw [List.filter_eq_nil_iff]
    intro x hx
    simpa [h x hx] using hne
  rw [postedBy, hnone, List.map_nil]

theorem postedBy_announced (as : List Announcement) : postedBy n (as.map .announced) = [] := by
  simp [postedBy, posts, List.filterMap_map, Function.comp_def, Notice.event?]

theorem Cluster.mirror_append {c c' : Cluster} (h : c'.journal = c.journal ++ ns) :
    c'.mirror n = (c.mirror n).hearAll (postedBy n ns) := by
  rw [mirror, h, postedBy_append, Mirror.hearAll_append]
  rfl

/-- Nothing is new to who listens to `n` if `n` has posted nothing. -/
theorem Cluster.mirror_silent {c c' : Cluster} (h : c'.journal = c.journal ++ ns)
    (hsilent : postedBy n ns = []) : c'.mirror n = c.mirror n := by
  rw [mirror_append h, hsilent, Mirror.hearAll_nil]

namespace Site

variable {d : DeviceId} {ms : List Seat.Move} {ps : List Push} {s s' : Site}

/-- The controller keeps its name, and posts under no other. -/
def Speaks (s s' : Site) : Prop :=
  s'.node.id = s.node.id ∧ ∃ ns, s'.journal = s.journal ++ ns ∧ ∀ x ∈ posts ns, x.1 = s.node.id

/-- Whoever tracks all devices at `s` and hears what is posted on the way tracks all at `s'`. -/
def Follows (s s' : Site) : Prop :=
  ∃ ns, s'.journal = s.journal ++ ns ∧ ∀ m : Mirror, (∀ d, m.Tracks d s) →
    ∀ d, (m.hearAll (postedBy s.node.id ns)).Tracks d s'

theorem Recounts.speaks (h : Recounts d s s') : Speaks s s' := by
  obtain ⟨hid, _, es, ⟨ns, hj, _, hposts⟩, _⟩ := h
  refine ⟨hid, ns, hj, fun x hx => ?_⟩
  rw [hposts] at hx
  obtain ⟨_, _, rfl⟩ := List.mem_map.mp hx
  rfl

/-- Of the other devices there is nothing to tell. -/
theorem Recounts.follows (h : Recounts d s s') (hd : Does d ms ps s s') : Follows s s' := by
  obtain ⟨hid, _, es, ⟨ns, hj, _, hposts⟩, ht⟩ := h
  refine ⟨ns, hj, fun m hm d' => ?_⟩
  obtain ⟨habout, htracks⟩ := ht m (hm d)
  rw [postedBy_self hposts]
  by_cases hd' : d' = d
  · exact hd' ▸ htracks
  · have hne : ∀ e ∈ es, e.device.id ≠ d' := fun e he => habout e he ▸ Ne.symm hd'
    obtain ⟨hdevice, hrole⟩ := Mirror.hearAll_of_ne (m := m) hne
    have hkept := (hm d').of_eq (hd.device?_ne hd') (hd.applied_ne hd')
    exact ⟨hdevice.trans hkept.device, hrole.trans hkept.role, hkept.filed, hkept.unstored⟩

theorem run_follows (s : Site) (t : Task) : Speaks s (s.run t).1 ∧ Follows s (s.run t).1 := by
  obtain ⟨ms, hd⟩ := s.run_decides t
  exact ⟨(run_recounts s t).speaks, (run_recounts s t).follows hd.does⟩

/-- The answer to a push of another member may go untold, but is not told in another's name. -/
theorem answer_speaks (s : Site) (p : Push) : Speaks s (s.answer p) := by
  obtain ⟨s₁, hr, hreplica, he⟩ := answer_concludes s p
  by_cases hs : s.reply p = .ok () → p.sequel = .settle → s.stored p.device = true
  · exact (answer_retains hs).toRecounts.speaks
  · simp only [not_forall, Bool.not_eq_true] at hs
    obtain ⟨hok, hq, hunstored⟩ := hs
    rw [← stored_of_replica hreplica] at hunstored
    obtain ⟨hid, ns, hj, hposts⟩ := hr.toRecounts.speaks
    rw [he, hok]
    exact ⟨(conclude_does s₁ p _).id.trans hid, ns,
      (conclude_unstored hq hunstored).trans hj, hposts⟩

theorem change_follows (s : Site) (c : Change) :
    Speaks s (s.change c) ∧ Follows s (s.change c) := by
  obtain ⟨_, hj, hid, hroles⟩ := s.change_keeps c
  refine ⟨⟨hid, [], by rw [hj, List.append_nil], by simp [posts]⟩, [],
    by rw [hj, List.append_nil], fun m hm d => ?_⟩
  exact (hm d).of_eq (by rw [change_replica]) (applied_of_roles hroles d)

/-- What is asked of a task, given the pushes of the member that are under way: that it decides about
a stored device, unless it sees to that itself, and that it removes no device of a push. -/
def Heeds (s : Site) (pushes : List Push) : Task → Prop
  | .reassert d _ | .check d => s.stored d = true
  | .remove d => ∀ p ∈ pushes, p.device ≠ d
  | _ => True

/-- If a push is left that does not store the device, then the device is stored. -/
def Grounded (d : DeviceId) (r : Site × Option Push) : Prop :=
  ∀ p, r.2 = some p → p.sequel = .settle → r.1.stored d = true

theorem grounded_none (d : DeviceId) (s : Site) : Grounded d (s, none) := nofun

theorem startPush_grounded {role : Role} (hr : role ≠ .none) (epoch : Option Nat)
    {sequel : Push.Sequel} (hs : sequel = .settle → s.stored d = true) :
    Grounded d (s.startPush d role epoch sequel) := by
  rcases s.startPush_cases d hr epoch sequel with ⟨slot, hp⟩ | ⟨e, hp⟩ <;> rw [hp]
  · rintro p ⟨⟩ hq
    exact hs hq
  · exact grounded_none d _

theorem reassert_grounded (hs : s.stored d = true) (requested : Role) :
    Grounded d (s.reassert d requested) := by
  have hi := (stored_of_replica (informed_replica s d requested) d).trans hs
  rw [reassert_eq]
  dsimp only
  split
  · refine startPush_grounded (targetRole_ne_none _ _) _ fun _ => ?_
    split
    · exact (markOnline_stored _ d).trans hi
    · exact hi
  · exact grounded_none d _

theorem connected_grounded (s : Site) (slot : Nat) (d : DeviceId)
    (description : DeviceDescription) : Grounded d (s.connected slot d description) := by
  rw [connected_eq]
  dsimp only
  split
  · exact startPush_grounded (targetRole_ne_none _ _) _ nofun
  · exact grounded_none d _

theorem handle_grounded (s : Site) (a : Announcement) : Grounded a.device (s.handle a) := by
  unfold handle
  split
  · exact grounded_none _ s
  · unfold followMaster
    generalize s.suggestedRole a = r
    obtain ⟨s₁, suggested⟩ := r
    dsimp only
    split
    · exact grounded_none _ _
    · exact grounded_none _ _
    · split
      · next hs => exact reassert_grounded hs suggested
      · exact grounded_none _ _

theorem check_grounded (hs : s.stored d = true) : Grounded d (s.check d) := by
  unfold check
  split
  · split
    · exact reassert_grounded hs .none
    · exact grounded_none d s
  · exact grounded_none d s

theorem Heeds.grounded {pushes : List Push} {t : Task} (h : s.Heeds pushes t) :
    Grounded t.device (s.run t) := by
  cases t with
  | connect slot d description =>
    simp only [run, connect]
    split
    · exact grounded_none d s
    · exact connected_grounded s slot d description
  | reassert d requested => exact reassert_grounded h requested
  | check d => exact check_grounded h
  | handle a => exact handle_grounded s a
  | _ => exact grounded_none _ _

/-- The device of a push that is under way stays stored. -/
theorem Heeds.kept {pushes : List Push} {t : Task} (h : s.Heeds pushes t) {p : Push}
    (hp : p ∈ pushes) (hs : s.stored p.device = true) : (s.run t).1.stored p.device = true := by
  obtain ⟨ms, hd⟩ := s.run_decides t
  by_cases hdevice : p.device = t.device
  · have ht : ∀ d, t ≠ .remove d := by
      rintro d rfl
      exact h p hp hdevice
    rw [hdevice] at hs ⊢
    exact (run_retains s ht).kept hs
  · rw [hd.does.stored_ne hdevice]
    exact hs

/-- The device of one push stays stored when another is answered. -/
theorem answer_kept {p : Push} (hp : p.sequel = .settle → s.stored p.device = true) {d : DeviceId}
    (hs : s.stored d = true) : (s.answer p).stored d = true := by
  by_cases hd : d = p.device
  · subst hd
    exact (answer_retains fun _ => hp).kept hs
  · rw [(answer_does s p).stored_ne hd]
    exact hs

end Site

namespace World

variable {n m : NodeId} {w : World} {s s' : Site} {pending : List (NodeId × Push)}

/-- The pushes of a member that are under way. -/
def pushes (w : World) (n : NodeId) : List Push := (w.pending.filter (·.1 = n)).map Prod.snd

/-- What is asked of an act, if it is a task of `n`. -/
def Permits (w : World) (n : NodeId) : Act → Prop
  | .task m t => m = n → ∀ s, w.cluster.site? n = some s → s.Heeds (w.pushes n) t
  | _ => True

/-- What can come of a fresh cluster in which anything may happen, but `n` decides about stored
devices only and removes none that it has a push under way for. The latter is so, for one, where
each task of `n` is begun only once all before it have come to their end. -/
inductive Attended (n : NodeId) : World → Prop
  | fresh {c : Cluster} : c.Fresh → Attended n ⟨c, []⟩
  | step {w : World} {a : Act} : Attended n w → w.Permits n a → Attended n (w.step a)

/-- Acts of which nothing is asked may come at any time. -/
theorem Attended.run (h : w.Attended n) {as : List Act} (ha : ∀ a ∈ as, ∀ w : World, w.Permits n a) :
    (as.foldl World.step w).Attended n := by
  induction as generalizing w with
  | nil => exact h
  | cons a as ih =>
    exact ih (h.step (ha a List.mem_cons_self w)) fun b hb => ha b (List.mem_cons_of_mem a hb)

theorem mem_pushes {p : Push} : p ∈ w.pushes n ↔ (n, p) ∈ w.pending := by
  simp only [pushes, List.mem_map, List.mem_filter, decide_eq_true_eq]
  constructor
  · rintro ⟨⟨k, q⟩, ⟨hx, rfl⟩, rfl⟩
    exact hx
  · exact fun h => ⟨_, ⟨h, rfl⟩, rfl⟩

/-- A task that is begun while none of the member is unfinished is permitted, if it is not a decision
asked for about a device that is not stored. -/
theorem permits_of_idle {t : Site.Task} (hw : w.pushes n = [])
    (ht : ∀ s d, w.cluster.site? n = some s → (t = .check d ∨ ∃ role, t = .reassert d role) →
      s.stored d = true) : w.Permits n (.task n t) := by
  intro _ s hs
  cases t with
  | reassert d role => exact ht s d hs (.inr ⟨role, rfl⟩)
  | check d => exact ht s d hs (.inl rfl)
  | remove d => simp [Site.Heeds, hw]
  | _ => trivial

/-- Every member knows its name, a listener to `n` has all that `n` has of devices and roles, and the
devices are stored whose roles `n` is going to record. -/
structure Mirrored (n : NodeId) (w : World) : Prop where
  id : ∀ m s, w.cluster.site? m = some s → s.node.id = m
  tracks : ∀ s, w.cluster.site? n = some s → ∀ d, (w.cluster.mirror n).Tracks d s
  stored : ∀ s, w.cluster.site? n = some s → ∀ p, (n, p) ∈ w.pending → p.sequel = .settle →
    s.stored p.device = true

theorem mirrored_of_fresh {c : Cluster} (h : c.Fresh) (n : NodeId) : Mirrored n ⟨c, []⟩ := by
  refine ⟨?_, ?_, by simp⟩
  · intro m s hs
    obtain ⟨node, hn, rfl⟩ := Option.map_eq_some_iff.mp hs
    exact (h.nodes m node hn).id
  · intro s hs d
    obtain ⟨node, hn, rfl⟩ := Option.map_eq_some_iff.mp hs
    have hf := h.nodes n node hn
    have hmirror : c.mirror n = {} := by simp [Cluster.mirror, postedBy, posts, h.journal]
    have hnone : node.replica.device? d = none := by simp [hf.replica, Replica.device?]
    have hrole : node.roles.role d = .none := by
      simp [hf.roles, RoleTable.role, RoleTable.entry]
    rw [hmirror]
    refine ⟨hnone.symm, hrole.symm, ?_, fun _ => hrole⟩
    intro device hd
    rw [hnone] at hd
    cases hd

/-- A member's site may be exchanged if the member tells what becomes of its devices. -/
theorem Mirrored.setSite (h : w.Mirrored n) (hs : w.cluster.site? m = some s)
    (hspeaks : s.Speaks s') (hfollows : m = n → s.Follows s')
    (hother : m ≠ n → ∀ p, (n, p) ∈ pending → (n, p) ∈ w.pending)
    (hown : m = n → ∀ p, (n, p) ∈ pending → p.sequel = .settle → s'.stored p.device = true) :
    Mirrored n ⟨w.cluster.setSite m s', pending⟩ := by
  have hid := h.id m s hs
  have hj : ∀ ns, s'.journal = s.journal ++ ns →
      (w.cluster.setSite m s').journal = w.cluster.journal ++ ns := fun ns hns =>
    hns.trans (by rw [Cluster.site?_journal hs])
  refine ⟨?_, ?_, ?_⟩
  · intro k x hx
    rcases Cluster.site?_setSite hx with ⟨rfl, rfl⟩ | ⟨_, y, hy, rfl⟩
    · exact hspeaks.1.trans hid
    · exact h.id k y hy
  · intro x hx
    rcases Cluster.site?_setSite hx with ⟨rfl, rfl⟩ | ⟨hne, y, hy, rfl⟩
    · obtain ⟨ns, hjournal, htracks⟩ := hfollows rfl
      intro d
      dsimp only
      rw [Cluster.mirror_append (hj ns hjournal), ← hid]
      exact htracks _ (hid ▸ h.tracks s hs) d
    · obtain ⟨_, ns, hjournal, hposts⟩ := hspeaks
      have hsilent : postedBy n ns = [] := postedBy_of_ne (hid ▸ hposts) (Ne.symm hne)
      intro d
      dsimp only
      rw [Cluster.mirror_silent (hj ns hjournal) hsilent]
      exact (h.tracks y hy d).of_eq rfl rfl
  · intro x hx p hp hq
    rcases Cluster.site?_setSite hx with ⟨rfl, rfl⟩ | ⟨hne, y, hy, rfl⟩
    · exact hown rfl p hp hq
    · exact h.stored y hy p (hother (Ne.symm hne) p hp) hq

theorem Mirrored.task (h : w.Mirrored n) (hs : w.cluster.site? m = some s) {t : Site.Task}
    (ht : w.Permits n (.task m t)) :
    Mirrored n ⟨w.cluster.setSite m (s.run t).1,
      w.pending ++ ((s.run t).2.map (m, ·)).toList⟩ := by
  obtain ⟨hspeaks, hfollows⟩ := s.run_follows t
  refine h.setSite hs hspeaks (fun _ => hfollows) ?_ ?_
  · intro hne p hp
    rcases List.mem_append.mp hp with hp | hp
    · exact hp
    · obtain ⟨_, _, he⟩ := Option.map_eq_some_iff.mp (Option.mem_toList.mp hp)
      exact absurd (congrArg Prod.fst he) hne
  · rintro rfl p hp hq
    have hheeds := ht rfl s hs
    rcases List.mem_append.mp hp with hp | hp
    · exact hheeds.kept (mem_pushes.mpr hp) (h.stored s hs p hp hq)
    · obtain ⟨q, hleft, he⟩ := Option.map_eq_some_iff.mp (Option.mem_toList.mp hp)
      obtain rfl : q = p := congrArg Prod.snd he
      obtain ⟨ms, hd⟩ := s.run_decides t
      rw [hd.device q hleft]
      exact hheeds.grounded q hleft hq

theorem Mirrored.answer (h : w.Mirrored n) (hs : w.cluster.site? m = some s) {i : Nat} {p : Push}
    (hi : w.pending[i]? = some (m, p)) :
    Mirrored n ⟨w.cluster.setSite m (s.answer p), w.pending.eraseIdx i⟩ := by
  have hrest : ∀ q, (n, q) ∈ w.pending.eraseIdx i → (n, q) ∈ w.pending := fun q hq =>
    List.mem_of_mem_eraseIdx hq
  have hmine : m = n → p.sequel = .settle → s.stored p.device = true := by
    rintro rfl
    exact h.stored s hs p (List.mem_of_getElem? hi)
  refine h.setSite hs (s.answer_speaks p) (fun hm => ?_) (fun _ => hrest) ?_
  · exact (Site.answer_retains fun _ => hmine hm).toRecounts.follows (s.answer_does p)
  · rintro rfl q hq hsequel
    exact Site.answer_kept (hmine rfl) (h.stored s hs q (hrest q hq) hsequel)

/-- A move by hand is told by the election alone. -/
theorem Mirrored.moved (h : w.Mirrored n) (move : Election → Election × List Announcement) :
    Mirrored n ⟨w.cluster.moveElection move, w.pending⟩ := by
  have hmirror : (w.cluster.moveElection move).mirror n = w.cluster.mirror n :=
    Cluster.mirror_silent (c := w.cluster) rfl (postedBy_announced _)
  refine ⟨?_, ?_, ?_⟩
  · intro k s hs
    obtain ⟨s₀, hs₀, hn⟩ := site?_moveElection hs
    exact hn ▸ h.id k s₀ hs₀
  · intro s hs d
    obtain ⟨s₀, hs₀, hn⟩ := site?_moveElection hs
    dsimp only
    rw [hmirror]
    exact (h.tracks s₀ hs₀ d).of_eq (by rw [hn]) (by rw [Site.applied, hn, Site.applied])
  · intro s hs p hp hq
    obtain ⟨s₀, hs₀, hn⟩ := site?_moveElection hs
    rw [Site.stored, hn]
    exact h.stored s₀ hs₀ p hp hq

theorem Mirrored.step (h : w.Mirrored n) {a : Act} (ha : w.Permits n a) :
    (w.step a).Mirrored n := by
  have hsteps := w.steps a
  generalize w.step a = w' at hsteps ⊢
  cases hsteps with
  | idle => exact h
  | task t hs => exact h.task hs ha
  | change c hs =>
    obtain ⟨hspeaks, hfollows⟩ := Site.change_follows _ c
    refine h.setSite hs hspeaks (fun _ => hfollows) (fun _ _ hp => hp) ?_
    rintro rfl p hp hq
    rw [Site.stored_of_replica (Site.change_replica _ c)]
    exact h.stored _ hs p hp hq
  | answer hi hs => exact h.answer hs hi
  | lost =>
    exact ⟨h.id, h.tracks, fun s hs p hp => h.stored s hs p (List.mem_of_mem_eraseIdx hp)⟩
  | moved _ move => exact h.moved move

theorem Attended.mirrored (h : w.Attended n) : w.Mirrored n := by
  induction h with
  | fresh hc => exact mirrored_of_fresh hc n
  | step _ ha ih => exact ih.step ha

/-- The events of a member are a complete log of its devices and roles. Whatever goes on in the
cluster, whatever terms the member is told and whatever fails: whoever has listened to the member
from the beginning has exactly the devices that it stores, and knows the role applied to each of
them; of any other device it knows of no role, as none is applied. -/
theorem events_tell_all (h : w.Attended n) (hs : w.cluster.site? n = some s) (d : DeviceId) :
    (w.cluster.mirror n).devices.get? d = s.node.replica.device? d ∧
      (w.cluster.mirror n).role d = s.applied d := by
  have htracks := h.mirrored.tracks s hs d
  exact ⟨htracks.device, htracks.role⟩

end World

namespace Sample

/-- A member that serves the device is told of no term from now on. -/
def misledActs : List World.Act :=
  joins east ++ [.change east (.setFaults { terms := (∅ : Table DeviceId _).insert lamp none })]

def misled : World := misledActs.foldl World.step ⟨pair, []⟩

theorem misled_attended : misled.Attended east := by
  refine .run (.fresh pair_fresh) ?_
  simp [misledActs, joins, opens, World.Permits, Site.Heeds]

theorem misled_stored : (misled.cluster.site? east).all (·.stored lamp) = true := by
  decide +kernel

/-- The member decides about its role anew, which makes it wait. -/
def demoted : World := (misled.step (.task east (.reassert lamp .none))).step (.answer 0)

theorem demoted_attended : demoted.Attended east := by
  have hpermits : misled.Permits east (.task east (.reassert lamp .none)) := by
    refine World.permits_of_idle (by decide +kernel) fun s d hs h => ?_
    obtain h | ⟨_, h⟩ := h <;> cases h
    have hstored := misled_stored
    rwa [hs] at hstored
  exact (misled_attended.step hpermits).step trivial

theorem demoted_waits : ∃ s, demoted.cluster.site? east = some s ∧
    s.node.replica.device? lamp = some ⟨lamp, ⟨"of", "sim"⟩, default, true⟩ ∧
    s.applied lamp = .standby := by
  have h : (demoted.cluster.site? east).any (fun s =>
      s.node.replica.device? lamp == some ⟨lamp, ⟨"of", "sim"⟩, default, true⟩ &&
        s.applied lamp == .standby) = true := by
    decide +kernel
  simpa [Option.any_eq_true] using h

end Sample

/-- Listeners have the device, and know that the member waits for it, being told of no term. -/
theorem World.demotion_told :
    (Sample.demoted.cluster.mirror Sample.east).devices.get? Sample.lamp =
        some ⟨Sample.lamp, ⟨"of", "sim"⟩, default, true⟩ ∧
      (Sample.demoted.cluster.mirror Sample.east).role Sample.lamp = .standby := by
  obtain ⟨s, hs, hdevice, hrole⟩ := Sample.demoted_waits
  obtain ⟨hcopy, hknown⟩ := events_tell_all Sample.demoted_attended hs Sample.lamp
  exact ⟨hcopy.trans hdevice, hknown.trans hrole⟩

end Mastership
