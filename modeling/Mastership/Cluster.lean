import Mastership.Controller.Callbacks
import Mastership.Controller.Watch

namespace Mastership

/-- Several controllers and the election that they share. -/
structure Cluster where
  election : Election := {}
  nodes : Table NodeId Controller := ∅
  /-- What has left the members and the election, oldest first. -/
  journal : List Notice := []
deriving DecidableEq, Repr

namespace Cluster

/-- A member's controller in front of the election. -/
def site? (c : Cluster) (n : NodeId) : Option Site :=
  (c.nodes.get? n).map fun node => ⟨c.election, node, c.journal⟩

/-- Takes over what an operation at a member has made of its site. -/
def setSite (c : Cluster) (n : NodeId) (s : Site) : Cluster :=
  ⟨s.election, c.nodes.insert n s.node, s.journal⟩

def run {α : Type} (c : Cluster) (n : NodeId) (f : Site → Site × α) : Cluster × Option α :=
  match c.site? n with
  | none => (c, none)
  | some s => (c.setSite n (f s).1, some (f s).2)

def modify (c : Cluster) (n : NodeId) (f : Site → Site) : Cluster :=
  (c.run n fun s => (f s, ())).1

def moveElection (c : Cluster) (move : Election → Election × List Announcement) : Cluster :=
  let (election, announcements) := move c.election
  { c with election, journal := c.journal ++ announcements.map .announced }

def takeJournal (c : Cluster) : Cluster × List Notice :=
  ({ c with journal := [] }, c.journal)

theorem site?_election {c : Cluster} {n : NodeId} {s : Site} (h : c.site? n = some s) :
    s.election = c.election := by
  obtain ⟨_, _, rfl⟩ := Option.map_eq_some_iff.mp h
  rfl

theorem site?_journal {c : Cluster} {n : NodeId} {s : Site} (h : c.site? n = some s) :
    s.journal = c.journal := by
  obtain ⟨_, _, rfl⟩ := Option.map_eq_some_iff.mp h
  rfl

/-- What is shown of every member by name holds of every member's site. -/
theorem all_sites {c : Cluster} {p : NodeId → Site → Bool}
    (h : (c.nodes.keys.all fun n => (c.site? n).all (p n)) = true) {n : NodeId} {s : Site}
    (hs : c.site? n = some s) : p n s = true := by
  have hn : n ∈ c.nodes.keys := by
    obtain ⟨node, hnode, _⟩ := Option.map_eq_some_iff.mp hs
    exact Table.mem_keys.mpr (by simp [hnode])
  simpa [hs] using List.all_eq_true.mp h n hn

theorem setSite_site {c : Cluster} {n : NodeId} {s : Site} (h : c.site? n = some s) :
    c.setSite n s = c := by
  obtain ⟨node, hnode, rfl⟩ := Option.map_eq_some_iff.mp h
  simp [setSite, Table.insert_eq_self hnode]

@[simp] theorem site?_setSite_self (c : Cluster) (n : NodeId) (s : Site) :
    (c.setSite n s).site? n = some s := by
  simp [site?, setSite]

theorem site?_setSite_of_ne (c : Cluster) {n m : NodeId} (h : m ≠ n) (s : Site) :
    (c.setSite n s).site? m =
      (c.site? m).map fun x => { x with election := s.election, journal := s.journal } := by
  simp [site?, setSite, Table.get?_insert_of_ne _ _ h.symm, Function.comp_def]

/-- After an operation at one member, every other has the controller that it had. -/
theorem site?_setSite {c : Cluster} {n m : NodeId} {s x : Site}
    (h : (c.setSite n s).site? m = some x) :
    m = n ∧ x = s ∨ m ≠ n ∧
      ∃ y, c.site? m = some y ∧ x = { y with election := s.election, journal := s.journal } := by
  by_cases hm : m = n
  · subst hm
    rw [site?_setSite_self] at h
    exact .inl ⟨rfl, (Option.some.inj h).symm⟩
  · rw [site?_setSite_of_ne c hm, Option.map_eq_some_iff] at h
    obtain ⟨y, hy, rfl⟩ := h
    exact .inr ⟨hm, y, hy, rfl⟩

/-- What becomes of a member's site when the same or another member's is exchanged. -/
theorem exists_site?_setSite {c : Cluster} {m : NodeId} {x : Site} (h : c.site? m = some x)
    (n : NodeId) (s : Site) : ∃ y, (c.setSite n s).site? m = some y ∧
      (m = n ∧ y = s ∨ m ≠ n ∧ y = { x with election := s.election, journal := s.journal }) := by
  by_cases hm : m = n
  · subst hm
    exact ⟨s, site?_setSite_self c m s, .inl ⟨rfl, rfl⟩⟩
  · exact ⟨_, by rw [site?_setSite_of_ne c hm, h, Option.map_some], .inr ⟨hm, rfl⟩⟩

theorem run_of_site {α : Type} {c : Cluster} {n : NodeId} {s : Site} (h : c.site? n = some s)
    (f : Site → Site × α) : c.run n f = (c.setSite n (f s).1, some (f s).2) := by
  simp only [run, h]

theorem run_of_none {α : Type} {c : Cluster} {n : NodeId} (h : c.site? n = none)
    (f : Site → Site × α) : c.run n f = (c, none) := by
  simp only [run, h]

theorem modify_of_site {c : Cluster} {n : NodeId} {s : Site} (h : c.site? n = some s)
    (f : Site → Site) : c.modify n f = c.setSite n (f s) := by
  simp only [modify, run_of_site h]

theorem modify_of_none {c : Cluster} {n : NodeId} (h : c.site? n = none) (f : Site → Site) :
    c.modify n f = c := by
  simp only [modify, run_of_none h]

end Cluster
end Mastership
