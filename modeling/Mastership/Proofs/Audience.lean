import Mastership.Proofs.Outcomes
import Mastership.Proofs.World

namespace Mastership

/-- Handles an announcement to the end. -/
def Site.heed (s : Site) (a : Announcement) : Site := answerNow (s.handle a)

/-- A cluster whose members hear all that the election announces, in order, each at its own pace: what
a member has not heard yet waits in its mail. Operations run one at a time and to their end. -/
structure Audience where
  cluster : Cluster := {}
  mail : NodeId → List Announcement := fun _ => []

namespace Audience

/-- Takes over what an operation has made of the cluster; what it announced goes to everybody. -/
def follow (a : Audience) (c : Cluster) : Audience :=
  ⟨c, fun n => a.mail n ++ announced (c.journal.drop a.cluster.journal.length)⟩

/-- Lets a member handle the oldest announcement in its mail, if there is one. -/
def deliver (a : Audience) (n : NodeId) : Audience :=
  match a.mail n with
  | [] => a
  | x :: rest =>
    { a with mail := Function.update a.mail n rest }.follow (a.cluster.modify n (·.heed x))

/-- No member has mail. -/
def Quiet (a : Audience) : Prop := ∀ n s, a.cluster.site? n = some s → a.mail n = []

theorem follow_mail {a : Audience} {c : Cluster} {ns : List Notice}
    (h : c.journal = a.cluster.journal ++ ns) (n : NodeId) :
    (a.follow c).mail n = a.mail n ++ announced ns := by
  simp [follow, h]

theorem follow_self (a : Audience) : a.follow a.cluster = a := by
  simp [follow]

theorem deliver_empty {a : Audience} {n : NodeId} (h : a.mail n = []) : a.deliver n = a := by
  simp only [deliver, h]

/-- What one delivery to a member comes to: `x` leaves the member's mail, and what the member's moves
announce is added to everybody's. -/
structure Delivers (a : Audience) (n : NodeId) (s : Site) (x : Announcement)
    (rest : List Announcement) (a' : Audience) : Prop where
  hears : s.Hears x (s.heed x)
  cluster : a'.cluster = a.cluster.setSite n (s.heed x)
  election : a'.cluster.election = (a.cluster.election.moves x.device (s.hearing x)).1
  mail : ∀ m, a'.mail m = Function.update a.mail n rest m ++
    (a.cluster.election.moves x.device (s.hearing x)).2

theorem deliver_delivers {a : Audience} {n : NodeId} {s : Site} {x : Announcement}
    {rest : List Announcement} (ht : s.Truthful) (hs : a.cluster.site? n = some s)
    (hm : a.mail n = x :: rest) : Delivers a n s x rest (a.deliver n) := by
  have hh := ht.hears x
  obtain ⟨ps, hd⟩ := hh.does
  obtain ⟨ns, hj, ha, _⟩ := hd.journal
  have hc : (a.deliver n).cluster = a.cluster.setSite n (s.heed x) := by
    simp only [deliver, hm, follow, Cluster.modify_of_site hs]
  refine ⟨hh, hc, ?_, ?_⟩
  · rw [hc, ← Cluster.site?_election hs]
    exact hd.election
  · intro m
    have hj' : (a.cluster.modify n (·.heed x)).journal = a.cluster.journal ++ ns := by
      rw [Cluster.modify_of_site hs, ← Cluster.site?_journal hs]
      exact hj
    simp only [deliver, hm, follow, hj', List.drop_left, ha, Cluster.site?_election hs]

/-- Mail for somebody who is not a member is thrown away. -/
theorem deliver_stranger {a : Audience} {n : NodeId} {x : Announcement} {rest : List Announcement}
    (hs : a.cluster.site? n = none) (hm : a.mail n = x :: rest) :
    a.deliver n = { a with mail := Function.update a.mail n rest } := by
  simp only [deliver, hm, Cluster.modify_of_none hs]
  exact follow_self { a with mail := Function.update a.mail n rest }

end Audience
end Mastership
