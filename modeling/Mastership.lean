import Mastership.Main
import Mastership.Rehearsal
import Mastership.Proofs.Convergence
import Mastership.Proofs.OneMaster
import Mastership.Proofs.Passes
import Mastership.Proofs.Spinning
import Mastership.Proofs.Rivals
import Mastership.Proofs.Tenures
import Mastership.Proofs.Forgetting
import Mastership.Proofs.Bulletins
import Mastership.Proofs.Stamps
import Mastership.Proofs.Writes
import Mastership.Proofs.Holdings
import Mastership.Proofs.Partings
import Mastership.Proofs.LastConnection
import Mastership.Proofs.Advice
import Mastership.Proofs.Agreement
import Mastership.Proofs.EventLog
import Mastership.Proofs.Locality
import Mastership.Proofs.Abreast
import Mastership.Proofs.Independence
import Mastership.Proofs.Courses
import Mastership.Proofs.Concerns
import Mastership.Proofs.Onlookers
import Mastership.Proofs.Availability
import Mastership.Proofs.Precedence
import Mastership.Proofs.Guards
import Mastership.Proofs.PortLists
import Mastership.Proofs.Calls
import Mastership.Proofs.Removals
import Mastership.Proofs.Repetition
import Mastership.Proofs.Rounds
import Mastership.Proofs.Timestamps
import Mastership.Proofs.Replay
import Mastership.Proofs.Handles
import Mastership.Proofs.Template
import Mastership.Proofs.Registrations
import Mastership.Proofs.NewestDecision
import Mastership.Proofs.Usability
import Mastership.Proofs.Grammar
