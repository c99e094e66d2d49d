import Mastership.Failure

namespace Mastership

/-- Settings of the audit that looks after devices without a role. -/
structure AuditSettings where
  /-- Seconds between two passes. -/
  interval : Nat := 60
  /-- Devices checked at once during a pass; zero sets no bound. -/
  concurrency : Nat := 16
  /-- Milliseconds that a pass waits for one check. -/
  timeout : Nat := 5000
deriving DecidableEq, Repr, Inhabited

structure LogSettings where
  level : String := "info"
  format : String := "pretty"
deriving DecidableEq, Repr, Inhabited

structure Settings where
  node : String
  audit : AuditSettings := {}
  /-- Undelivered events kept for each listener. -/
  buffer : Nat := 1024
  log : LogSettings := {}
deriving DecidableEq, Repr, Inhabited

namespace Settings

/-- Settings of a member of which only the name is given. -/
def forNode (node : String) : Settings := { node }

/-- Accepts settings that can be used, and names the first that cannot. -/
def validate (s : Settings) : Except Failure Unit :=
  if s.node = "" then .error (.config "node.id cannot be empty")
  else if s.audit.interval = 0 then
    .error (.config "mastership.audit_interval_secs must be greater than zero")
  else if s.audit.concurrency = 0 then
    .error (.config "mastership.audit_concurrency must be greater than zero")
  else if s.buffer = 0 then .error (.config "events.buffer_size must be greater than zero")
  else if s.log.format = "pretty" ∨ s.log.format = "compact" then .ok ()
  else .error (.config ("logging.format must be pretty or compact, got " ++ s.log.format))

end Settings
end Mastership
