import Mastership.Role

namespace Mastership

inductive Failure where
  | config (text : String)
  /-- A settings file that cannot be read as settings. -/
  | configParse
  | staleMastership (device : DeviceId)
  | noProvider (device : DeviceId)
  | roleRejected (device : DeviceId) (role : Role) (reason : String)
  | providerAlreadyRegistered (scheme : String)
  | providerInvalid (provider : String)
  /-- Data that cannot be read as the value asked for. -/
  | serialization
  /-- A file that cannot be read or written. -/
  | io
  | internal (text : String)
  | shuttingDown
deriving DecidableEq, Repr, Inhabited

namespace Failure

/-- The wording of a failure. Three kinds quote another reader's complaint, which is not kept. -/
def message : Failure → Option String
  | .config text => some ("Configuration error: " ++ text)
  | .configParse => none
  | .staleMastership d =>
    some ("Stale mastership for " ++ d.uri ++ ": this node holds no current ownership timestamp")
  | .noProvider d => some ("No provider registered for " ++ d.uri)
  | .roleRejected d role reason =>
    some ("Device " ++ d.uri ++ " rejected role " ++ role.text ++ ": " ++ reason)
  | .providerAlreadyRegistered scheme =>
    some ("Provider already registered for scheme " ++ scheme)
  | .providerInvalid provider => some ("Provider " ++ provider ++ " is no longer registered")
  | .serialization => none
  | .io => none
  | .internal text => some ("Internal error: " ++ text)
  | .shuttingDown => some "Shutdown in progress"

/-- The view of mastership is out of date; reading the term again may mend it. -/
def isStale : Failure → Bool
  | .staleMastership _ => true
  | _ => false

/-- A role could not be applied, which must be answered by giving up the device. -/
def shouldRelinquish : Failure → Bool
  | .noProvider _ => true
  | .roleRejected _ _ _ => true
  | _ => false

end Failure
end Mastership
