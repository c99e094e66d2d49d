import Mastership.Failure

namespace Mastership

/-- A registered provider: its id, and the slot that tells it from others with that id. -/
structure Registry.Entry where
  id : ProviderId
  slot : Nat
deriving DecidableEq, Repr, Inhabited

/-- Which provider serves which device scheme. A registration lasts until the very provider id that
made it is unregistered. -/
structure Registry where
  entries : Table String Registry.Entry := ∅
deriving DecidableEq, Repr

namespace Registry

def register (r : Registry) (id : ProviderId) (slot : Nat) : Except Failure Registry :=
  if r.entries.contains id.scheme then .error (.providerAlreadyRegistered id.scheme)
  else .ok ⟨r.entries.insert id.scheme ⟨id, slot⟩⟩

def isRegistered (r : Registry) (id : ProviderId) : Bool :=
  (r.entries.get? id.scheme).any (·.id == id)

/-- Takes back the registration of exactly this id; answers whether there was one. -/
def unregister (r : Registry) (id : ProviderId) : Registry × Bool :=
  if r.isRegistered id then (⟨r.entries.erase id.scheme⟩, true) else (r, false)

def providerFor (r : Registry) (d : DeviceId) : Option Entry := r.entries.get? d.scheme

end Registry
end Mastership
