import Mastership.Table

namespace Mastership

/-- Name of a device, such as `of:0000000000000001`. -/
structure DeviceId where
  uri : String
deriving DecidableEq, Repr, Inhabited

structure NodeId where
  name : String
deriving DecidableEq, Repr, Inhabited

/-- Name of a southbound provider: the device scheme it serves and its own name. -/
structure ProviderId where
  scheme : String
  name : String
deriving DecidableEq, Repr, Inhabited

instance : Key DeviceId where
  lt a b := a.uri < b.uri
  decEq := inferInstance
  decLt a b := inferInstanceAs (Decidable (a.uri < b.uri))
  irrefl a := Key.irrefl a.uri
  trans := @fun a b c => Key.trans (a := a.uri) (b := b.uri) (c := c.uri)
  tri := @fun a b h₁ h₂ => by
    cases a
    cases b
    exact congrArg DeviceId.mk (Key.tri h₁ h₂)

instance (a b : DeviceId) : Decidable (a < b) := Key.decLt a b

instance : Key NodeId where
  lt a b := a.name < b.name
  decEq := inferInstance
  decLt a b := inferInstanceAs (Decidable (a.name < b.name))
  irrefl a := Key.irrefl a.name
  trans := @fun a b c => Key.trans (a := a.name) (b := b.name) (c := c.name)
  tri := @fun a b h₁ h₂ => by
    cases a
    cases b
    exact congrArg NodeId.mk (Key.tri h₁ h₂)

/-- Scheme of a device: the text before the first colon, the whole name if there is none. -/
def DeviceId.scheme (d : DeviceId) : String :=
  String.ofList (d.uri.toList.takeWhile (· ≠ ':'))

def DeviceId.compare (a b : DeviceId) : Ordering :=
  if a < b then .lt else if b < a then .gt else .eq

def ProviderId.text (p : ProviderId) : String := p.scheme ++ ":" ++ p.name

end Mastership
