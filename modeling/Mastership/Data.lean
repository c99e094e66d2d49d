namespace Mastership

/-- A value of a data format. Numbers that are no integers, and moments of time, are kept as they
were written: nothing in this library computes with them. -/
inductive Data where
  | null
  | bool (b : Bool)
  | int (n : Int)
  | float (literal : String)
  | moment (literal : String)
  | text (s : String)
  | list (items : List Data)
  | map (fields : List (String × Data))
deriving Repr, Inhabited, BEq

namespace Data

/-- The value under a name; of several, the last counts. -/
def field? (name : String) (fields : List (String × Data)) : Option Data :=
  ((fields.filter (·.1 == name)).getLast?).map Prod.snd

def bool? : Data → Option Bool
  | .bool b => some b
  | _ => none

def text? : Data → Option String
  | .text s => some s
  | _ => none

def nat? : Data → Option Nat
  | .int n => if 0 ≤ n ∧ n ≤ 0xffffffffffffffff then some n.toNat else none
  | _ => none

def list? : Data → Option (List Data)
  | .list items => some items
  | _ => none

/-- A value of a kind, or nothing where the format says null. -/
def option? {α : Type} (read : Data → Option α) : Data → Option (Option α)
  | .null => some none
  | d => (read d).map some

def listOf? {α : Type} (read : Data → Option α) (d : Data) : Option (List α) :=
  d.list?.bind (·.mapM read)

/-- One of several names, which may also be written as a map from the name to null. -/
def name? {α : Type} (names : List (String × α)) : Data → Option α
  | .text s => names.lookup s
  | .map [(s, .null)] => names.lookup s
  | _ => none

/-- Whether a list of fields may be longer than the record. -/
inductive Surplus where
  | ignored
  | refused
deriving DecidableEq, Repr

/-- The fields of a record: by name, where unknown names do not matter, or by position. -/
inductive Record where
  | named (fields : List (String × Data))
  | positional (items : List Data)

/-- Takes a value for a record of so many fields. A moment of time is a record too, none of whose
fields is ever asked for. -/
def record? (surplus : Surplus) (size : Nat) : Data → Option Record
  | .map fields => some (.named fields)
  | .moment _ => some (.named [])
  | .list items =>
    if surplus = .refused ∧ size < items.length then none else some (.positional items)
  | _ => none

namespace Record

def get? : Record → Nat → String → Option Data
  | .named fields, _, name => field? name fields
  | .positional items, index, _ => items[index]?

def required {α : Type} (r : Record) (index : Nat) (name : String) (read : Data → Option α) :
    Option α :=
  (r.get? index name).bind read

/-- A field that has a value of its own if it is not there. -/
def withDefault {α : Type} (r : Record) (index : Nat) (name : String) (default : α)
    (read : Data → Option α) : Option α :=
  match r.get? index name with
  | none => some default
  | some d => read d

/-- A field that may be null. By name it may also be missing. -/
def optional {α : Type} (r : Record) (index : Nat) (name : String) (read : Data → Option α) :
    Option (Option α) :=
  match r, r.get? index name with
  | .named _, none => some none
  | _, d => d.bind (option? read)

end Record
end Data
end Mastership
