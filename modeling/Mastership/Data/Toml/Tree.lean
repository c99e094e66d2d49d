import Mastership.Data

namespace Mastership.Data.Toml

/-- How a table was set up: by a header, by dotted keys, or, as the parent of either, by the way. It
may be set up only once, and what may be added to it later depends on how. -/
inductive Origin where
  | header
  /-- As the parent of a table with a header. -/
  | parent
  | dotted
deriving DecidableEq, Repr

/-- What a key of a table stands for. Of a list of tables, only the last can still be added to. -/
inductive Node where
  | value (d : Data)
  | table (origin : Origin) (entries : List (String × Node))
  | tables (done : List Data) (last : List (String × Node))

abbrev Entries : Type := List (String × Node)

mutual

def Node.toData : Node → Data
  | .value d => d
  | .table _ es => .map (entriesToData es)
  | .tables done last => .list (done ++ [.map (entriesToData last)])

def entriesToData : List (String × Node) → List (String × Data)
  | [] => []
  | (k, n) :: es => (k, n.toData) :: entriesToData es

end

namespace Entries

def get? (k : String) (es : Entries) : Option Node := es.lookup k

/-- Writes a node under a key, in place of the one that was there. -/
def set (k : String) (n : Node) : Entries → Entries
  | [] => [(k, n)]
  | (k', n') :: es => if k' = k then (k, n) :: es else (k', n') :: set k n es

/-- Changes the table at the end of a header's path. Missing tables are set up on the way. -/
def atPath (f : Entries → Option Entries) : List String → Entries → Option Entries
  | [], es => f es
  | k :: ks, es =>
    match get? k es with
    | none => (atPath f ks []).map fun sub => set k (.table .parent sub) es
    | some (.table origin sub) =>
      (atPath f ks sub).map fun sub => set k (.table origin sub) es
    | some (.tables done last) =>
      (atPath f ks last).map fun last => set k (.tables done last) es
    | some (.value _) => none

def add (k : String) (d : Data) (es : Entries) : Option Entries :=
  match get? k es with
  | none => some (set k (.value d) es)
  | some _ => none

/-- Writes a value under a dotted key. The last table on the way must have been set up by dotted
keys, and none of them by a header. -/
def addDotted (name : String) (d : Data) : List String → Entries → Option Entries
  | [], es => add name d es
  | k :: ks, es =>
    match get? k es with
    | none => (addDotted name d ks []).map fun sub => set k (.table .dotted sub) es
    | some (.table origin sub) =>
      if origin = .header ∨ ks = [] ∧ origin ≠ .dotted then none
      else (addDotted name d ks sub).map fun sub => set k (.table origin sub) es
    | some (.tables done last) =>
      if ks = [] then none
      else (addDotted name d ks last).map fun last => set k (.tables done last) es
    | some (.value _) => none

/-- Sets up the table of a header. One that is there already only as a parent is taken over. -/
def openTable (k : String) (es : Entries) : Option Entries :=
  match get? k es with
  | none => some (set k (.table .header []) es)
  | some (.table .parent sub) => some (set k (.table .header sub) es)
  | some _ => none

/-- Sets up the next table of a list of tables. -/
def openNext (k : String) (es : Entries) : Option Entries :=
  match get? k es with
  | none => some (set k (.tables [] []) es)
  | some (.tables done last) =>
    some (set k (.tables (done ++ [.map (entriesToData last)]) []) es)
  | some _ => none

end Entries
end Mastership.Data.Toml
