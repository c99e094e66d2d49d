import Mastership.Table

namespace Mastership.CommandLine

inductive Found where
  | missing
  /-- Something that is no readable text, such as a directory. -/
  | unreadable
  | text (content : String)
deriving DecidableEq, Repr

/-- Files by their paths. Directories within this one are those that hold a file; nothing outside can
be reached. -/
structure Directory where
  files : Table String String := ∅
deriving DecidableEq, Repr

namespace Directory

/-- The names between the slashes of a path. -/
def parts (path : String) : List String := (path.toList.splitOn '/').map String.ofList

def join (names : List String) : String := "/".intercalate names

/-- Whether there is a directory of this name path. -/
def isFolder (d : Directory) (names : List String) : Bool :=
  names.isEmpty || d.files.keys.any fun file =>
    names.length < (parts file).length && names.isPrefixOf (parts file)

/-- Follows the parts of a path from a folder on; answers with the names of what it leads to. All
but the last part must be folders. -/
def follow (d : Directory) : List String → List String → Option (List String)
  | here, [] => some here
  | here, [name] =>
    if name = "." then some here
    else if name = ".." then (if here.isEmpty then none else some here.dropLast)
    else if name = "" then (if d.isFolder here then some here else none)
    else some (here ++ [name])
  | here, name :: next :: rest =>
    if name = "." ∨ name = "" then d.follow here (next :: rest)
    else if name = ".." then
      if here.isEmpty then none else d.follow here.dropLast (next :: rest)
    else if d.isFolder (here ++ [name]) then d.follow (here ++ [name]) (next :: rest)
    else none

/-- The names that a path leads to. A path from the root of all files leads outside. -/
def resolve (d : Directory) (path : String) : Option (List String) :=
  if path = "" ∨ path.startsWith "/" then none else d.follow [] (parts path)

def read (d : Directory) (path : String) : Found :=
  match d.resolve path with
  | none => .missing
  | some names =>
    if d.isFolder names then .unreadable
    else
      match d.files.get? (join names) with
      | some content => .text content
      | none => .missing

/-- Writes a file, in place of any file of that path. A folder cannot be written, and nothing can
be written into a folder that does not exist. -/
def write (d : Directory) (path content : String) : Option Directory :=
  match d.resolve path with
  | none => none
  | some names =>
    if d.isFolder names then none else some ⟨d.files.insert (join names) content⟩

end Directory
end Mastership.CommandLine
