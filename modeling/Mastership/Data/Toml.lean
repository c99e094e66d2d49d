import Mastership.Data.Toml.Lexeme
import Mastership.Data.Toml.Tree

namespace Mastership.Data.Toml

/-- So many lists and tables within each other, or parts of a dotted key, are too many. -/
def depthLimit : Nat := 80

def isBareKey (c : Char) : Bool := c.isAlphanum || c == '_' || c == '-'

/-- One part of a key: quoted on one line, or bare. -/
def simpleKey? (cs : List Char) : Option (String × List Char) :=
  match cs with
  | '"' :: r => (basicText (r.length + 1) [] r).map fun (s, r) => (String.ofList s, r)
  | '\x27' :: r => (literalText [] r).map fun (s, r) => (String.ofList s, r)
  | cs =>
    let name := cs.takeWhile isBareKey
    if name.isEmpty then none else some (String.ofList name, cs.dropWhile isBareKey)

/-- The parts of a key between dots, each perhaps between blanks. -/
def keyParts : Nat → List Char → Option (List String × List Char)
  | 0, _ => none
  | fuel + 1, cs =>
    (simpleKey? (skipBlank cs)).bind fun (k, r) =>
      match skipBlank r with
      | '.' :: r => (keyParts fuel r).map fun (ks, r) => (k :: ks, r)
      | r => some ([k], r)

/-- A key: the names on the way, and the last one. -/
def key? (cs : List Char) : Option ((List String × String) × List Char) :=
  (keyParts (cs.length + 1) cs).bind fun (ks, r) =>
    if depthLimit ≤ ks.length then none
    else ks.getLast?.map fun k => ((ks.dropLast, k), r)

mutual

def readValue : Nat → Nat → List Char → Option (Data × List Char)
  | 0, _, _ => none
  | fuel + 1, depth, cs =>
    match cs with
    | '[' :: r =>
      if depthLimit ≤ depth + 1 then none else readItems fuel (depth + 1) [] r
    | '\x7b' :: r =>
      if depthLimit ≤ depth + 1 then none
      else
        match skipBlank r with
        | '\x7d' :: r => some (.map [], r)
        | r => readPairs fuel (depth + 1) [] r
    | 't' :: 'r' :: 'u' :: 'e' :: r => some (.bool true, r)
    | 'f' :: 'a' :: 'l' :: 's' :: 'e' :: r => some (.bool false, r)
    | '"' :: _ => (quotedText? cs).map fun (s, r) => (.text s, r)
    | '\x27' :: _ => (quotedText? cs).map fun (s, r) => (.text s, r)
    | cs => numeral? cs

/-- The rest of a list, which may run over several lines and end in a comma. -/
def readItems : Nat → Nat → List Data → List Char → Option (Data × List Char)
  | 0, _, _, _ => none
  | fuel + 1, depth, items, cs =>
    match skipLoose cs.length cs with
    | ']' :: r => some (.list items.reverse, r)
    | cs =>
      match readValue fuel depth cs with
      | none => none
      | some (d, r) =>
        match skipLoose r.length r with
        | ',' :: r => readItems fuel depth (d :: items) r
        | ']' :: r => some (.list (d :: items).reverse, r)
        | _ => none

def readPairs : Nat → Nat → Entries → List Char → Option (Data × List Char)
  | 0, _, _, _ => none
  | fuel + 1, depth, es, cs =>
    match key? cs with
    | some ((path, name), '=' :: r) =>
      match readValue fuel depth (skipBlank r) with
      | none => none
      | some (d, r) =>
        match es.addDotted name d path with
        | none => none
        | some es =>
          match skipBlank r with
          | ',' :: r => readPairs fuel depth es r
          | '\x7d' :: r => some (.map (entriesToData es), r)
          | _ => none
    | _ => none

end

/-- The header of a table, or of the next table of a list. -/
def header? : List Char → Option ((Bool × List String × String) × List Char)
  | '[' :: '[' :: r =>
    match key? r with
    | some ((path, name), ']' :: ']' :: r) => some ((true, path, name), r)
    | _ => none
  | '[' :: r =>
    match key? r with
    | some ((path, name), ']' :: r) => some ((false, path, name), r)
    | _ => none
  | _ => none

/-- Reads line after line; keys go to the table at a path. -/
def readLines : Nat → List String → Entries → List Char → Option Entries
  | 0, _, _, _ => none
  | fuel + 1, path, es, cs =>
    match skipBlank cs with
    | [] => some es
    | '[' :: r =>
      match header? ('[' :: r) with
      | none => none
      | some ((isList, parents, name), r) =>
        let step := if isList then Entries.openNext name else Entries.openTable name
        match es.atPath step parents, lineEnd? r with
        | some es, some r => readLines fuel (parents ++ [name]) es r
        | _, _ => none
    | '#' :: r =>
      match lineEnd? ('#' :: r) with
      | some r => readLines fuel path es r
      | none => none
    | r =>
      match newline? r with
      | some r => readLines fuel path es r
      | none =>
        match key? r with
        | some ((parents, name), '=' :: r) =>
          match readValue (2 * r.length + 2) 0 (skipBlank r) with
          | none => none
          | some (d, r) =>
            match es.atPath (Entries.addDotted name d parents) path, lineEnd? r with
            | some es, some r => readLines fuel path es r
            | _, _ => none
        | _ => none

/-- The value that a whole text stands for. A mark of byte order in front is skipped. -/
def read (s : String) : Option Data :=
  let cs := match s.toList with
    | '\uFEFF' :: cs => cs
    | cs => cs
  (readLines (cs.length + 1) [] [] cs).map fun es => .map (entriesToData es)

end Mastership.Data.Toml
