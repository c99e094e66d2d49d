import Mastership.Data

namespace Mastership.Data.Json

def isBlank (c : Char) : Bool := c == ' ' || c == '\t' || c == '\n' || c == '\r'

def skipBlank (cs : List Char) : List Char := cs.dropWhile isBlank

def hexDigit? (c : Char) : Option Nat :=
  if '0' ≤ c ∧ c ≤ '9' then some (c.toNat - '0'.toNat)
  else if 'a' ≤ c ∧ c ≤ 'f' then some (c.toNat - 'a'.toNat + 10)
  else if 'A' ≤ c ∧ c ≤ 'F' then some (c.toNat - 'A'.toNat + 10)
  else none

def hex? (cs : List Char) : Option Nat :=
  cs.foldlM (fun n c => (hexDigit? c).map (n * 16 + ·)) 0

/-- The character of a number, unless the number is a surrogate or beyond the last character. -/
def char? (n : Nat) : Option Char :=
  if n.isValidChar then some (Char.ofNat n) else none

/-- The character that a single letter stands for after a backslash. -/
def escape? : Char → Option Char
  | '"' => some '"'
  | '\\' => some '\\'
  | '/' => some '/'
  | 'b' => some '\x08'
  | 'f' => some '\x0c'
  | 'n' => some '\n'
  | 'r' => some '\r'
  | 't' => some '\t'
  | _ => none

/-- The character that two surrogates stand for. -/
def pair? (high low : Nat) : Option Char :=
  if 0xD800 ≤ high ∧ high < 0xDC00 ∧ 0xDC00 ≤ low ∧ low < 0xE000 then
    char? (0x10000 + (high - 0xD800) * 0x400 + (low - 0xDC00))
  else none

/-- The rest of a text up to its closing quote, and what follows. -/
def readText : List Char → List Char → Option (String × List Char)
  | acc, '"' :: r => some (String.ofList acc.reverse, r)
  | acc, '\\' :: 'u' :: a :: b :: c :: d :: r =>
    match (hex? [a, b, c, d]).bind char?, r with
    | some ch, r => readText (ch :: acc) r
    | none, '\\' :: 'u' :: e :: f :: g :: h :: r =>
      match (hex? [a, b, c, d]).bind fun n => (hex? [e, f, g, h]).bind (pair? n) with
      | some ch => readText (ch :: acc) r
      | none => none
    | none, _ => none
  | acc, '\\' :: c :: r =>
    match escape? c with
    | some ch => readText (ch :: acc) r
    | none => none
  | acc, c :: r => if c.toNat < 0x20 then none else readText (c :: acc) r
  | _, [] => none

def decimal (cs : List Char) : Nat := cs.foldl (fun n c => n * 10 + (c.toNat - '0'.toNat)) 0

def readDigits (cs : List Char) : Option (List Char × List Char) :=
  match cs.takeWhile Char.isDigit with
  | [] => none
  | ds => some (ds, cs.dropWhile Char.isDigit)

def readFraction : List Char → Option (List Char × List Char)
  | '.' :: r => (readDigits r).map fun (ds, r) => ('.' :: ds, r)
  | r => some ([], r)

def readExponent : List Char → Option (List Char × List Char)
  | c :: r =>
    if c = 'e' ∨ c = 'E' then
      let (sign, r) := match r with
        | '+' :: r => (['+'], r)
        | '-' :: r => (['-'], r)
        | r => ([], r)
      (readDigits r).map fun (ds, r) => (c :: sign ++ ds, r)
    else some ([], c :: r)
  | [] => some ([], [])

/-- A number. It is an integer if it has neither fraction nor exponent and fits 64 bits, signed or not;
minus zero is none. -/
def readNumber (cs : List Char) : Option (Data × List Char) := do
  let (negative, r) := match cs with
    | '-' :: r => (true, r)
    | r => (false, r)
  let (whole, r) ← readDigits r
  if whole.length > 1 ∧ whole.head? = some '0' then none
  let (fraction, r) ← readFraction r
  let (exponent, r) ← readExponent r
  let n := decimal whole
  let literal := String.ofList ((if negative then ['-'] else []) ++ whole ++ fraction ++ exponent)
  if fraction.isEmpty ∧ exponent.isEmpty then
    if negative then
      if 0 < n ∧ n ≤ 0x8000000000000000 then return (.int (-n), r) else return (.float literal, r)
    else if n ≤ 0xffffffffffffffff then return (.int n, r)
    else return (.float literal, r)
  else return (.float literal, r)

/-- Adds a field in front, in place of any other of that name. -/
def setField (name : String) (d : Data) (fields : List (String × Data)) : List (String × Data) :=
  (name, d) :: fields.filter (·.1 ≠ name)

mutual

def readValue : Nat → List Char → Option (Data × List Char)
  | 0, _ => none
  | fuel + 1, cs =>
    match skipBlank cs with
    | 'n' :: 'u' :: 'l' :: 'l' :: r => some (.null, r)
    | 't' :: 'r' :: 'u' :: 'e' :: r => some (.bool true, r)
    | 'f' :: 'a' :: 'l' :: 's' :: 'e' :: r => some (.bool false, r)
    | '"' :: r => (readText [] r).map fun (s, r) => (.text s, r)
    | '[' :: r =>
      match skipBlank r with
      | ']' :: r => some (.list [], r)
      | r => readItems fuel [] r
    | '\x7b' :: r =>
      match skipBlank r with
      | '\x7d' :: r => some (.map [], r)
      | r => readFields fuel [] r
    | r => readNumber r

/-- The rest of a list, from an item on. -/
def readItems : Nat → List Data → List Char → Option (Data × List Char)
  | 0, _, _ => none
  | fuel + 1, items, cs =>
    match readValue fuel cs with
    | none => none
    | some (d, r) =>
      match skipBlank r with
      | ',' :: r => readItems fuel (d :: items) r
      | ']' :: r => some (.list (d :: items).reverse, r)
      | _ => none

/-- The rest of a map, from a field on. Of several fields of one name, the last stays. -/
def readFields : Nat → List (String × Data) → List Char → Option (Data × List Char)
  | 0, _, _ => none
  | fuel + 1, fields, cs =>
    match skipBlank cs with
    | '"' :: r =>
      match readText [] r with
      | none => none
      | some (name, r) =>
        match skipBlank r with
        | ':' :: r =>
          match readValue fuel r with
          | none => none
          | some (d, r) =>
            match skipBlank r with
            | ',' :: r => readFields fuel (setField name d fields) r
            | '\x7d' :: r => some (.map (setField name d fields).reverse, r)
            | _ => none
        | _ => none
    | _ => none

end

def read (s : String) : Option Data :=
  let cs := s.toList
  match readValue (2 * cs.length + 2) cs with
  | none => none
  | some (d, r) => if (skipBlank r).isEmpty then some d else none

def hexChar (n : Nat) : Char := (Nat.digitChar n)

def escaped (c : Char) : List Char :=
  if c = '"' then ['\\', '"']
  else if c = '\\' then ['\\', '\\']
  else if c = '\x08' then ['\\', 'b']
  else if c = '\x0c' then ['\\', 'f']
  else if c = '\n' then ['\\', 'n']
  else if c = '\r' then ['\\', 'r']
  else if c = '\t' then ['\\', 't']
  else if c.toNat < 0x20 then
    ['\\', 'u', '0', '0', hexChar (c.toNat / 16), hexChar (c.toNat % 16)]
  else [c]

def quoted (s : String) : String := "\"" ++ String.ofList (s.toList.flatMap escaped) ++ "\""

mutual

/-- A value on one line, without blanks. -/
def write : Data → String
  | .null => "null"
  | .bool true => "true"
  | .bool false => "false"
  | .int n => toString n
  | .float literal => literal
  | .moment literal => quoted literal
  | .text s => quoted s
  | .list items => "[" ++ ",".intercalate (writeItems items) ++ "]"
  | .map fields => "\x7b" ++ ",".intercalate (writeFields fields) ++ "\x7d"

def writeItems : List Data → List String
  | [] => []
  | d :: ds => write d :: writeItems ds

def writeFields : List (String × Data) → List String
  | [] => []
  | (name, d) :: fs => (quoted name ++ ":" ++ write d) :: writeFields fs

end

/-- Lines between two brackets, indented one step deeper than those. -/
def block (indent : Nat) (opening closing : String) (lines : List String) : String :=
  let margin := String.ofList (List.replicate indent ' ')
  opening ++ ",".intercalate (lines.map ("\n  " ++ margin ++ ·)) ++ "\n" ++ margin ++ closing

mutual

/-- A value with each item and field on a line of its own, indented by two blanks. -/
def writeIndented (indent : Nat) : Data → String
  | .list [] => "[]"
  | .list items => block indent "[" "]" (indentedItems indent items)
  | .map [] => "\x7b\x7d"
  | .map fields => block indent "\x7b" "\x7d" (indentedFields indent fields)
  | d => write d

def indentedItems (indent : Nat) : List Data → List String
  | [] => []
  | d :: ds => writeIndented (indent + 2) d :: indentedItems indent ds

def indentedFields (indent : Nat) : List (String × Data) → List String
  | [] => []
  | (name, d) :: fs =>
    (quoted name ++ ": " ++ writeIndented (indent + 2) d) :: indentedFields indent fs

end

end Mastership.Data.Json
