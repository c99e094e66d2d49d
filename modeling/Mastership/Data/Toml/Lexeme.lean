import Mastership.Data.Json

namespace Mastership.Data.Toml

def isBlank (c : Char) : Bool := c == ' ' || c == '\t'

/-- Characters that may stand in comments and, quotes and backslashes apart, in quoted texts:
everything but control characters other than the tabulator. -/
def isPlain (c : Char) : Bool := c == '\t' || (0x20 ≤ c.toNat && c.toNat ≠ 0x7F)

def skipBlank (cs : List Char) : List Char := cs.dropWhile isBlank

def newline? : List Char → Option (List Char)
  | '\n' :: r => some r
  | '\r' :: '\n' :: r => some r
  | _ => none

def skipComment : List Char → List Char
  | '#' :: r => r.dropWhile isPlain
  | r => r

/-- The end of a line or of the text, after blanks and perhaps a comment. -/
def lineEnd? (cs : List Char) : Option (List Char) :=
  match skipComment (skipBlank cs) with
  | [] => some []
  | r => newline? r

def skipFolded : List Char → List Char
  | '\r' :: '\n' :: r => skipFolded r
  | c :: r => if c = '\n' ∨ isBlank c then skipFolded r else c :: r
  | [] => []

/-- Skips blanks, comments and ends of lines, as they may stand in a list. -/
def skipLoose : Nat → List Char → List Char
  | 0, cs => cs
  | fuel + 1, cs =>
    match skipBlank cs with
    | '#' :: r =>
      match newline? (r.dropWhile isPlain) with
      | some r => skipLoose fuel r
      | none => '#' :: r
    | r =>
      match newline? r with
      | some r => skipLoose fuel r
      | none => r

/-- What a backslash and the following characters stand for. -/
def escape? : List Char → Option (Char × List Char)
  | 'u' :: a :: b :: c :: d :: r =>
    (Json.hex? [a, b, c, d]).bind fun n => (Json.char? n).map (·, r)
  | 'U' :: a :: b :: c :: d :: e :: f :: g :: h :: r =>
    (Json.hex? [a, b, c, d, e, f, g, h]).bind fun n => (Json.char? n).map (·, r)
  | '/' :: _ => none
  | c :: r => (Json.escape? c).map (·, r)
  | [] => none

/-- The rest of a quoted text of one line. -/
def basicText : Nat → List Char → List Char → Option (List Char × List Char)
  | 0, _, _ => none
  | _ + 1, acc, '"' :: r => some (acc.reverse, r)
  | fuel + 1, acc, '\\' :: r =>
    match escape? r with
    | some (c, r) => basicText fuel (c :: acc) r
    | none => none
  | fuel + 1, acc, c :: r => if isPlain c then basicText fuel (c :: acc) r else none
  | _ + 1, _, [] => none

/-- The rest of a text between apostrophes, in which nothing is escaped. -/
def literalText : List Char → List Char → Option (List Char × List Char)
  | acc, '\x27' :: r => some (acc.reverse, r)
  | acc, c :: r => if isPlain c then literalText (c :: acc) r else none
  | _, [] => none

/-- The end of a text of several lines, after its three closing quotes: up to two more quotes in
front of them belong to the text. -/
def closeQuotes (quote : Char) (acc : List Char) (r : List Char) : List Char × List Char :=
  let extra := min 2 (r.takeWhile (· = quote)).length
  ((List.replicate extra quote ++ acc).reverse, r.drop extra)

/-- Skips blanks, the end of a line, and all blanks and ends of lines after it. -/
def foldLine? (cs : List Char) : Option (List Char) :=
  (newline? (skipBlank cs)).map skipFolded

/-- The rest of a quoted text of several lines. A backslash at the end of a line joins it to the
next text. -/
def basicTexts : Nat → List Char → List Char → Option (List Char × List Char)
  | 0, _, _ => none
  | _ + 1, acc, '"' :: '"' :: '"' :: r => some (closeQuotes '"' acc r)
  | fuel + 1, acc, '\\' :: r =>
    match foldLine? r with
    | some r => basicTexts fuel acc r
    | none =>
      match escape? r with
      | some (c, r) => basicTexts fuel (c :: acc) r
      | none => none
  | fuel + 1, acc, c :: r =>
    match newline? (c :: r) with
    | some r => basicTexts fuel ('\n' :: acc) r
    | none => if isPlain c then basicTexts fuel (c :: acc) r else none
  | _ + 1, _, [] => none

/-- The rest of a text of several lines between apostrophes. -/
def literalTexts : Nat → List Char → List Char → Option (List Char × List Char)
  | 0, _, _ => none
  | _ + 1, acc, '\x27' :: '\x27' :: '\x27' :: r => some (closeQuotes '\x27' acc r)
  | fuel + 1, acc, c :: r =>
    match newline? (c :: r) with
    | some r => literalTexts fuel ('\n' :: acc) r
    | none => if isPlain c then literalTexts fuel (c :: acc) r else none
  | _ + 1, _, [] => none

def skipNewline (cs : List Char) : List Char := (newline? cs).getD cs

/-- A quoted text of either kind, of one line or several. -/
def quotedText? (cs : List Char) : Option (String × List Char) :=
  let read := match cs with
    | '"' :: '"' :: '"' :: r => basicTexts (r.length + 1) [] (skipNewline r)
    | '"' :: r => basicText (r.length + 1) [] r
    | '\x27' :: '\x27' :: '\x27' :: r => literalTexts (r.length + 1) [] (skipNewline r)
    | '\x27' :: r => literalText [] r
    | _ => none
  read.map fun (s, r) => (String.ofList s, r)

/-- Digits after a first one, in groups that single underscores may divide. -/
def moreDigits (isDigit : Char → Bool) : List Char → List Char × List Char
  | '_' :: c :: r =>
    if isDigit c then
      let (ds, r) := moreDigits isDigit r
      (c :: ds, r)
    else ([], '_' :: c :: r)
  | c :: r =>
    if isDigit c then
      let (ds, r) := moreDigits isDigit r
      (c :: ds, r)
    else ([], c :: r)
  | [] => ([], [])

/-- At least one digit, without the underscores between. -/
def digits? (isDigit : Char → Bool) : List Char → Option (List Char × List Char)
  | c :: r =>
    if isDigit c then
      let (ds, r) := moreDigits isDigit r
      some (c :: ds, r)
    else none
  | [] => none

def sign : List Char → Bool × List Char
  | '+' :: r => (false, r)
  | '-' :: r => (true, r)
  | r => (false, r)

/-- A decimal number without leading zeros. -/
def decimal? : List Char → Option (List Char × List Char)
  | '0' :: r => some (['0'], r)
  | r => digits? Char.isDigit r

/-- An integer that fits 64 bits with sign. -/
def fit? (n : Int) : Option Data :=
  if -0x8000000000000000 ≤ n ∧ n ≤ 0x7fffffffffffffff then some (.int n) else none

def ofDigits (base : Nat) (ds : List Char) : Nat :=
  ds.foldl (fun n c => n * base + (Json.hexDigit? c).getD 0) 0

/-- An integer, decimal or with the letter of its base. -/
def integer? : List Char → Option (Data × List Char)
  | '0' :: 'x' :: r => based 16 (fun c => (Json.hexDigit? c).isSome) r
  | '0' :: 'o' :: r => based 8 (fun c => '0' ≤ c && c ≤ '7') r
  | '0' :: 'b' :: r => based 2 (fun c => c == '0' || c == '1') r
  | r =>
    let (negative, r) := sign r
    (decimal? r).bind fun (ds, r) =>
      let n : Int := ofDigits 10 ds
      (fit? (if negative then -n else n)).map (·, r)
where
  based (base : Nat) (isDigit : Char → Bool) (r : List Char) : Option (Data × List Char) :=
    (digits? isDigit r).bind fun (ds, r) => (fit? (ofDigits base ds)).map (·, r)

/-- Whether `n` times ten to the power of `e` rounds to more than any float of 64 bits. -/
def overflows (n : Nat) (e : Int) : Bool :=
  let size : Int := (Nat.toDigits 10 n).length + e
  if n = 0 ∨ size < 309 then false
  else if 309 < size then true
  else if 0 ≤ e then Nat.pow 2 1024 - Nat.pow 2 970 ≤ n * Nat.pow 10 e.toNat
  else (Nat.pow 2 1024 - Nat.pow 2 970) * Nat.pow 10 (-e).toNat ≤ n

def fraction : List Char → Option (List Char) × List Char
  | '.' :: r =>
    match digits? Char.isDigit r with
    | some (ds, r) => (some ds, r)
    | none => (none, '.' :: r)
  | r => (none, r)

def exponent : List Char → Option Int × List Char
  | c :: r =>
    if c = 'e' ∨ c = 'E' then
      let (negative, r') := sign r
      match digits? Char.isDigit r' with
      | some (ds, r') => (some (if negative then -(ofDigits 10 ds) else ofDigits 10 ds), r')
      | none => (none, c :: r)
    else (none, c :: r)
  | [] => (none, [])

/-- A number with a fraction, an exponent or both, unless it exceeds all floats. -/
def float? (cs : List Char) : Option (Data × List Char) := do
  let (negative, r) := sign cs
  let (whole, r) ← decimal? r
  let (part, r) := fraction r
  let (power, r) := exponent r
  if part.isNone ∧ power.isNone then none
  let n := ofDigits 10 (whole ++ part.getD [])
  let e := power.getD 0 - (part.getD []).length
  if ¬ negative ∧ overflows n e then none
  return (.float (String.ofList (cs.take (cs.length - r.length))), r)

/-- Infinity or the absence of a number, with or without sign. -/
def special? (cs : List Char) : Option (Data × List Char) :=
  match (sign cs).2 with
  | 'i' :: 'n' :: 'f' :: r => some (.float (String.ofList (cs.take (cs.length - r.length))), r)
  | 'n' :: 'a' :: 'n' :: r => some (.float (String.ofList (cs.take (cs.length - r.length))), r)
  | _ => none

def fixed? (width : Nat) (cs : List Char) : Option (Nat × List Char) :=
  let ds := cs.take width
  if ds.length = width ∧ ds.all Char.isDigit then some (ofDigits 10 ds, cs.drop width) else none

def within? (low high : Nat) (cs : List Char) : Option (Nat × List Char) :=
  (fixed? 2 cs).bind fun (n, r) => if low ≤ n ∧ n ≤ high then some (n, r) else none

def expect? (c : Char) : List Char → Option (List Char)
  | c' :: r => if c' = c then some r else none
  | [] => none

def isLeap (year : Nat) : Bool := year % 4 = 0 && (year % 100 ≠ 0 || year % 400 = 0)

def daysInMonth (year month : Nat) : Nat :=
  if month = 2 then (if isLeap year then 29 else 28)
  else if month = 4 ∨ month = 6 ∨ month = 9 ∨ month = 11 then 30
  else 31

/-- A day: year, month and day of the month. -/
def day? (cs : List Char) : Option (List Char) := do
  let (year, r) ← fixed? 4 cs
  let r ← expect? '-' r
  let (month, r) ← within? 1 12 r
  let r ← expect? '-' r
  let (_, r) ← within? 1 (daysInMonth year month) r
  return r

/-- A time of day, down to seconds or a fraction of them. -/
def time? (cs : List Char) : Option (List Char) := do
  let (_, r) ← within? 0 23 cs
  let r ← expect? ':' r
  let (_, r) ← within? 0 59 r
  let r ← expect? ':' r
  let (_, r) ← within? 0 60 r
  match r with
  | '.' :: r' =>
    if (r'.takeWhile Char.isDigit).isEmpty then return r
    else return r'.dropWhile Char.isDigit
  | r => return r

/-- The distance of a place's time from the common one. -/
def offset? : List Char → Option (List Char)
  | 'Z' :: r => some r
  | 'z' :: r => some r
  | c :: r =>
    if c = '+' ∨ c = '-' then do
      let (_, r) ← within? 0 23 r
      let r ← expect? ':' r
      let (_, r) ← within? 0 59 r
      return r
    else none
  | [] => none

/-- What follows a day: a time, perhaps with an offset, or nothing. -/
def timeOfDay : List Char → List Char
  | c :: r =>
    if c = 'T' ∨ c = 't' ∨ c = ' ' then
      match time? r with
      | some r => (offset? r).getD r
      | none => c :: r
    else c :: r
  | [] => []

/-- A moment: a day, a day with a time, or a time. -/
def moment? (cs : List Char) : Option (Data × List Char) :=
  let rest := match day? cs with
    | some r => some (timeOfDay r)
    | none => time? cs
  rest.map fun r => (.moment (String.ofList (cs.take (cs.length - r.length))), r)

def numeral? (cs : List Char) : Option (Data × List Char) :=
  moment? cs <|> float? cs <|> special? cs <|> integer? cs

end Mastership.Data.Toml
