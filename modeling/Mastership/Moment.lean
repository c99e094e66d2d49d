namespace Mastership.Moment

/-- Year, month and day of the day with a number, day 0 being the first of January 1970. Years are
counted from March, so that a leap day is the last day of its year. -/
def civil (day : Nat) : Nat × Nat × Nat :=
  let z := day + 719468
  let era := z / 146097
  let doe := z % 146097
  let yoe := (doe - doe / 1460 + doe / 36524 - doe / 146096) / 365
  let doy := doe - (365 * yoe + yoe / 4 - yoe / 100)
  let mp := (5 * doy + 2) / 153
  let d := doy - (153 * mp + 2) / 5 + 1
  let m := if mp < 10 then mp + 3 else mp - 9
  let y := yoe + era * 400
  (if m ≤ 2 then y + 1 else y, m, d)

/-- A number with zeros in front, up to a width. -/
def padded (width n : Nat) : String :=
  let digits := Nat.toDigits 10 n
  String.ofList (List.replicate (width - digits.length) '0' ++ digits)

/-- A moment as a date with time. Milliseconds are left out if there are none. -/
def text (ms : Nat) : String :=
  let (y, m, d) := civil (ms / 86400000)
  let s := ms / 1000 % 86400
  let fraction := if ms % 1000 = 0 then "" else "." ++ padded 3 (ms % 1000)
  padded 4 y ++ "-" ++ padded 2 m ++ "-" ++ padded 2 d ++ "T" ++ padded 2 (s / 3600) ++ ":" ++
    padded 2 (s / 60 % 60) ++ ":" ++ padded 2 (s % 60) ++ fraction ++ "Z"

end Mastership.Moment
