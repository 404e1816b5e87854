import VoiceIndex.Text.Numeral

/-!
# Times as text

A moment since the beginning of 1970 as date and time of day in universal time, the form in
which records are stamped. Fractions of a second are written with as many groups of three
digits as they need.
-/

namespace VoiceIndex.Timestamp

/-- A number in at least this many digits, with zeros in front. -/
def padded (width n : Nat) : String :=
  let digits := Chars.decimal n
  .ofList (.replicate (width - digits.length) '0' ++ digits)

/-- Year, month and day of the day with this number, the first of January 1970 being day 0.
Days are counted in years that begin in March, of which four hundred make a period. -/
def date (day : Nat) : Nat × Nat × Nat :=
  let shifted := day + 719468
  let inPeriod := shifted % 146097
  let year :=
    (inPeriod - inPeriod / 1460 + inPeriod / 36524 - inPeriod / 146096) / 365
  let inYear := inPeriod - (365 * year + year / 4 - year / 100)
  let fromMarch := (5 * inYear + 2) / 153
  let month := if fromMarch < 10 then fromMarch + 3 else fromMarch - 9
  let dayOfMonth := inYear - (153 * fromMarch + 2) / 5 + 1
  (year + shifted / 146097 * 400 + (if month ≤ 2 then 1 else 0), month, dayOfMonth)

/-- The fraction of a second. -/
def fraction (nanoseconds : Nat) : String :=
  if nanoseconds = 0 then ""
  else if nanoseconds % 1000000 = 0 then "." ++ padded 3 (nanoseconds / 1000000)
  else if nanoseconds % 1000 = 0 then "." ++ padded 6 (nanoseconds / 1000)
  else "." ++ padded 9 nanoseconds

/-- The moment so many nanoseconds after the beginning of 1970. -/
def text (nanoseconds : Nat) : String :=
  let seconds := nanoseconds / 1000000000
  let (year, month, day) := date (seconds / 86400)
  let time := seconds % 86400
  padded 4 year ++ "-" ++ padded 2 month ++ "-" ++ padded 2 day ++ "T" ++
    padded 2 (time / 3600) ++ ":" ++ padded 2 (time / 60 % 60) ++ ":" ++ padded 2 (time % 60) ++
    fraction (nanoseconds % 1000000000) ++ "+00:00"

end VoiceIndex.Timestamp
