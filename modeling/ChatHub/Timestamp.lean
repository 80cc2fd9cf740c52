/-!
Moments of universal time and their text: a date and a time with a fraction of as many groups of
three digits as the moment needs, and a `Z` at the end.
-/

set_option autoImplicit false

namespace ChatHub

/-- A moment, counted from the beginning of 1970. -/
structure Timestamp where
  seconds : Nat
  nanoseconds : Nat
  deriving DecidableEq, Repr

namespace Timestamp

structure Date where
  year : Nat
  month : Nat
  day : Nat
  deriving DecidableEq, Repr

/-- The date of a day, counted from the beginning of 1970. Years are taken to begin in March, so
that a leap day is the last day of its year, and four centuries always have the same length. -/
def dateOf (day : Nat) : Date :=
  let shifted := day + 719468
  let dayOfEra := shifted % 146097
  let yearOfEra := (dayOfEra - dayOfEra / 1460 + dayOfEra / 36524 - dayOfEra / 146096) / 365
  let dayOfYear := dayOfEra - (365 * yearOfEra + yearOfEra / 4 - yearOfEra / 100)
  let march := (5 * dayOfYear + 2) / 153
  let year := 400 * (shifted / 146097) + yearOfEra
  { year := if march < 10 then year else year + 1
    month := if march < 10 then march + 3 else march - 9
    day := dayOfYear - (153 * march + 2) / 5 + 1 }

def padded (width value : Nat) : String :=
  let digits := toString value
  String.ofList (List.replicate (width - digits.length) '0') ++ digits

/-- The fraction of a second in the fewest groups of three digits that are exact. -/
def fraction (nanoseconds : Nat) : String :=
  if nanoseconds = 0 then ""
  else if nanoseconds % 1000000 = 0 then "." ++ padded 3 (nanoseconds / 1000000)
  else if nanoseconds % 1000 = 0 then "." ++ padded 6 (nanoseconds / 1000)
  else "." ++ padded 9 nanoseconds

def text (moment : Timestamp) : String :=
  let date := dateOf (moment.seconds / 86400)
  let second := moment.seconds % 86400
  padded 4 date.year ++ "-" ++ padded 2 date.month ++ "-" ++ padded 2 date.day ++ "T"
    ++ padded 2 (second / 3600) ++ ":" ++ padded 2 (second / 60 % 60) ++ ":"
    ++ padded 2 (second % 60) ++ fraction moment.nanoseconds ++ "Z"

end Timestamp

end ChatHub
