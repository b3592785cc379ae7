/-!
Dates and times of day from a count of seconds.
-/

namespace CallAtlas.Calendar

structure Date where
  year : Nat
  month : Nat
  day : Nat
  deriving DecidableEq

/-- The date a number of days after the first of March of the year 0. Years are counted from March, so that
a leap day is the last of its year. -/
def Date.ofDays (days : Nat) : Date :=
  let era := days / 146097
  let dayOfEra := days % 146097
  let yearOfEra := (dayOfEra - dayOfEra / 1460 + dayOfEra / 36524 - dayOfEra / 146096) / 365
  let dayOfYear := dayOfEra - (365 * yearOfEra + yearOfEra / 4 - yearOfEra / 100)
  let m := (5 * dayOfYear + 2) / 153
  let month := if m < 10 then m + 3 else m - 9
  { year := 400 * era + yearOfEra + (if month ≤ 2 then 1 else 0)
    month := month
    day := dayOfYear - (153 * m + 2) / 5 + 1 }

def monthNames : List String :=
  ["Jan", "Feb", "Mar", "Apr", "May", "Jun", "Jul", "Aug", "Sep", "Oct", "Nov", "Dec"]

def twoDigits (n : Nat) : String := if n < 10 then "0" ++ toString n else toString n

/-- The days from the first of March of the year 0 to the first of January 1970. -/
def epoch : Nat := 719468

def stamp (seconds : Nat) : String :=
  let d := Date.ofDays (seconds / 86400 + epoch)
  let time := seconds % 86400
  let clock := [time / 3600, time / 60 % 60, time % 60].map twoDigits
  (monthNames[d.month - 1]?).getD "" ++ " " ++ twoDigits d.day ++ ", " ++ toString d.year ++ " " ++
    String.intercalate ":" clock

end CallAtlas.Calendar
