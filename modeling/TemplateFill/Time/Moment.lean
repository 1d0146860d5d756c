/-!
A moment in UTC, in the three spellings in which it is written.
-/

namespace TemplateFill

structure Moment where
  /-- With spaces and a fraction of a second, as in `2025-01-01 12:00:00.250 UTC` -/
  spaced : String
  /-- With separators, as in `2025-01-01T12:00:00Z` -/
  extended : String
  /-- With digits alone, as in `20250101T120000Z` -/
  basic : String

namespace Moment

/-- The year, month and day that lie a number of days after the first of March of the year zero.
Years begin in March here, so that a leap day is the last of its year. -/
def dateOfDays (days : Nat) : Nat × Nat × Nat :=
  let era := days / 146097
  let inEra := days % 146097
  let yearOfEra := (inEra - inEra / 1460 + inEra / 36524 - inEra / 146096) / 365
  let inYear := inEra - (365 * yearOfEra + yearOfEra / 4 - yearOfEra / 100)
  let month := (5 * inYear + 2) / 153
  let day := inYear - (153 * month + 2) / 5 + 1
  let year := era * 400 + yearOfEra
  if month < 10 then (year, month + 3, day) else (year + 1, month - 9, day)

/-- The number of days from the first of March of the year zero to the first of January 1970. -/
def daysBeforeEpoch : Nat := 719468

def padded (width value : Nat) : String :=
  let digits := Nat.toDigits 10 value
  String.ofList (List.replicate (width - digits.length) '0' ++ digits)

def fractionText (nanoseconds : Nat) : String :=
  if nanoseconds = 0 then ""
  else if nanoseconds % 1000000 = 0 then "." ++ padded 3 (nanoseconds / 1000000)
  else if nanoseconds % 1000 = 0 then "." ++ padded 6 (nanoseconds / 1000)
  else "." ++ padded 9 nanoseconds

def ofEpoch (seconds nanoseconds : Nat) : Moment :=
  let (year, month, day) := dateOfDays (seconds / 86400 + daysBeforeEpoch)
  let hour := seconds / 3600 % 24
  let minute := seconds / 60 % 60
  let second := seconds % 60
  let date := padded 4 year ++ "-" ++ padded 2 month ++ "-" ++ padded 2 day
  let time := padded 2 hour ++ ":" ++ padded 2 minute ++ ":" ++ padded 2 second
  { spaced := date ++ " " ++ time ++ fractionText nanoseconds ++ " UTC"
    extended := date ++ "T" ++ time ++ "Z"
    basic := padded 4 year ++ padded 2 month ++ padded 2 day ++ "T" ++ padded 2 hour
      ++ padded 2 minute ++ padded 2 second ++ "Z" }

end Moment

end TemplateFill
