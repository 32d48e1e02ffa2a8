/-!
# Times

The notation of times in records: date and time of day in universal time.

## Main Definitions

* `Clock.dateOf` - the date of a day, counted from the beginning of 1970
* `Clock.render` - the notation of a number of seconds since then

## Design Notes

A year is counted from March, so that a leap day is its last day; the months then have lengths that
repeat every five months.
-/

namespace Questionnaire.Clock

/-- The days from the first of March of the year 0 to the beginning of 1970. -/
def epochDays : Nat := 719468

/-- The days of four hundred years. -/
def eraDays : Nat := 146097

/-- The year within four hundred years of a day within them. -/
def yearOfEra (day : Nat) : Nat := (day - day / 1460 + day / 36524 - day / 146096) / 365

/-- The year, the month and the day of a day counted from the beginning of 1970. -/
def dateOf (days : Nat) : Nat × Nat × Nat :=
  let shifted := days + epochDays
  let era := shifted / eraDays
  let day := shifted % eraDays
  let year := yearOfEra day
  let dayOfYear := day - (365 * year + year / 4 - year / 100)
  let month := (5 * dayOfYear + 2) / 153
  let dayOfMonth := dayOfYear - (153 * month + 2) / 5 + 1
  let calendarMonth := if month < 10 then month + 3 else month - 9
  (year + 400 * era + (if calendarMonth ≤ 2 then 1 else 0), calendarMonth, dayOfMonth)

/-- A number with at least `width` digits. -/
def digits (width n : Nat) : String :=
  String.ofList (List.replicate (width - (Nat.toDigits 10 n).length) '0' ++ Nat.toDigits 10 n)

/-- The notation of a number of seconds since the beginning of 1970. -/
def render (seconds : Nat) : String :=
  let (year, month, day) := dateOf (seconds / 86400)
  let rest := seconds % 86400
  digits 4 year ++ "-" ++ digits 2 month ++ "-" ++ digits 2 day ++ "T" ++ digits 2 (rest / 3600)
    ++ ":" ++ digits 2 (rest / 60 % 60) ++ ":" ++ digits 2 (rest % 60) ++ "+00:00"

theorem render_zero : render 0 = "1970-01-01T00:00:00+00:00" := by decide

theorem dateOf_leap_day : dateOf 11016 = (2000, 2, 29) := by decide

end Questionnaire.Clock
