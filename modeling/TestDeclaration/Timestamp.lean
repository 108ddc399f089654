/-!
# Points in time

A timestamp counts the seconds since the start of 1970. It is shown as a date of the Gregorian
calendar, which is taken to hold for all years, and the time of day in UTC.
-/

namespace TestDeclaration

/-- A point in time, in seconds since the start of 1970. -/
structure Timestamp where
  seconds : Int
  deriving DecidableEq, Repr

namespace Timestamp

/-- A day of the calendar. -/
structure Date where
  year : Int
  month : Nat
  day : Nat
  deriving DecidableEq, Repr

/-- The number of days in a day's four centuries. -/
def daysPerEra : Int := 146097

/-- The date of the day that is some number of days after the first of March of year 0. Years are
counted from March to February within an era of four centuries, so that a leap day is the last
of its year. -/
def Date.ofDays (days : Int) : Date :=
  let era := days / daysPerEra
  let dayOfEra := (days % daysPerEra).toNat
  let yearOfEra := (dayOfEra - dayOfEra / 1460 + dayOfEra / 36524 - dayOfEra / 146096) / 365
  let dayOfYear := dayOfEra - (365 * yearOfEra + yearOfEra / 4 - yearOfEra / 100)
  let monthFromMarch := (5 * dayOfYear + 2) / 153
  let day := dayOfYear - (153 * monthFromMarch + 2) / 5 + 1
  let month := if monthFromMarch < 10 then monthFromMarch + 3 else monthFromMarch - 9
  ⟨era * 400 + yearOfEra + (if month ≤ 2 then 1 else 0), month, day⟩

/-- The number of days from the first of March of year 0 to the first day of 1970. -/
def daysBefore1970 : Int := 719468

/-- The date of a point in time. -/
def date (t : Timestamp) : Date := Date.ofDays (t.seconds / 86400 + daysBefore1970)

/-- A number in decimal with zeros in front, up to some width. -/
def padded (width n : Nat) : String :=
  let digits := Nat.toDigits 10 n
  String.ofList (List.replicate (width - digits.length) '0' ++ digits)

/-- A year with four digits; a year before 0 or after 9999 has a sign. -/
def yearText (year : Int) : String :=
  if year < 0 then "-" ++ padded 4 year.natAbs
  else if 9999 < year then "+" ++ padded 4 year.natAbs
  else padded 4 year.natAbs

/-- A point in time as date and time of day. -/
def text (t : Timestamp) : String :=
  let d := t.date
  let second := (t.seconds % 86400).toNat
  yearText d.year ++ "-" ++ padded 2 d.month ++ "-" ++ padded 2 d.day ++ " " ++
    padded 2 (second / 3600) ++ ":" ++ padded 2 (second / 60 % 60) ++ ":" ++
    padded 2 (second % 60) ++ " UTC"

end Timestamp

end TestDeclaration
