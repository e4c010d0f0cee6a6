import MailRules.Decimal.Shortest

set_option autoImplicit false

/-!
# The calendar and the clock

The calendar is the Gregorian one for all years. Days are counted from the first of January 1970 or
of the year nought, and dates are found from their counts; `timeFault?` says what is wrong with a
date and a time of day that no calendar or clock shows.
-/

namespace MailRules

/-! ## Dates -/

/-- A day of the calendar. -/
structure Date where
  year : Int
  month : Nat
  day : Nat
  deriving Repr, DecidableEq

/-- The day that comes so many days after the first of January 1970. The count runs over eras of
400 years that start in March, so that the leap day is the last of its year. -/
def Date.ofDays (days : Int) : Date :=
  let z := days + 719468
  let era := z.fdiv 146097
  let dayOfEra := (z.fmod 146097).toNat
  let yearOfEra := (dayOfEra - dayOfEra / 1460 + dayOfEra / 36524 - dayOfEra / 146096) / 365
  let dayOfYear := dayOfEra - (365 * yearOfEra + yearOfEra / 4 - yearOfEra / 100)
  let m := (5 * dayOfYear + 2) / 153
  let day := dayOfYear - (153 * m + 2) / 5 + 1
  let month := if m < 10 then m + 3 else m - 9
  let year := (yearOfEra : Int) + era * 400 + (if month ≤ 2 then 1 else 0)
  ⟨year, month, day⟩

example : Date.ofDays 0 = ⟨1970, 1, 1⟩ ∧ Date.ofDays (-1) = ⟨1969, 12, 31⟩ := by decide
example : Date.ofDays 11016 = ⟨2000, 2, 29⟩ ∧ Date.ofDays 47541 = ⟨2100, 3, 1⟩ := by decide

namespace Calendar

/-- Whether a year has a leap day. -/
def isLeap (year : Nat) : Bool :=
  year % 4 = 0 && (year % 100 != 0 || year % 400 = 0)

/-- The number of days in a month. -/
def daysIn (year month : Nat) : Nat :=
  if month = 2 then if isLeap year then 29 else 28
  else if [4, 6, 9, 11].contains month then 30
  else 31

/-- The days from the first of January of the year nought to a date. -/
def dayNumber (year month day : Nat) : Nat :=
  let before := if year = 0 then 0 else year * 365 + (year - 1) / 4 - (year - 1) / 100 +
    (year - 1) / 400 + 1
  let months := (List.range month).tail.foldl (fun n m => n + daysIn year m) 0
  before + months + day - 1

/-- The count of the first of January 1970 among the days of `dayNumber`. -/
def epoch : Nat := dayNumber 1970 1 1

/-- The day of the week of a day of `dayNumber`: Monday is nought. -/
def weekday (day : Nat) : Nat :=
  (day + 5) % 7

/-! ## Weeks

Weeks start on Mondays, and the first week of a year is the one that has the fourth of January. -/

/-- The number of weeks of a year. -/
def weeksIn (year : Nat) : Nat :=
  let first := weekday (dayNumber year 1 1)
  if first = 3 || (first = 2 && isLeap year) then 53 else 52

/-- The date of a day of a week of a year, all counted from one. -/
def dateOfWeek (year week day : Nat) : Date :=
  let fourth := dayNumber year 1 4
  .ofDays ((fourth - weekday fourth + (week - 1) * 7 + (day - 1) : Nat) - (epoch : Int))

example : weekday epoch = 3 ∧ epoch = 719528 := by decide
example : dateOfWeek 2020 53 7 = ⟨2021, 1, 3⟩ ∧ dateOfWeek 2019 1 1 = ⟨2018, 12, 31⟩ := by
  decide +kernel
example : weeksIn 2020 = 53 ∧ weeksIn 2021 = 52 := by decide +kernel

end Calendar

/-! ## Faults of times -/

/-- What is wrong with a time. -/
inductive TimeFault
  | year (n : Nat)
  | month
  | day
  | hour
  | minute
  | second
  /-- A zone a day or more away from UTC, by its offset in millionths of a second. -/
  | zone (offset : Int)
  deriving Repr, DecidableEq

/-- The millionths of a second in a day. -/
def microsPerDay : Nat := 86400 * 1000000

/-- A span of millionths of a second as messages show it: whole days, downward, and the seconds and
millionths after them. -/
def showSpan (micros : Int) : String :=
  let days := micros.fdiv microsPerDay
  let rest := (micros.fmod microsPerDay).toNat
  let shown (name : String) (n : Nat) : String :=
    if n = 0 then "" else ", " ++ name ++ "=" ++ String.ofList (Decimal.digitsOf n)
  let sign := if days < 0 then "-" else ""
  let shownDays := sign ++ String.ofList (Decimal.digitsOf days.natAbs)
  "datetime.timedelta(days=" ++ shownDays ++ shown "seconds" (rest / 1000000) ++
    shown "microseconds" (rest % 1000000) ++ ")"

/-- The wording of what is wrong with a time. -/
def TimeFault.message : TimeFault → String
  | year n => "year " ++ String.ofList (Decimal.digitsOf n) ++ " is out of range"
  | month => "month must be in 1..12"
  | day => "day is out of range for month"
  | hour => "hour must be in 0..23"
  | minute => "minute must be in 0..59"
  | second => "second must be in 0..59"
  | zone offset =>
    let span := showSpan offset
    "offset must be a timedelta strictly between -timedelta(hours=24) and timedelta(hours=24), " ++
      s!"not {span}."

/-- What is wrong with a date and a time of day: its zone, by its offset in millionths of a second,
first, and then from the year to the second. -/
def timeFault? (offset : Int) (year month day hour minute second : Nat) : Option TimeFault :=
  if microsPerDay ≤ offset.natAbs then some (.zone offset)
  else if year = 0 || 9999 < year then some (.year year)
  else if month = 0 || 12 < month then some .month
  else if day = 0 || Calendar.daysIn year month < day then some .day
  else if 23 < hour then some .hour
  else if 59 < minute then some .minute
  else if 59 < second then some .second
  else none

end MailRules
