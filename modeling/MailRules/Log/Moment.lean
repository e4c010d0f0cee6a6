import MailRules.Calendar
import MailRules.Decimal.Reading
import MailRules.Decimal.Rounded
import MailRules.Number

set_option autoImplicit false

/-!
# Moments

A moment is a number of seconds since the start of 1970; log lines show it as a date and a time of
day in UTC.
-/

namespace MailRules.Log

/-- A number of seconds since the start of 1970, with microseconds. -/
structure Moment where
  seconds : Int
  micros : Nat := 0
  deriving Repr, DecidableEq

namespace Moment

/-- The whole second in which a float number of seconds lies. -/
def floor? (x : Float) : Option Int :=
  (Decimal.truncate? x).map fun n => if x.floor < x && x < 0 then n - 1 else n

/-- The moment nearest to a float number of seconds; the part after the point is taken in
millionths, halves to the even one. -/
def ofFloat? (x : Float) : Option Moment :=
  (Decimal.truncate? x).bind fun whole =>
    (Decimal.floatOfInt? whole).bind fun start =>
      (Decimal.Binary.ofFloat? ((x - start) * 1000000.0)).map fun b =>
        let n : Int := Decimal.roundHalfEven (b.mantissa * b.scaleUp) b.scaleDown
        let micros := whole * 1000000 + (if b.negative then -n else n)
        ⟨micros.fdiv 1000000, (micros.fmod 1000000).toNat⟩

/-- The whole second in which a number of seconds lies. -/
def second? : Number → Option Int
  | .whole n => some n
  | .real x => floor? x
  | .flag b => some (if b then 1 else 0)

/-- The moment that a number of seconds stands for: whole ones exactly, floats as the nearest. -/
def ofNumber? : Number → Option Moment
  | .whole n => some ⟨n, 0⟩
  | .real x => ofFloat? x
  | .flag b => some ⟨if b then 1 else 0, 0⟩

/-- The date of a moment. -/
def date (t : Moment) : Date :=
  .ofDays (t.seconds.fdiv 86400)

/-- The second of the day of a moment. -/
def secondOfDay (t : Moment) : Nat :=
  (t.seconds.fmod 86400).toNat

/-- The time of day of a moment, to the second. -/
def showTime (t : Moment) : List Char :=
  let s := t.secondOfDay
  Decimal.padDigits 2 (s / 3600) ++ ':' :: (Decimal.padDigits 2 (s / 60 % 60) ++
    ':' :: Decimal.padDigits 2 (s % 60))

/-- Month and day of a moment. -/
def showDay (t : Moment) : List Char :=
  Decimal.padDigits 2 t.date.month ++ '-' :: Decimal.padDigits 2 t.date.day

/-- Whether a year lies so near to 1900 that the distance fits into 32 bits with a sign. -/
def isNear (year : Int) : Bool :=
  -2147481748 ≤ year && year ≤ 2147485547

/-- A moment of the near years to the second, with a blank between date and time. -/
def showPlain? (t : Moment) : Option String :=
  if isNear t.date.year then
    let year := Decimal.digitsOf t.date.year.natAbs
    let year := if t.date.year < 0 then '-' :: year else year
    some (String.ofList (year ++ '-' :: (t.showDay ++ ' ' :: t.showTime)))
  else none

/-- A moment of the years 1 to 9999 to the millisecond, cut off, with its offset from UTC. -/
def showPrecise? (t : Moment) : Option String :=
  let year := t.date.year
  if 1 ≤ year && year ≤ 9999 then
    some (String.ofList (Decimal.padDigits 4 year.natAbs ++ '-' :: (t.showDay ++ 'T' ::
      (t.showTime ++ '.' :: (Decimal.padDigits 3 (t.micros / 1000) ++ "+00:00".toList)))))
  else none

end Moment

end MailRules.Log
