import MailRules.Decimal.Shortest

set_option autoImplicit false

/-!
# Rounded decimals

A float with a number of digits that is given beforehand: so many places after the point
(`Binary.fixed`), or so many digits after the leading one and an exponent (`Binary.leading`). Both
round the exact value of the float, halves to the even digit.
-/

namespace MailRules.Decimal

/-- The digits of a number, with zeros in front up to a width. -/
def padDigits (width n : Nat) : List Char :=
  let ds := digitsOf n
  List.replicate (width - ds.length) '0' ++ ds

/-- The digits before the point and the given number of digits after it. -/
def Binary.fixed (b : Binary) (places : Nat) : List Char × List Char :=
  let unit := Nat.pow 10 places
  let n := roundHalfEven (b.mantissa * b.scaleUp * unit) b.scaleDown
  (digitsOf (n / unit), if places = 0 then [] else padDigits places (n % unit))

/-- The leading digit and `places` digits after it as one number, and the exponent of the leading
digit. Rounding up to the next power of ten moves the exponent. -/
def Binary.leading (b : Binary) (places : Nat) : Nat × Int :=
  if b.mantissa = 0 then (0, 0)
  else
    let top := b.magnitude - 1
    let shift := (places : Int) - top
    let n := roundHalfEven (b.mantissa * b.scaleUp * Nat.pow 10 shift.toNat)
      (b.scaleDown * Nat.pow 10 (-shift).toNat)
    if digitCount n ≤ places + 1 then (n, top) else (n / 10, top + 1)

/-- The mark of an exponent, its sign, and at least two digits. -/
def exponentText (e : Int) : List Char :=
  'e' :: (if e < 0 then '-' else '+') :: padDigits 2 e.natAbs

/-- Digits around a point, which is left out if nothing follows it and it is not asked for. -/
def pointed (always : Bool) (whole places : List Char) : List Char :=
  if places.isEmpty && !always then whole else whole ++ '.' :: places

/-- A float with exactly so many places after the point. -/
def showFixed (places : Nat) (x : Float) : String :=
  match Binary.ofFloat? x with
  | some b =>
    let (whole, rest) := b.fixed places
    let body := pointed false whole rest
    String.ofList (if b.negative then '-' :: body else body)
  | none => showFloat x

/-- A float with exactly two places after the point. -/
def showHundredths (x : Float) : String :=
  showFixed 2 x

example : showHundredths 1.005 = "1.00" ∧ showHundredths 2.5 = "2.50" := by decide +kernel
example : (Binary.ofFloat? 0.00999996).map (·.leading 3) = some (1000, -2) := by decide +kernel

end MailRules.Decimal
