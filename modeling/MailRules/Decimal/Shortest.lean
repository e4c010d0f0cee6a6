import MailRules.Decimal.Binary

set_option autoImplicit false

/-!
# Shortest decimals

The text of a float is the shortest decimal that reads back as the same float, and of those the one
nearest to its exact value. The search runs through 1, 2, … 17 digits. On each grid of decimals it
tests the two neighbours of the value against the interval of numbers that round to the float; all
arithmetic is exact.

`FloatStyle` holds what a format decides for itself: where positional notation ends, and how an
infinity and NaN are spelled.
-/

namespace MailRules.Decimal

/-- The decimal `digits * 10 ^ exponent`. -/
structure Scaled where
  digits : Nat
  exponent : Int
  deriving Repr, DecidableEq

/-- Four times the ends of the interval of numbers that round to the float, in units of
`2 ^ exponent`. -/
def Binary.interval (b : Binary) : Nat × Nat :=
  (4 * b.mantissa - (if b.narrowBelow then 1 else 2), 4 * b.mantissa + 2)

/-- The position of the leading decimal digit: the value lies from `10 ^ (p - 1)` up to `10 ^ p`. -/
def Binary.magnitude (b : Binary) : Int :=
  (digitCount (b.mantissa * b.scaleUp * Nat.pow 10 400 / b.scaleDown) : Int) - 400

/-- The point of the grid `10 ^ k` that reads back as the float and is nearest to it, if one of the
two neighbours of the value does; of two equally near ones, the even one. -/
def Binary.onGrid? (b : Binary) (k : Int) : Option Nat :=
  let up := b.scaleUp * Nat.pow 10 (-k).toNat
  let down := b.scaleDown * Nat.pow 10 k.toNat
  let low := b.mantissa * up / down
  let (least, greatest) := b.interval
  let closed := b.mantissa % 2 == 0
  let fits (c : Nat) : Bool :=
    let v := 4 * c * down
    if closed then least * up ≤ v && v ≤ greatest * up else least * up < v && v < greatest * up
  let twice := 2 * (b.mantissa * up - low * down)
  let nearLow : Bool := twice < down || (twice == down && low % 2 == 0)
  match fits low, fits (low + 1) with
  | true, true => some (if nearLow then low else low + 1)
  | true, false => some low
  | false, true => some (low + 1)
  | false, false => none

/-- The first hit among grids of `n`, `n + 1`, … digits, `fuel` grids at most; `leading` is the
position of the leading digit. -/
def Binary.search (b : Binary) (leading : Int) (n : Nat) : (fuel : Nat) → Scaled
  | 0 => ⟨b.mantissa, b.exponent⟩
  | fuel + 1 =>
    let k := leading - n
    match b.onGrid? k with
    | some c => ⟨c, k⟩
    | none => b.search leading (n + 1) fuel

/-- A decimal without trailing zeros in its digits. -/
def Scaled.strip (d : Scaled) : (fuel : Nat) → Scaled
  | 0 => d
  | fuel + 1 =>
    if d.digits != 0 && d.digits % 10 == 0 then
      Scaled.strip ⟨d.digits / 10, d.exponent + 1⟩ fuel
    else d

/-- The shortest decimal that reads back as the float. -/
def Binary.shortest (b : Binary) : Scaled :=
  if b.mantissa == 0 then ⟨0, 0⟩ else (b.search b.magnitude 1 17).strip 20

/-- What a format of floats decides. -/
structure FloatStyle where
  /-- Positional notation is used while the point stands after this many digits or fewer … -/
  lastWhole : Int
  /-- … and while fewer than this many zeros follow the point before the first digit. -/
  leadingZeros : Int
  infinity : String
  nan : String

/-- The digits of a number as characters. -/
def digitsOf (n : Nat) : List Char :=
  Nat.toDigits 10 n

/-- A decimal in positional notation with at least one digit on each side of the point, or with an
exponent of at least two digits when the point would stand too far out. -/
def Scaled.format (style : FloatStyle) (d : Scaled) : List Char :=
  let ds := digitsOf d.digits
  let count : Int := ds.length
  let point := count + d.exponent
  if d.digits == 0 then "0.0".toList
  else if -style.leadingZeros < point && point ≤ style.lastWhole then
    if point ≤ 0 then '0' :: '.' :: (List.replicate (-point).toNat '0' ++ ds)
    else if count ≤ point then ds ++ List.replicate (point - count).toNat '0' ++ ['.', '0']
    else ds.take point.toNat ++ '.' :: ds.drop point.toNat
  else
    let tens := point - 1
    let written := digitsOf tens.natAbs
    let width := if written.length < 2 then '0' :: written else written
    let lead := match ds with
      | [] => []
      | [c] => [c]
      | c :: r => c :: '.' :: r
    lead ++ 'e' :: (if tens < 0 then '-' else '+') :: width

/-- A float in a format's style. -/
def formatFloat (style : FloatStyle) (x : Float) : String :=
  match Binary.ofFloat? x with
  | some b =>
    let body := b.shortest.format style
    String.ofList (if b.negative then '-' :: body else body)
  | none =>
    if x == x then (if x < 0 then "-" ++ style.infinity else style.infinity) else style.nan

/-- Floats in messages: positional from `0.0001` up to sixteen digits. -/
def plainStyle : FloatStyle := ⟨16, 4, "inf", "nan"⟩

/-- A float as messages show it. -/
def showFloat (x : Float) : String :=
  formatFloat plainStyle x

example : showFloat 0.1 = "0.1" := by decide +kernel
example : showFloat 1e16 = "1e+16" ∧ showFloat 1e-7 = "1e-07" := by decide +kernel
example : showFloat 123456.789 = "123456.789" ∧ showFloat (-0.0) = "-0.0" := by decide +kernel

end MailRules.Decimal
