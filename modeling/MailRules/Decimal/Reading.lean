import MailRules.Decimal.Binary

set_option autoImplicit false

/-!
# Reading decimals

From digits to floats. A decimal too large for a float reads as an infinity and one too small as
zero; a whole number that rounds past the largest float has no float at all (`floatOfInt?`).
-/

namespace MailRules.Decimal

/-- Positive infinity. -/
def infinity : Float := 1.0 / 0.0

/-- Not a number. -/
def notANumber : Float := 0.0 / 0.0

/-- The float nearest to `digits * 10 ^ exponent`. -/
def toFloat (negative : Bool) (digits : Nat) (exponent : Int) : Float :=
  let size : Int := digitCount digits + exponent
  let x : Float :=
    if digits == 0 || size < -330 then 0.0
    else if 310 < size then infinity
    else match exponent with
      | .ofNat e => OfScientific.ofScientific digits false e
      | .negSucc e => OfScientific.ofScientific digits true (e + 1)
  if negative then -x else x

/-- The float nearest to a whole number, unless it is too large to have one. -/
def floatOfInt? (n : Int) : Option Float :=
  let x := toFloat (n < 0) n.natAbs 0
  if isFinite x then some x else none

/-- The least whole number that is too large for 64 bits with a sign: `2 ^ 63`. -/
def wordLimit : Int := 9223372036854775808

/-- Whether a whole number fits into 64 bits with a sign. -/
def isWord (n : Int) : Bool :=
  -wordLimit ≤ n && n < wordLimit

/-- The most digits that a whole number may have. -/
def digitLimit : Nat := 4300

/-- Whether a whole number has no more digits than it may have. -/
def isShowable (n : Int) : Bool :=
  n.natAbs < Nat.pow 10 digitLimit

/-- The wording of the refusal of a whole number with so many digits. -/
def tooManyDigits (n : Nat) : String :=
  s!"Exceeds the limit ({digitLimit} digits) for integer string conversion: value has {n} digits; " ++
    "use sys.set_int_max_str_digits() to increase the limit"

/-- The wording of the refusal to write a whole number with too many digits. -/
def tooLongToShow : String :=
  s!"Exceeds the limit ({digitLimit} digits) for integer string conversion; " ++
    "use sys.set_int_max_str_digits() to increase the limit"

/-- The number that digits spell in base ten. -/
def ofDigits (ds : List Nat) : Nat :=
  ds.foldl (fun n d => 10 * n + d) 0

example : toFloat false 1 (-1) == 0.1 := by decide +kernel
example : wordLimit = 2 ^ 63 := by decide
example : toFloat false 1 400 == infinity := by decide +kernel

end MailRules.Decimal
