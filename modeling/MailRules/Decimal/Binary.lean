set_option autoImplicit false

/-!
# Binary fractions

A finite float is a whole number times a power of two. `Binary.ofFloat?` reads the two numbers off
the float's bits, so that everything about its exact value can be said with whole numbers.
-/

namespace MailRules.Decimal

/-- The magnitude `mantissa * 2 ^ exponent` of a finite float, and its sign. -/
structure Binary where
  negative : Bool
  mantissa : Nat
  exponent : Int
  /-- Whether the next smaller float is only half as far away as the next larger one. -/
  narrowBelow : Bool
  deriving Repr, DecidableEq

/-- The exact value of a finite float; infinities and NaN have none. -/
def Binary.ofFloat? (x : Float) : Option Binary :=
  let bits : Nat := x.toBits.toNat
  let negative : Bool := bits / Nat.pow 2 63 == 1
  let biased : Nat := bits / Nat.pow 2 52 % 2048
  let fraction : Nat := bits % Nat.pow 2 52
  if biased == 2047 then none
  else if biased == 0 then some ⟨negative, fraction, -1074, false⟩
  else some ⟨negative, fraction + Nat.pow 2 52, (biased : Int) - 1075, fraction == 0 && 1 < biased⟩

/-- The power of two that multiplies the mantissa. -/
def Binary.scaleUp (b : Binary) : Nat := Nat.pow 2 b.exponent.toNat

/-- The power of two that divides the mantissa. -/
def Binary.scaleDown (b : Binary) : Nat := Nat.pow 2 (-b.exponent).toNat

/-- A quotient rounded to the nearest whole number, halves to the even one. -/
def roundHalfEven (num den : Nat) : Nat :=
  let q := num / den
  let twice := 2 * (num % den)
  if twice < den then q
  else if den < twice then q + 1
  else q + q % 2

/-- The number of decimal digits of a number; zero has one. -/
def digitCount (n : Nat) : Nat :=
  (Nat.toDigits 10 n).length

/-- Whether a float is a number that is neither infinite nor NaN. -/
def isFinite (x : Float) : Bool :=
  (Binary.ofFloat? x).isSome

/-- The whole number that a float is, if it is one. -/
def whole? (x : Float) : Option Int :=
  match Binary.ofFloat? x with
  | none => none
  | some b =>
    let num := b.mantissa * b.scaleUp
    if num % b.scaleDown == 0 then
      let n : Int := (num / b.scaleDown : Nat)
      some (if b.negative then -n else n)
    else none

/-- A float rounded toward zero. -/
def truncate? (x : Float) : Option Int :=
  (Binary.ofFloat? x).map fun b =>
    let n : Int := (b.mantissa * b.scaleUp / b.scaleDown : Nat)
    if b.negative then -n else n

example : roundHalfEven 5 2 = 2 ∧ roundHalfEven 7 2 = 4 ∧ roundHalfEven 8 3 = 3 := by decide
example : whole? 12.0 = some 12 ∧ whole? (-0.5) = none := by decide +kernel

end MailRules.Decimal
