import MailRules.Decimal.Numeral
import MailRules.Json.Value

set_option autoImplicit false

/-!
# Ranks

Rows are listed by their ranks. A rank is a whole number, as a rule; but what is given out as one
may be any number, or a text, and is kept as it is. Numbers are compared by their exact values, and
texts come after all numbers, in the order of their characters.

A text that spells a number counts as that number, and a float without a fraction as a whole one.
-/

namespace MailRules.Store

/-- What rows are listed by. -/
inductive Rank
  | whole (n : Int)
  | real (x : Float)
  | text (s : String)
  deriving Inhabited

namespace Rank

/-! ## Order -/

/-- What kinds of ranks are told apart before their values: minus infinity, numbers, infinity, and
texts. -/
def height : Rank → Nat
  | whole _ => 1
  | real x => if Decimal.isFinite x then 1 else if x < 0 then 0 else 2
  | text _ => 3

/-- The exact value of a number as a quotient. -/
def quotient : Rank → Int × Nat
  | whole n => (n, 1)
  | real x =>
    match Decimal.Binary.ofFloat? x with
    | some b =>
      let n : Int := (b.mantissa * b.scaleUp : Nat)
      (if b.negative then -n else n, b.scaleDown)
    | none => (0, 1)
  | text _ => (0, 1)

/-- The text that a rank is; numbers have none. -/
def characters : Rank → String
  | text s => s
  | _ => ""

/-- Whether a rank comes before another or is as great. -/
def le (a b : Rank) : Bool :=
  a.height < b.height ||
    (a.height = b.height &&
      (a.characters < b.characters ||
        (a.characters = b.characters &&
          a.quotient.1 * b.quotient.2 ≤ b.quotient.1 * a.quotient.2)))

@[simp] theorem le_whole (m n : Int) : le (whole m) (whole n) = decide (m ≤ n) := by
  simp [le, height, characters, quotient]

/-- The greatest of ranks, if there are some. -/
def greatest? : List Rank → Option Rank
  | [] => none
  | r :: rs =>
    match greatest? rs with
    | none => some r
    | some q => some (if r.le q then q else r)

/-! ## Ranks and values -/

/-- The rank that a float is, if it is a number: a whole one if it has no fraction and lies within
64 bits. -/
def ofFloat? (x : Float) : Option Rank :=
  match Decimal.whole? x with
  | some n => some (if n.natAbs < Decimal.wordLimit.natAbs then whole n else real x)
  | none => if x == x then some (real x) else none

/-- The number that a text spells, plain blanks around it allowed. -/
def number? (s : String) : Option Rank :=
  let cs := Text.strip Decimal.isPlainBlank s.toList
  match (Decimal.signedDigits? cs).filter Decimal.isWord with
  | some n => some (whole n)
  | none =>
    let (negative, body) := Decimal.takeSign cs
    (Decimal.digitsFloat? negative body).bind ofFloat?

/-- The rank that a text is: the number that it spells, if it spells one. -/
def ofText (s : String) : Rank :=
  (number? s).getD (text s)

/-- A rank as JSON. -/
def toJson : Rank → Json
  | whole n => .int n
  | real x => .float x
  | text s => .str s

/-- The rank that a JSON value is. -/
def ofJson? : Json → Option Rank
  | .int n => some (whole n)
  | .float x => some (real x)
  | .str s => some (text s)
  | _ => none

@[simp] theorem ofJson?_toJson (r : Rank) : ofJson? r.toJson = some r := by
  cases r <;> rfl

/-! ## Counting -/

/-- The rank from which counting goes on after a row with this one: nothing is zero. -/
def start : Option Rank → Rank
  | some (text s) => if s = "" then whole 0 else text s
  | some r => r
  | none => whole 0

/-- The rank after another; a text has none. -/
def next? : Rank → Option Rank
  | whole n => some (whole (n + 1))
  | real x => some (real (x + 1.0))
  | text _ => none

example : ofText " +7 " matches .whole 7 := by decide +kernel
example : ofText "1e3" matches .whole 1000 := by decide +kernel
example : ofText "7x" matches .text "7x" := by decide +kernel
example : le (real 1.5) (whole 2) = true ∧ le (whole 2) (real 1.5) = false := by decide +kernel
example : le (whole 5) (text "") = true ∧ le (text "") (whole 5) = false := by decide +kernel

end Rank

end MailRules.Store
