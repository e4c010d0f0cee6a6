import MailRules.Decimal.Reading
import MailRules.Json.Value

set_option autoImplicit false

/-!
# Numbers

Numbers as they come from outside, with the form in which they were given kept.
-/

namespace MailRules

/-- A number as it was given: whole, a float, or a truth value that stands for one or zero. -/
inductive Number
  | whole (n : Int)
  | real (x : Float)
  | flag (b : Bool)
  deriving Inhabited

namespace Number

/-- A number as JSON. -/
def toJson : Number → Json
  | whole n => .int n
  | real x => .float x
  | flag b => .bool b

/-- The number that a JSON value is, if it is one. -/
def ofJson? : Json → Option Number
  | .int n => some (whole n)
  | .float x => some (real x)
  | .bool b => some (flag b)
  | _ => none

theorem ofJson?_toJson (n : Number) : ofJson? n.toJson = some n := by
  cases n <;> rfl

/-- Whether a number can be handed to a column of numbers: whole ones have at most 64 bits. -/
def fits : Number → Bool
  | whole n => Decimal.isWord n
  | _ => true

/-- What a column of floats keeps of a number: the nearest float, zero without a sign, and nothing
for NaN. -/
def stored? : Number → Option Float
  | whole n => Decimal.floatOfInt? n
  | real x => if x == x then some (if x == 0 then 0.0 else x) else none
  | flag b => some (if b then 1.0 else 0.0)

end Number

end MailRules
