import MailRules.Members

set_option autoImplicit false

/-!
# JSON values

Whole numbers and floats are told apart, objects keep the order of their members, and a float may
be infinite or NaN.
-/

namespace MailRules

/-- A JSON value. -/
inductive Json
  | null
  | bool (b : Bool)
  | int (n : Int)
  | float (x : Float)
  | str (s : String)
  | array (items : List Json)
  | object (members : List (String × Json))
  deriving Inhabited

namespace Json

/-- The name that messages use for the kind of a value. -/
def kindName : Json → String
  | null => "NoneType"
  | bool _ => "bool"
  | int _ => "int"
  | float _ => "float"
  | str _ => "str"
  | array _ => "list"
  | object _ => "dict"

/-- Whether a value counts as something: not null, false, zero or empty. -/
def isTruthy : Json → Bool
  | null => false
  | bool b => b
  | int n => n != 0
  | float x => x != 0
  | str s => s != ""
  | array items => !items.isEmpty
  | object members => !members.isEmpty

/-- The member of an object under a name. -/
def field? : Json → String → Option Json
  | object members, name => Members.get? members name
  | _, _ => none

/-- A text, or null when it is absent. -/
def ofText? : Option String → Json
  | some s => str s
  | none => null

/-- The text of a string value. -/
def text? : Json → Option String
  | str s => some s
  | _ => none

mutual

/-- Whether two values are the same, floats by their bits and members in the same order. -/
def same : Json → Json → Bool
  | null, null => true
  | bool a, bool b => a == b
  | int a, int b => a == b
  | float a, float b => a.toBits == b.toBits
  | str a, str b => a == b
  | array a, array b => sameItems a b
  | object a, object b => sameMembers a b
  | _, _ => false

/-- Whether two lists hold the same values. -/
def sameItems : List Json → List Json → Bool
  | [], [] => true
  | a :: as, b :: bs => same a b && sameItems as bs
  | _, _ => false

/-- Whether two objects have the same members in the same order. -/
def sameMembers : List (String × Json) → List (String × Json) → Bool
  | [], [] => true
  | (k, a) :: as, (l, b) :: bs => k == l && same a b && sameMembers as bs
  | _, _ => false

end

end Json

end MailRules
