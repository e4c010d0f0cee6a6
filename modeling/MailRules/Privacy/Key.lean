import MailRules.Document
import MailRules.Privacy.Detail

set_option autoImplicit false

/-!
# Keys

What stands first in a pair of details can be any detail that can be looked up: a scalar, or a tuple
of such details. Two keys are the same if their values are, so 1, 1.0 and true are one key. Written
as JSON a key is named by its JSON form, and a tuple has none.
-/

namespace MailRules.Privacy.Detail

mutual

/-- The kind of the first thing in a detail that keeps it from being a key. -/
def unkeyable? : Detail → Option String
  | scalar _ => none
  | group .tuple ds => unkeyableItem? ds
  | d => some d.kindName

/-- The kind of the first thing in details that keeps them from being keys. -/
def unkeyableItem? : List Detail → Option String
  | [] => none
  | d :: ds => (unkeyable? d).orElse fun _ => unkeyableItem? ds

end

mutual

/-- Whether two keys are the same. -/
def sameKey : Detail → Detail → Bool
  | scalar v, scalar w => Document.sameKey (.ofJson v) (.ofJson w)
  | group .tuple ds, group .tuple es => sameKeys ds es
  | _, _ => false

/-- Whether two lists hold the same keys. -/
def sameKeys : List Detail → List Detail → Bool
  | [], [] => true
  | d :: ds, e :: es => sameKey d e && sameKeys ds es
  | _, _ => false

end

mutual

/-- A key as messages show it inside others. -/
def keyLiteral : Detail → String
  | scalar v => v.display
  | group _ [d] => "(" ++ keyLiteral d ++ ",)"
  | group _ ds => "(" ++ Text.joinWith ", " (keyLiterals ds) ++ ")"
  | object _ => ""

/-- Keys as messages show them inside others. -/
def keyLiterals : List Detail → List String
  | [] => []
  | d :: ds => keyLiteral d :: keyLiterals ds

end

/-- A key by itself as messages show it. -/
def keyText : Detail → String
  | scalar v => v.plainText
  | d => keyLiteral d

/-- The name that a key has in JSON. -/
def jsonName? : Detail → Option String
  | scalar (.str s) => some s
  | scalar v => some (v.render Json.inline)
  | _ => none

example : sameKey (.scalar (.bool true)) (.scalar (.int 1)) = true := rfl
example : keyText (.group .tuple [.scalar (.int 1)]) = "(1,)" := by cbv
example : jsonName? (.scalar .null) = some "null" := by cbv

end MailRules.Privacy.Detail
