import MailRules.Json.Value
import MailRules.Text.Quoted

set_option autoImplicit false

/-!
# Looking into values

What stands under a name in a value, and what comes first in one. A value may have neither names nor
an order, or not the thing that is asked for; `AccessFault` says which.
-/

namespace MailRules.Json

/-- Why there is nothing where a value is looked into. -/
inductive AccessFault
  /-- A value of this kind has nothing in it. -/
  | noParts (kind : String)
  /-- A list has no names. -/
  | namelessList
  /-- A text has no names. -/
  | namelessText
  /-- An object does not have this name. -/
  | noName (name : String)
  /-- An object has no order. -/
  | unordered
  | emptyList
  | emptyText
  deriving Repr, DecidableEq

/-- The wording of a fault. -/
def AccessFault.message : AccessFault → String
  | noParts kind => s!"'{kind}' object is not subscriptable"
  | namelessList => "list indices must be integers or slices, not str"
  | namelessText => "string indices must be integers, not 'str'"
  | noName name => Text.quoted name
  | unordered => "0"
  | emptyList => "list index out of range"
  | emptyText => "string index out of range"

/-- What stands under a name in a value. -/
def under (name : String) (v : Json) : Except AccessFault Json :=
  match v with
  | object ms =>
    match Members.get? ms name with
    | some w => .ok w
    | none => .error (.noName name)
  | array _ => .error .namelessList
  | str _ => .error .namelessText
  | v => .error (.noParts v.kindName)

/-- What comes first in a value. -/
def first (v : Json) : Except AccessFault Json :=
  match v with
  | object _ => .error .unordered
  | array [] => .error .emptyList
  | array (w :: _) => .ok w
  | str s =>
    match s.toList with
    | c :: _ => .ok (.str (String.ofList [c]))
    | [] => .error .emptyText
  | v => .error (.noParts v.kindName)

end MailRules.Json
