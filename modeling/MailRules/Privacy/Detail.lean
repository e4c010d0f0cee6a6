import MailRules.Json.Printer
import MailRules.Privacy.Mask

set_option autoImplicit false

/-!
# Details

Details are the values that go with an audit event or a log line: JSON values in which a group of
values may be a list, a tuple or a set. `Detail.redact` masks every address in every text inside
and makes lists of all groups; names are kept as they are.
-/

namespace MailRules.Privacy

/-- How values are grouped. -/
inductive Grouping
  | list
  | tuple
  | set
  deriving Repr, DecidableEq

/-- A value that goes with an event. -/
inductive Detail
  | scalar (v : Json)
  | group (g : Grouping) (items : List Detail)
  | object (members : List (String × Detail))
  deriving Inhabited

namespace Detail

mutual

/-- A JSON value as a detail. -/
def ofJson : Json → Detail
  | .array vs => group .list (ofItems vs)
  | .object ms => object (ofMembers ms)
  | v => scalar v

/-- JSON values as details. -/
def ofItems : List Json → List Detail
  | [] => []
  | v :: vs => ofJson v :: ofItems vs

/-- Members with JSON values as members with details. -/
def ofMembers : List (String × Json) → List (String × Detail)
  | [] => []
  | (k, v) :: ms => (k, ofJson v) :: ofMembers ms

end

/-- A scalar with its addresses masked. -/
def redactScalar : Json → Json
  | .str s => .str (mask s)
  | v => v

mutual

/-- A detail with every address masked, as JSON. -/
def redact : Detail → Json
  | scalar v => redactScalar v
  | group _ ds => .array (redactItems ds)
  | object ms => .object (redactMembers ms)

/-- Details with every address masked. -/
def redactItems : List Detail → List Json
  | [] => []
  | d :: ds => redact d :: redactItems ds

/-- Members with every address in their values masked. -/
def redactMembers : List (String × Detail) → List (String × Json)
  | [] => []
  | (k, d) :: ms => (k, redact d) :: redactMembers ms

end

mutual

/-- How many groups and objects are around one another. -/
def depth : Detail → Nat
  | scalar _ => 0
  | group _ ds => depthOfItems ds + 1
  | object ms => depthOfMembers ms + 1

/-- The greatest depth of details. -/
def depthOfItems : List Detail → Nat
  | [] => 0
  | d :: ds => max (depth d) (depthOfItems ds)

/-- The greatest depth of the values of members. -/
def depthOfMembers : List (String × Detail) → Nat
  | [] => 0
  | (_, d) :: ms => max (depth d) (depthOfMembers ms)

end

/-- The name that messages use for the kind of a detail. -/
def kindName : Detail → String
  | scalar v => v.kindName
  | group .list _ => "list"
  | group .tuple _ => "tuple"
  | group .set _ => "set"
  | object _ => "dict"

/-- Whether a detail counts as something. -/
def isTruthy : Detail → Bool
  | scalar v => v.isTruthy
  | group _ ds => !ds.isEmpty
  | object ms => !ms.isEmpty

/-- The parts that a detail falls into when it is taken as a sequence: the characters of a text, the
items of a group, the names of an object. -/
def parts? : Detail → Option (List Detail)
  | scalar (.str s) => some (s.toList.map (fun c => scalar (.str (String.ofList [c]))))
  | scalar _ => none
  | group _ ds => some ds
  | object ms => some (ms.map (fun m => scalar (.str m.1)))

end Detail

end MailRules.Privacy
