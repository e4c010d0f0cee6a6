import MailRules.Json.Printer
import MailRules.Members
import MailRules.Text.Segment
import MailRules.Yaml.Time

set_option autoImplicit false

/-!
# Documents

`Document` is the common type of configuration: JSON values and YAML values both are documents.
Names of entries are texts; a key of another kind is named by its written form. Whether two keys are
the same is a matter of their values (`sameKey`): 1, 1.0 and true are one key.
-/

namespace MailRules

/-- A configuration value. -/
inductive Document
  | null
  | bool (b : Bool)
  | int (n : Int)
  | float (x : Float)
  | text (s : String)
  | bytes (data : List UInt8)
  | time (t : Yaml.Time)
  | list (items : List Document)
  | set (items : List Document)
  | mapping (entries : List (String × Document))
  deriving Inhabited

namespace Document

/-- The name of the kind of a value. -/
def kindName : Document → String
  | null => "NoneType"
  | bool _ => "bool"
  | int _ => "int"
  | float _ => "float"
  | text _ => "str"
  | bytes _ => "bytes"
  | time t => t.kindName
  | list _ => "list"
  | set _ => "set"
  | mapping _ => "dict"

/-- The name of the kind of a value with the library that it comes from. -/
def fullKindName : Document → String
  | time t => "datetime." ++ t.kindName
  | d => d.kindName

/-- Whether a value counts as something. -/
def isTruthy : Document → Bool
  | null => false
  | bool b => b
  | int n => n != 0
  | float x => x != 0
  | text s => s != ""
  | bytes data => !data.isEmpty
  | time _ => true
  | list items => !items.isEmpty
  | set items => !items.isEmpty
  | mapping entries => !entries.isEmpty

/-! ## JSON -/

mutual

/-- A JSON value as a document. -/
def ofJson : Json → Document
  | .null => null
  | .bool b => bool b
  | .int n => int n
  | .float x => float x
  | .str s => text s
  | .array vs => list (ofItems vs)
  | .object ms => mapping (ofMembers ms)

/-- JSON values as documents. -/
def ofItems : List Json → List Document
  | [] => []
  | v :: vs => ofJson v :: ofItems vs

/-- JSON members as entries. -/
def ofMembers : List (String × Json) → List (String × Document)
  | [] => []
  | (k, v) :: ms => (k, ofJson v) :: ofMembers ms

end

/-! ## Written forms -/

mutual

/-- A document as messages show it inside others. -/
def literal : Document → String
  | null => "None"
  | bool b => if b then "True" else "False"
  | int n => Json.showInt n
  | float x => Decimal.showFloat x
  | text s => Text.quoted s
  | bytes data => Text.quotedBytes data
  | time t => t.display
  | list ds => "[" ++ Text.joinWith ", " (literals ds) ++ "]"
  | set ds => if ds.isEmpty then "set()" else "\x7b" ++ Text.joinWith ", " (literals ds) ++ "\x7d"
  | mapping es => "\x7b" ++ Text.joinWith ", " (entryLiterals es) ++ "\x7d"

/-- Documents as messages show them inside others. -/
def literals : List Document → List String
  | [] => []
  | d :: ds => literal d :: literals ds

/-- Entries as messages show them. -/
def entryLiterals : List (String × Document) → List String
  | [] => []
  | (k, d) :: es => (Text.quoted k ++ ": " ++ literal d) :: entryLiterals es

end

mutual

/-- Whether a document can be shown: no whole number in it has too many digits. -/
def isShowable : Document → Bool
  | int n => Decimal.isShowable n
  | list ds => areShowable ds
  | set ds => areShowable ds
  | mapping es => entriesShowable es
  | _ => true

/-- Whether all documents can be shown. -/
def areShowable : List Document → Bool
  | [] => true
  | d :: ds => isShowable d && areShowable ds

/-- Whether the values of all entries can be shown. -/
def entriesShowable : List (String × Document) → Bool
  | [] => true
  | (_, d) :: es => isShowable d && entriesShowable es

end

/-- A document by itself as messages show it. -/
def display : Document → String
  | text s => s
  | d => d.literal

mutual

/-- A document as JSON; a value that JSON does not have is a text. -/
def toJson : Document → Json
  | null => .null
  | bool b => .bool b
  | int n => .int n
  | float x => .float x
  | text s => .str s
  | bytes data => .str (Text.quotedBytes data)
  | time t => .str t.display
  | list ds => .array (toItems ds)
  | set ds => .str (display (set ds))
  | mapping es => .object (toMembers es)

/-- Documents as JSON values. -/
def toItems : List Document → List Json
  | [] => []
  | d :: ds => toJson d :: toItems ds

/-- Entries as JSON members. -/
def toMembers : List (String × Document) → List (String × Json)
  | [] => []
  | (k, d) :: es => (k, toJson d) :: toMembers es

end

/-! ## Keys -/

/-- The whole number that a value is, if it is one. -/
def whole? : Document → Option Int
  | bool b => some (if b then 1 else 0)
  | int n => some n
  | float x => Decimal.whole? x
  | _ => none

/-- Whether two values are the same key. Collections are no keys. -/
def sameKey (a b : Document) : Bool :=
  match a, b with
  | null, null => true
  | text s, text t => s = t
  | bytes s, bytes t => s = t
  | time t, time u => t.same u
  | float x, float y => x == y || (x.isNaN && y.isNaN)
  | a, b =>
    match a.whole?, b.whole? with
    | some m, some n => m = n
    | _, _ => false

/-- A mapping from pairs of keys and values. -/
def ofPairs (pairs : List (Document × Document)) : Document :=
  mapping (Members.ofPairs ((Members.distinctBy sameKey pairs).map fun e => (e.1.display, e.2)))

end Document

end MailRules
