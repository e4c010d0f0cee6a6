import MailRules.Decimal.Numeral
import MailRules.Text.Lower
import MailRules.Yaml.Token

set_option autoImplicit false

/-!
# Scalars of YAML

A plain scalar without a tag is null, a truth value, a number or a time if it is spelled like one in
YAML 1.1 (`yes`, `0x1f`, `1_000`, `1:30` for ninety), and a text otherwise. `impliedTag` decides
which it is by its spelling alone; a line break at the end of the text does not count for that. The
readers beside it say what the value is, also for scalars whose tag is written out; those may be
spelled more freely.
-/

namespace MailRules.Yaml

/-- What a node is said to be. -/
inductive Tag
  | null
  | bool
  | int
  | float
  | binary
  | timestamp
  | str
  | seq
  | map
  | set
  | omap
  | pairs
  /-- A key whose value is entries to be taken over. -/
  | merge
  /-- A key whose value stands for the whole mapping where a scalar is wanted. -/
  | value
  /-- Anything else. -/
  | unknown
  deriving Repr, DecidableEq, Inhabited

/-- The prefix of the standard tags. -/
def standardTag : String := "tag:yaml.org,2002:"

/-- The names of the standard tags after their prefix. -/
def tagNames : List (String × Tag) :=
  [("null", .null), ("bool", .bool), ("int", .int), ("float", .float), ("binary", .binary),
    ("timestamp", .timestamp), ("str", .str), ("seq", .seq), ("map", .map), ("set", .set),
    ("omap", .omap), ("pairs", .pairs), ("merge", .merge), ("value", .value)]

/-- The tag with a full name. -/
def Tag.ofName (name : String) : Tag :=
  let p := standardTag.toList
  if p.isPrefixOf name.toList then
    (tagNames.lookup (String.ofList (name.toList.drop p.length))).getD .unknown
  else .unknown

/-! ## Spellings -/

/-- Digits and underscores with a digit first. -/
def isGrouped (s : List Char) : Bool :=
  match s with
  | c :: r => c.isDigit && r.all (fun d => d.isDigit || d = '_')
  | [] => false

/-- One or two digits below sixty, after a colon. -/
def isSixtieth (s : List Char) : Bool :=
  match s with
  | [a] => a.isDigit
  | [a, b] => '0' ≤ a && a ≤ '5' && b.isDigit
  | _ => false

/-- Digits, and further ones below sixty after colons. -/
def isSixtieths (s : List Char) : Bool :=
  match Text.segments ':' s with
  | ds :: parts => isGrouped ds && parts.all isSixtieth
  | [] => false

/-- Whether a plain scalar spells a whole number. -/
def spellsWhole (s : List Char) : Bool :=
  match (Decimal.takeSign s).2 with
  | '0' :: 'b' :: r => !r.isEmpty && r.all (fun c => c = '0' || c = '1' || c = '_')
  | '0' :: 'x' :: r => !r.isEmpty && r.all (fun c => (hexValue? c).isSome || c = '_')
  | '0' :: r => r.all (fun c => ('0' ≤ c && c ≤ '7') || c = '_')
  | body => isSixtieths body

/-- Whether a text is an exponent, or nothing: a mark, a sign and digits. -/
def isExponent : List Char → Bool
  | [] => true
  | e :: sign :: ds =>
    (e = 'e' || e = 'E') && (sign = '+' || sign = '-') && !ds.isEmpty && ds.all Char.isDigit
  | _ => false

/-- Whether a plain scalar spells a float. -/
def spellsFloat (s : List Char) : Bool :=
  let body := (Decimal.takeSign s).2
  let isSigned := s.length != body.length
  if [".inf", ".Inf", ".INF"].contains (String.ofList body) then true
  else if [".nan", ".NaN", ".NAN"].contains (String.ofList body) then !isSigned
  else
    match Text.cutAt '.' body with
    | none => false
    | some (whole, r) =>
      let isPlace (c : Char) : Bool := c.isDigit || c = '_'
      let rest := r.dropWhile isPlace
      if whole.isEmpty then !isSigned && isGrouped (r.takeWhile isPlace) && isExponent rest
      else if isGrouped whole then isExponent rest
      else isSixtieths whole && rest.isEmpty

/-- The truth value that a word spells. -/
def truthOf? (s : String) : Option Bool :=
  if ["yes", "Yes", "YES", "true", "True", "TRUE", "on", "On", "ON"].contains s then some true
  else if ["no", "No", "NO", "false", "False", "FALSE", "off", "Off", "OFF"].contains s then
    some false
  else none

/-- Whether a plain scalar spells null. -/
def isNull (s : String) : Bool :=
  ["", "~", "null", "Null", "NULL"].contains s

/-- A text without a line break at its end, unless it is nothing else. -/
def dropFinalBreak (s : String) : String :=
  match s.toList.reverse with
  | '\n' :: c :: r => String.ofList (c :: r).reverse
  | _ => s

/-- The tag that the spelling of a line gives. -/
def spelledTag (s : String) : Tag :=
  if (truthOf? s).isSome then .bool
  else if spellsFloat s.toList then .float
  else if spellsWhole s.toList then .int
  else if s = "<<" then .merge
  else if isNull s then .null
  else if spellsTime s.toList then .timestamp
  else if s = "=" then .value
  else if ["!", "&", "*"].contains s then .unknown
  else .str

/-- The tag that a plain scalar has when none is written. -/
def impliedTag (s : String) : Tag :=
  spelledTag (dropFinalBreak s)

/-! ## Values -/

/-- A text without underscores. -/
def withoutUnderscores (s : List Char) : List Char :=
  s.filter (· ≠ '_')

/-- The whole number that digits in a base spell. -/
def readDigits (base : Nat) (s : List Char) : Except ValueFault Int :=
  match Decimal.freeIntIn base s with
  | .ok n => .ok n
  | .error .unreadable => .error (.notWhole (String.ofList s) base)
  | .error (.tooLong n) => .error (.tooLong n)

/-- The whole number that a scalar spells: in base two or sixteen after a mark, in base eight after
a zero, and otherwise in base ten, with parts worth sixty times the next between colons. -/
def readWhole (s : List Char) : Except ValueFault Int := do
  let digits := withoutUnderscores s
  if digits.isEmpty then throw .noDigits
  let (isNegative, body) := Decimal.takeSign digits
  let n ← match body with
    | [] => throw .noDigits
    | ['0'] => pure 0
    | '0' :: 'b' :: r => readDigits 2 r
    | '0' :: 'x' :: r => readDigits 16 r
    | '0' :: _ => readDigits 8 body
    | _ => do
      let parts ← (Text.segments ':' body).mapM (readDigits 10)
      pure (parts.foldl (fun n p => n * 60 + p) 0)
  return if isNegative then -n else n

/-- The float that a text in base ten spells. -/
def readPoint (s : List Char) : Except ValueFault Float :=
  match Decimal.freeFloat? s with
  | some x => .ok x
  | none => .error (.notNumber (String.ofList s))

/-- The most parts between colons that a float may have: what a further one is worth is no float. -/
def partLimit : Nat := 174

/-- The float that a scalar spells. Parts between colons are added up from the last one on. -/
def readFloat (s : List Char) : Except ValueFault Float := do
  let digits := Text.lower (withoutUnderscores s)
  if digits.isEmpty then throw .noDigits
  let (isNegative, body) := Decimal.takeSign digits
  if body = ".nan".toList then return Decimal.notANumber
  let x ←
    if body = ".inf".toList then pure Decimal.infinity
    else match Text.segments ':' body with
      | [_] => readPoint body
      | parts => do
        let xs ← parts.mapM readPoint
        if partLimit < xs.length then throw .tooManyParts
        let worth (n : Nat) : Float := (Decimal.floatOfInt? n).getD Decimal.infinity
        pure (xs.foldr (fun x acc => (acc.1 + x * worth acc.2, acc.2 * 60)) (0.0, 1)).1
  return if isNegative then -x else x

/-- The truth value that a scalar spells, in any case. -/
def readTruth (s : String) : Except ValueFault Bool :=
  let w := Text.mapText Text.lower s
  match truthOf? w with
  | some b => .ok b
  | none => .error (.notTruth w)

/-- The time that a scalar spells. -/
def readTime (s : String) : Except ValueFault Time :=
  match Time.ofText? (dropFinalBreak s).toList with
  | none => .error .notTime
  | some t =>
    match t.fault? with
    | none => .ok t
    | some f => .error (.time f)

example : (readWhole "-1_0:30".toList).toOption = some (-630) := by decide +kernel
example : (readWhole "0x1F".toList).toOption = some 31 := by decide +kernel
example : (readWhole "0o17".toList).toOption = some 15 := by decide +kernel
example : impliedTag "1e3" = .str ∧ impliedTag "1.0e+3" = .float ∧ impliedTag "017\n" = .int := by
  decide +kernel

end MailRules.Yaml
