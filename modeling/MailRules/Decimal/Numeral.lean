import MailRules.Decimal.Reading
import MailRules.Text.Blank
import MailRules.Text.Digit
import MailRules.Text.Segment

set_option autoImplicit false

/-!
# Numerals

Numbers written as text. The grammar of a float is a sign, digits with a point before, between or
after them, and an exponent, or one of the words `inf`, `infinity` and `nan` in any case.

Two families of readers share it.

* *Field* readers (`fieldFloat?`, `fieldInt`) take the values of records and settings: ASCII digits
  only, underscores between digits, and for whole numbers a fraction of zeros.
* *Free* readers (`freeFloat?`, `freeInt?`) take values of environment variables: digits and blanks
  of all scripts, and an underscore only between two digits.
-/

namespace MailRules.Decimal

open Text

/-- The sign at the start of a numeral, and the rest. -/
def takeSign : List Char → Bool × List Char
  | '-' :: r => (true, r)
  | '+' :: r => (false, r)
  | s => (false, s)

/-- The number that ASCII digits spell. -/
def numberOfDigits (ds : List Char) : Nat :=
  ofDigits (ds.map (fun c => c.toNat - 48))

/-- A sign and at least one digit, and nothing else. -/
def signedDigits? (s : List Char) : Option Int :=
  let (negative, ds) := takeSign s
  if ds.isEmpty || !ds.all Char.isDigit then none
  else
    let n : Int := numberOfDigits ds
    some (if negative then -n else n)

/-- The words for numbers without digits. -/
def wordFloat? (s : List Char) : Option Float :=
  let w := String.ofList (s.map Char.toLower)
  if w = "inf" || w = "infinity" then some infinity
  else if w = "nan" then some notANumber
  else none

/-- The exponent that the whole text is: nothing, or a mark and signed digits. -/
def exponentOf? : List Char → Option Int
  | [] => some 0
  | c :: r => if c = 'e' || c = 'E' then signedDigits? r else none

/-- The float that the digits of a sign and a body spell. -/
def digitsFloat? (negative : Bool) (body : List Char) : Option Float :=
  let whole := body.takeWhile Char.isDigit
  let afterWhole := body.dropWhile Char.isDigit
  let (places, rest) := match afterWhole with
    | '.' :: r => (r.takeWhile Char.isDigit, r.dropWhile Char.isDigit)
    | r => ([], r)
  if whole.isEmpty && places.isEmpty then none
  else (exponentOf? rest).map fun e =>
    toFloat negative (numberOfDigits (whole ++ places)) (e - (places.length : Int))

/-- The float that the whole text spells. -/
def float? (s : List Char) : Option Float :=
  let (negative, body) := takeSign s
  match wordFloat? body with
  | some x => some (if negative then -x else x)
  | none => digitsFloat? negative body

/-- Whether a character is a blank that field readers drop: any but the four information
separators. -/
def isFieldBlank (c : Char) : Bool :=
  isBlank c && !(28 ≤ c.toNat && c.toNat ≤ 31)

/-- A text without its underscores, if it has some, none at its ends and no two in a row. -/
def withoutUnderscores? (s : List Char) : Option (List Char) :=
  if !s.contains '_' || s.head? = some '_' || s.getLast? = some '_' ||
      occursIn ['_', '_'] s then none
  else some (s.filter (· ≠ '_'))

/-- The float that a field's text spells. -/
def fieldFloat? (s : List Char) : Option Float :=
  match float? (strip isFieldBlank s) with
  | some x => some x
  | none => (withoutUnderscores? s).bind float?

/-- Why a field's text is no whole number. -/
inductive IntFault
  | unreadable
  | tooLong
  deriving Repr, DecidableEq

/-- A numeral without superfluous zeros at its start; underscores between such zeros go with them.
The zeros end before another digit or a minus, and at most one is left before a point. -/
def dropLeadingZeros? (s : List Char) : Option (List Char) :=
  match s with
  | [] => none
  | c :: r =>
    if '1' ≤ c && c ≤ '9' then some s
    else if c = '0' then
      match r.dropWhile (fun d => d = '0' || d = '_') with
      | [] => some [s.getLast?.getD '0']
      | d :: t =>
        if d = '-' || ('1' ≤ d && d ≤ '9') then some (d :: t)
        else if d = '.' then
          some ((s.take (s.length - (d :: t).length)).getLast?.getD '0' :: d :: t)
        else none
    else none

/-- A numeral without a fraction that is all zeros. -/
def dropZeroFraction (s : List Char) : List Char :=
  match cutAt '.' s with
  | some (whole, places) => if !places.isEmpty && places.all (· = '0') then whole else s
  | none => s

/-- The whole number that a plain text spells: a sign of minus, perhaps, and digits that do not
start with a zero unless it is the only one. A text that starts with too many of them is too long
whatever follows. -/
def strictInt (s : List Char) : Except IntFault Int :=
  let (negative, body) := match s with
    | '-' :: r => (true, r)
    | _ => (false, s)
  let ds := body.takeWhile Char.isDigit
  if ds.isEmpty || (ds.head? = some '0' && body ≠ ['0']) then .error .unreadable
  else if digitLimit < ds.length then .error .tooLong
  else if ds.length < body.length then .error .unreadable
  else
    let n : Int := numberOfDigits ds
    .ok (if negative then -n else n)

/-- A numeral in plain spelling: without blanks around it, a sign of plus, superfluous zeros, a
fraction of zeros, and underscores. -/
def plainNumeral? (s : List Char) : Option (List Char) := do
  let trimmed := strip isFieldBlank s
  let unsigned ← match trimmed with
    | '+' :: r => if r.head? = some '-' then none else some r
    | _ => some trimmed
  let (negative, body) := match unsigned with
    | '-' :: r => (true, r)
    | _ => (false, unsigned)
  let whole := dropZeroFraction (← dropLeadingZeros? body)
  let joined := (withoutUnderscores? whole).getD whole
  return if negative then '-' :: joined else joined

/-- The whole number that a field's text spells, as it stands or else in plain spelling. -/
def fieldInt (s : List Char) : Except IntFault Int :=
  match strictInt s with
  | .error .unreadable =>
    match (plainNumeral? s).map strictInt with
    | some (.ok n) => .ok n
    | _ => .error .unreadable
  | r => r

/-- A character in plain digits and blanks: those of other scripts become ASCII ones, and ASCII
characters stay as they are. -/
def toPlainDigit (c : Char) : Char :=
  if c.toNat < 128 then c
  else if isBlank c then ' '
  else
    match digitValue? c with
    | some d => Char.ofNat (48 + d)
    | none => '?'

/-- Whether a character is one of the six ASCII blanks. -/
def isPlainBlank (c : Char) : Bool :=
  c = ' ' || (9 ≤ c.toNat && c.toNat ≤ 13)

/-- A text without its underscores, if each stands between two digits. `after` says whether the
character before is a digit. -/
def joinDigits? (after : Bool) : List Char → Option (List Char)
  | [] => some []
  | '_' :: r =>
    match r with
    | d :: _ => if after && d.isDigit then joinDigits? false r else none
    | [] => none
  | c :: r => (joinDigits? c.isDigit r).map (c :: ·)

/-- The float that a free text spells. -/
def freeFloat? (s : List Char) : Option Float :=
  (joinDigits? false (strip isPlainBlank (s.map toPlainDigit))).bind float?

/-- The value of a digit or letter as a digit. -/
def digitOf? (c : Char) : Option Nat :=
  if c.isDigit then some (c.toNat - 48)
  else if c.isAlpha then some (c.toLower.toNat - 87)
  else none

/-- The number that digits in a base spell. -/
def digitsIn? (base : Nat) (cs : List Char) : Option Nat :=
  cs.foldlM (fun n c => (digitOf? c).bind fun d => if d < base then some (n * base + d) else none) 0

/-- The letter that stands after a zero before digits in a base. -/
def baseMark? (base : Nat) : Option Char :=
  [(2, 'b'), (8, 'o'), (16, 'x')].lookup base

/-- Digits after the mark of their base, if it is there, and one underscore after that. -/
def dropBaseMark (base : Nat) (s : List Char) : List Char :=
  match s with
  | '0' :: c :: r =>
    if baseMark? base = some c.toLower then
      match r with
      | '_' :: t => t
      | _ => r
    else s
  | _ => s

/-- Why a free text is no whole number. -/
inductive FreeFault
  | unreadable
  /-- More digits than a whole number in base ten may have. -/
  | tooLong (digits : Nat)
  deriving Repr, DecidableEq

/-- The whole number that a free text spells in a base: blanks, a sign, the mark of the base and
digits, with an underscore only between two of them. Only in base ten is the number of digits
limited. -/
def freeIntIn (base : Nat) (s : List Char) : Except FreeFault Int :=
  let (negative, body) := takeSign (strip isPlainBlank (s.map toPlainDigit))
  let body := dropBaseMark base body
  let run := body.takeWhile (fun c => c = '_' || (digitOf? c).any (· < base))
  let ds := run.filter (· ≠ '_')
  let joined := run.head? ≠ some '_' && run.getLast? ≠ some '_' && !occursIn ['_', '_'] run
  if ds.isEmpty || !joined then .error .unreadable
  else if base = 10 && digitLimit < ds.length then .error (.tooLong ds.length)
  else if run.length < body.length then .error .unreadable
  else
    match digitsIn? base ds with
    | some n => .ok (if negative then -(n : Int) else n)
    | none => .error .unreadable

/-- The whole number that a free text spells. -/
def freeInt? (s : List Char) : Option Int :=
  (freeIntIn 10 s).toOption

example : (fieldInt "1_0.0".toList).toOption = some 10 := by decide +kernel
example : (fieldInt " -8\n".toList).toOption = some (-8) := by decide +kernel
example : (fieldInt "8.".toList).toOption = none := by decide +kernel
example : (fieldInt "-050".toList).toOption = some (-50) := by decide +kernel
example : (fieldInt "0_-1".toList).toOption = some (-1) := by decide +kernel
example : freeInt? " ٨_0 ".toList = some 80 := by decide +kernel
example : (freeIntIn 16 "-0x_1F".toList).toOption = some (-31) := by decide +kernel

end MailRules.Decimal
