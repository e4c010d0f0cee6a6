import MailRules.Json.Value
import MailRules.Decimal.Reading
import MailRules.Text.Segment

set_option autoImplicit false

/-!
# Reading JSON

`Json.read` accepts what RFC-style JSON allows and besides the literals `NaN`, `Infinity` and
`-Infinity`; of several members of one name the last wins. Every reading function takes the text
that is left and returns a value with the text after it, so a fault is placed by how much text
stood unread (`Problem` at `remaining` characters from the end).

Three things can go wrong: the text is no JSON, a whole number has too many digits, or arrays and
objects are nested too deeply.
-/

namespace MailRules.Json

/-- What is wrong at a place of the text. -/
inductive Problem
  | value
  | name
  | colon
  | comma
  | unterminated
  | control
  | escape
  | unicodeEscape
  | extra
  | byteOrderMark
  deriving Repr, DecidableEq

/-- The wording of a problem. -/
def Problem.message : Problem → String
  | value => "Expecting value"
  | name => "Expecting property name enclosed in double quotes"
  | colon => "Expecting ':' delimiter"
  | comma => "Expecting ',' delimiter"
  | unterminated => "Unterminated string starting at"
  | control => "Invalid control character at"
  | escape => "Invalid \\escape"
  | unicodeEscape => "Invalid \\uXXXX escape"
  | extra => "Extra data"
  | byteOrderMark => "Unexpected UTF-8 BOM (decode using utf-8-sig)"

/-- Why a text is not read. -/
inductive Fault
  /-- A problem with so many characters left. -/
  | malformed (problem : Problem) (remaining : Nat)
  /-- A whole number of so many digits. -/
  | tooManyDigits (count : Nat)
  | tooDeep
  deriving Repr, DecidableEq

/-- The largest depth of nested arrays and objects. -/
def depthLimit : Nat := 990

/-- A result and the text after it. -/
abbrev Reading (α : Type) := Except Fault (α × List Char)

/-- A problem at the start of the given text. -/
def problemAt {α : Type} (p : Problem) (s : List Char) : Reading α :=
  .error (.malformed p s.length)

/-- Whether a character may stand between tokens. -/
def isSpace (c : Char) : Bool :=
  c = ' ' || c = '\t' || c = '\n' || c = '\r'

/-- The text after the spaces at its start. -/
def skipSpaces (s : List Char) : List Char :=
  s.dropWhile isSpace

/-- The value of a hexadecimal digit. -/
def hexValue? (c : Char) : Option Nat :=
  if c.isDigit then some (c.toNat - 48)
  else if 'a' ≤ c && c ≤ 'f' then some (c.toNat - 87)
  else if 'A' ≤ c && c ≤ 'F' then some (c.toNat - 55)
  else none

/-- The code unit that four hexadecimal digits spell. -/
def unitOf? (a b c d : Char) : Option Nat := do
  let w ← hexValue? a
  let x ← hexValue? b
  let y ← hexValue? c
  let z ← hexValue? d
  return ((w * 16 + x) * 16 + y) * 16 + z

/-- The character that a short escape stands for. -/
def shortEscape? (c : Char) : Option Char :=
  if c = '"' || c = '\\' || c = '/' then some c
  else if c = 'b' then some '\x08'
  else if c = 'f' then some '\x0c'
  else if c = 'n' then some '\n'
  else if c = 'r' then some '\r'
  else if c = 't' then some '\t'
  else none

/-- The character for a surrogate that has no partner. -/
def replacement : Char := '\ufffd'

/-- The characters read so far, last first, when a first surrogate may be waiting for its
partner. -/
def settle (waiting : Option Nat) (acc : List Char) : List Char :=
  match waiting with
  | some _ => replacement :: acc
  | none => acc

/-- Adds a code unit to the characters read so far; a first surrogate waits for its partner. -/
def addUnit (waiting : Option Nat) (acc : List Char) (n : Nat) : Option Nat × List Char :=
  if 0xd800 ≤ n && n < 0xdc00 then (some n, settle waiting acc)
  else if 0xdc00 ≤ n && n < 0xe000 then
    match waiting with
    | some h => (none, Char.ofNat (0x10000 + (h - 0xd800) * 0x400 + (n - 0xdc00)) :: acc)
    | none => (none, replacement :: acc)
  else (none, Char.ofNat n :: settle waiting acc)

/-- Reads a string after its opening quote. The problem of a missing closing quote has no place of
its own: the caller puts it at the opening quote. -/
def readChars (waiting : Option Nat) (acc : List Char) :
    List Char → Except (Problem × Option Nat) (List Char × List Char)
  | [] => .error (.unterminated, none)
  | '"' :: r => .ok ((settle waiting acc).reverse, r)
  | ['\\'] => .error (.unterminated, none)
  | '\\' :: 'u' :: a :: b :: c :: d :: r =>
    match unitOf? a b c d, r with
    | some n, _ :: _ =>
      let next := addUnit waiting acc n
      readChars next.1 next.2 r
    | _, _ => .error (.unicodeEscape, some (r.length + 5))
  | '\\' :: e :: r =>
    if e = 'u' then .error (.unicodeEscape, some (r.length + 1))
    else match shortEscape? e with
      | some c => readChars none (c :: settle waiting acc) r
      | none => .error (.escape, some (r.length + 2))
  | c :: r =>
    if c.toNat < 32 then .error (.control, some (r.length + 1))
    else readChars none (c :: settle waiting acc) r

/-- Reads the rest of a string whose opening quote stood at the start of `whole`. -/
def readString (whole s : List Char) : Reading String :=
  match readChars none [] s with
  | .ok (cs, r) => .ok (String.ofList cs, r)
  | .error (p, place) => .error (.malformed p (place.getD whole.length))

/-- The digits at the start of a text and the text after them. -/
def takeDigits (s : List Char) : List Char × List Char :=
  (s.takeWhile Char.isDigit, s.dropWhile Char.isDigit)

/-- The number that digits spell. -/
def numberOf (ds : List Char) : Nat :=
  Decimal.ofDigits (ds.map (fun c => c.toNat - 48))

/-- The fraction at the start of a text: a point and at least one digit. -/
def takeFraction (s : List Char) : Option (List Char) × List Char :=
  match s with
  | '.' :: r =>
    match takeDigits r with
    | ([], _) => (none, s)
    | (ds, rest) => (some ds, rest)
  | _ => (none, s)

/-- The exponent at the start of a text: its mark, perhaps a sign, and at least one digit. -/
def takeExponent (s : List Char) : Option Int × List Char :=
  match s with
  | [] => (none, s)
  | e :: r =>
    if e = 'e' || e = 'E' then
      let (negative, r) := match r with
        | '-' :: t => (true, t)
        | '+' :: t => (false, t)
        | _ => (false, r)
      match takeDigits r with
      | ([], _) => (none, s)
      | (ds, rest) => (some (if negative then -(numberOf ds : Int) else numberOf ds), rest)
    else (none, s)

/-- Reads a number at the start of a text that follows its sign; `whole` is the text from the sign
on. -/
def readNumber (whole : List Char) (negative : Bool) (s : List Char) : Reading Json :=
  let (ds, r) := match s with
    | '0' :: r => (['0'], r)
    | _ => takeDigits s
  if ds.isEmpty then problemAt .value whole
  else
    let (fraction, r) := takeFraction r
    let (exponent, r) := takeExponent r
    match fraction, exponent with
    | none, none =>
      if Decimal.digitLimit < ds.length then .error (.tooManyDigits ds.length)
      else
        let n : Int := numberOf ds
        .ok (.int (if negative then -n else n), r)
    | _, _ =>
      let places := fraction.getD []
      let x := Decimal.toFloat negative (numberOf (ds ++ places))
        (exponent.getD 0 - (places.length : Int))
      .ok (.float x, r)

/-- The words that stand for a value. -/
def literals : List (List Char × Json) :=
  [("null".toList, .null), ("true".toList, .bool true), ("false".toList, .bool false),
    ("NaN".toList, .float Decimal.notANumber), ("Infinity".toList, .float Decimal.infinity),
    ("-Infinity".toList, .float (-Decimal.infinity))]

/-- Reads a literal or a number. -/
def readScalar (s : List Char) : Reading Json :=
  match literals.find? (fun l => l.1.isPrefixOf s) with
  | some (word, v) => .ok (v, s.drop word.length)
  | none =>
    match s with
    | '-' :: r => readNumber s true r
    | _ => readNumber s false s

/-- Reads the items of an array from the first one on, at most `fuel` of them; spaces before an item
have been skipped. -/
def readItems (value : List Char → Reading Json) :
    (fuel : Nat) → List Json → List Char → Reading Json
  | 0, _, s => problemAt .value s
  | fuel + 1, acc, s =>
    match value s with
    | .error e => .error e
    | .ok (v, r) =>
      match skipSpaces r with
      | ']' :: t => .ok (.array (v :: acc).reverse, t)
      | ',' :: t => readItems value fuel (v :: acc) (skipSpaces t)
      | t => problemAt .comma t

/-- Reads an array after its opening bracket. -/
def readArray (value : List Char → Reading Json) (s : List Char) : Reading Json :=
  match skipSpaces s with
  | ']' :: r => .ok (.array [], r)
  | t => readItems value (t.length + 1) [] t

/-- Reads the members of an object from the first one on, at most `fuel` of them; spaces before a
member have been skipped. -/
def readMembers (value : List Char → Reading Json) :
    (fuel : Nat) → Members Json → List Char → Reading Json
  | 0, _, s => problemAt .name s
  | fuel + 1, acc, s =>
    match s with
    | '"' :: r =>
      match readString s r with
      | .error e => .error e
      | .ok (k, r) =>
        match skipSpaces r with
        | ':' :: t =>
          match value (skipSpaces t) with
          | .error e => .error e
          | .ok (v, r) =>
            match skipSpaces r with
            | '\x7d' :: t => .ok (.object (acc.put k v), t)
            | ',' :: t => readMembers value fuel (acc.put k v) (skipSpaces t)
            | t => problemAt .comma t
        | t => problemAt .colon t
    | _ => problemAt .name s

/-- Reads an object after its opening brace. -/
def readObject (value : List Char → Reading Json) (s : List Char) : Reading Json :=
  match skipSpaces s with
  | '\x7d' :: r => .ok (.object [], r)
  | t => readMembers value (t.length + 1) [] t

/-- Reads one value that starts the text, with at most `depth` arrays and objects around one
another. -/
def readValue : (depth : Nat) → List Char → Reading Json
  | 0, s =>
    match s with
    | '"' :: r => (readString s r).map (fun p => (.str p.1, p.2))
    | '[' :: _ => .error .tooDeep
    | '\x7b' :: _ => .error .tooDeep
    | _ => readScalar s
  | depth + 1, s =>
    match s with
    | '"' :: r => (readString s r).map (fun p => (.str p.1, p.2))
    | '[' :: r => readArray (readValue depth) r
    | '\x7b' :: r => readObject (readValue depth) r
    | _ => readScalar s

/-- Reads a text that is one value with spaces around it. -/
def readAll (s : List Char) : Except Fault Json :=
  if s.head? = some '\ufeff' then .error (.malformed .byteOrderMark s.length)
  else
    match readValue depthLimit (skipSpaces s) with
    | .error e => .error e
    | .ok (v, r) =>
      match skipSpaces r with
      | [] => .ok v
      | t => .error (.malformed .extra t.length)

/-- The value that a text spells. -/
def read (text : String) : Except Fault Json :=
  readAll text.toList

/-- The line and the column, both from one, of a place in a text. -/
def lineAndColumn (s : List Char) (place : Nat) : Nat × Nat :=
  let before := s.take place
  (before.count '\n' + 1, (before.reverse.takeWhile (· ≠ '\n')).length + 1)

/-- The wording of a fault in a text. Nesting that is too deep has none. -/
def Fault.message (text : String) : Fault → String
  | malformed p remaining =>
    let s := text.toList
    let place := s.length - remaining
    let (line, column) := lineAndColumn s place
    s!"{p.message}: line {line} column {column} (char {place})"
  | tooManyDigits n => Decimal.tooManyDigits n
  | tooDeep => ""

end MailRules.Json
