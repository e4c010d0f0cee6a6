import MailRules.Json.Value
import MailRules.Decimal.Reading
import MailRules.Decimal.Shortest
import MailRules.Text.Quoted

set_option autoImplicit false

/-!
# Writing JSON

One printer with two choices (`Layout`): whether characters past U+007E are escaped, and whether
the members of arrays and objects go on lines of their own. A character past U+FFFF is escaped as a
pair of surrogates.

`Json.display` is the other written form, that of messages: words for null, true and false, and
quoted literals for strings.
-/

namespace MailRules

namespace Json

/-- How a value is laid out. -/
structure Layout where
  /-- Escape every character outside U+0020–U+007E. -/
  asciiOnly : Bool
  /-- The width of one step of indentation, if members go on lines of their own. -/
  indent : Option Nat
  deriving Repr, DecidableEq

/-- All on one line, escaped: the form in which details are stored. -/
def stored : Layout := ⟨true, none⟩

/-- All on one line, characters as they are: the form of log lines. -/
def inline : Layout := ⟨false, none⟩

/-- One member a line, characters as they are: the form that commands print. -/
def pretty : Layout := ⟨false, some 2⟩

/-- The escape of one code unit. -/
def unitEscape (n : Nat) : List Char :=
  '\\' :: 'u' :: Text.hex 4 n

/-- The escape of a character by its one or two code units. -/
def codeEscape (c : Char) : List Char :=
  let n := c.toNat
  if n < 0x10000 then unitEscape n
  else unitEscape (0xd800 + (n - 0x10000) / 0x400) ++ unitEscape (0xdc00 + (n - 0x10000) % 0x400)

/-- The written form of one character of a string. -/
def escapeChar (asciiOnly : Bool) (c : Char) : List Char :=
  if c = '"' then ['\\', '"']
  else if c = '\\' then ['\\', '\\']
  else if c = '\n' then ['\\', 'n']
  else if c = '\r' then ['\\', 'r']
  else if c = '\t' then ['\\', 't']
  else if c = '\x0c' then ['\\', 'f']
  else if c = '\x08' then ['\\', 'b']
  else if c.toNat < 32 || (asciiOnly && 126 < c.toNat) then codeEscape c
  else [c]

/-- A string in quotes. -/
def printString (asciiOnly : Bool) (s : String) : List Char :=
  '"' :: s.toList.flatMap (escapeChar asciiOnly) ++ ['"']

/-- Floats in JSON. -/
def floatStyle : Decimal.FloatStyle := ⟨16, 4, "Infinity", "NaN"⟩

/-- The digits of a whole number. -/
def printInt (n : Int) : List Char :=
  let ds := Decimal.digitsOf n.natAbs
  if n < 0 then '-' :: ds else ds

/-- The text of a whole number. -/
def showInt (n : Int) : String :=
  String.ofList (printInt n)

/-- What stands before a member at a depth: nothing, or a line break and the indentation. -/
def Layout.lead (o : Layout) (depth : Nat) : List Char :=
  match o.indent with
  | none => []
  | some w => '\n' :: List.replicate (w * depth) ' '

/-- What stands between two members. -/
def Layout.comma (o : Layout) (depth : Nat) : List Char :=
  match o.indent with
  | none => [',', ' ']
  | some _ => ',' :: o.lead depth

mutual

/-- A value at a depth of nesting. -/
def print (o : Layout) (depth : Nat) : Json → List Char
  | null => "null".toList
  | bool b => (if b then "true" else "false").toList
  | int n => printInt n
  | float x => (Decimal.formatFloat floatStyle x).toList
  | str s => printString o.asciiOnly s
  | array [] => ['[', ']']
  | array (v :: vs) =>
    '[' :: (o.lead (depth + 1) ++ print o (depth + 1) v ++ printItems o (depth + 1) vs ++
      o.lead depth ++ [']'])
  | object [] => ['\x7b', '\x7d']
  | object ((k, v) :: ms) =>
    '\x7b' :: (o.lead (depth + 1) ++ printString o.asciiOnly k ++ ':' :: ' ' ::
      print o (depth + 1) v ++ printMembers o (depth + 1) ms ++ o.lead depth ++ ['\x7d'])

/-- The further items of an array, each after a comma. -/
def printItems (o : Layout) (depth : Nat) : List Json → List Char
  | [] => []
  | v :: vs => o.comma depth ++ print o depth v ++ printItems o depth vs

/-- The further members of an object, each after a comma. -/
def printMembers (o : Layout) (depth : Nat) : List (String × Json) → List Char
  | [] => []
  | (k, v) :: ms =>
    o.comma depth ++ printString o.asciiOnly k ++ ':' :: ' ' :: print o depth v ++
      printMembers o depth ms

end

mutual

/-- Whether no whole number in a value has too many digits to be written. -/
def isWritable : Json → Bool
  | int n => Decimal.isShowable n
  | array vs => areWritable vs
  | object ms => haveWritable ms
  | _ => true

/-- Whether all values can be written. -/
def areWritable : List Json → Bool
  | [] => true
  | v :: vs => isWritable v && areWritable vs

/-- Whether the values of all members can be written. -/
def haveWritable : List (String × Json) → Bool
  | [] => true
  | (_, v) :: ms => isWritable v && haveWritable ms

end

/-- A value as text. -/
def render (o : Layout) (v : Json) : String :=
  String.ofList (print o 0 v)

mutual

/-- A value as messages show it. -/
def display : Json → String
  | null => "None"
  | bool b => if b then "True" else "False"
  | int n => String.ofList (printInt n)
  | float x => Decimal.showFloat x
  | str s => Text.quoted s
  | array vs => "[" ++ String.intercalate ", " (displayItems vs) ++ "]"
  | object ms => "\x7b" ++ String.intercalate ", " (displayMembers ms) ++ "\x7d"

/-- The items of an array as messages show them. -/
def displayItems : List Json → List String
  | [] => []
  | v :: vs => display v :: displayItems vs

/-- The members of an object as messages show them. -/
def displayMembers : List (String × Json) → List String
  | [] => []
  | (k, v) :: ms => (Text.quoted k ++ ": " ++ display v) :: displayMembers ms

end

/-- A value as running text: a string without its quotes, anything else as `display` shows it. -/
def plainText : Json → String
  | str s => s
  | v => display v

end Json

end MailRules
