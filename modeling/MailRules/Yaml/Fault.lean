import MailRules.Decimal.Reading
import MailRules.Failure.Family
import MailRules.Text.Quoted
import MailRules.Yaml.Time

set_option autoImplicit false

/-!
# What is wrong with a YAML text

A text may fail to be a document at all. A scalar may also have the form or the tag of a value
without spelling one (`ValueFault`); such a fault belongs to the family of the value that was to be
read, and not to the document.
-/

namespace MailRules.Yaml

/-- Why a scalar spells no value of its tag. -/
inductive ValueFault
  | time (f : TimeFault)
  /-- A text that has not the form of a time. -/
  | notTime
  /-- Entries where the text of a time is wanted. -/
  | entriesForTime
  /-- A number without digits. -/
  | noDigits
  /-- Digits that are no whole number in a base. -/
  | notWhole (digits : String) (base : Nat)
  /-- A whole number with too many digits. -/
  | tooLong (digits : Nat)
  | notNumber (text : String)
  /-- A float with so many parts that the worth of one is no float. -/
  | tooManyParts
  | notTruth (word : String)
  /-- An escape for a code that no character has; `wide` if it does not even fit in 32 bits with a
  sign. -/
  | noCharacter (wide : Bool)
  /-- Nodes that lie too deep in others, or in themselves. -/
  | endless
  deriving Repr, DecidableEq

/-- The wording of a fault of a value. -/
def ValueFault.message : ValueFault → String
  | time f => f.message
  | notTime => "'NoneType' object has no attribute 'groupdict'"
  | entriesForTime => "expected string or bytes-like object, got 'list'"
  | noDigits => "string index out of range"
  | notWhole digits base =>
    let shown := String.ofList ((Text.quoted digits).toList.take 200)
    "invalid literal for int() with base " ++ String.ofList (Decimal.digitsOf base) ++ ": " ++ shown
  | tooLong digits => Decimal.tooManyDigits digits
  | notNumber text => "could not convert string to float: " ++ Text.quoted text
  | tooManyParts => "int too large to convert to float"
  | notTruth word => word
  | noCharacter wide =>
    if wide then "Python int too large to convert to C int"
    else "chr() arg not in range(0x110000)"
  | endless => ""

/-- The family of a fault of a value. -/
def ValueFault.family : ValueFault → Family
  | notTime => .member
  | entriesForTime => .type
  | noDigits => .index
  | tooManyParts => .overflow
  | notTruth _ => .key
  | noCharacter wide => if wide then .overflow else .value
  | endless => .recursion
  | _ => .value

/-- Why a text is no YAML document. -/
inductive Fault
  /-- A character that may not stand in a document. -/
  | character
  /-- Characters that make no token. -/
  | token
  /-- Tokens that make no document. -/
  | shape
  /-- A name for a node that is missing or given twice. -/
  | anchor
  /-- A node that does not suit its tag. -/
  | tag
  /-- A scalar that spells no value. -/
  | value (f : ValueFault)
  deriving Repr, DecidableEq

end MailRules.Yaml
