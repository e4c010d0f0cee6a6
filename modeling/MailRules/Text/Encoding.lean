set_option autoImplicit false

/-!
# Encodings

Bytes as text. A decoder gives nothing for bytes that are no text in its encoding: a stretch cut
off at the end, a code that no character has, or half of a pair.
-/

namespace MailRules.Text

/-- The bytes of a text in UTF-8. -/
def utf8Bytes (s : String) : List UInt8 :=
  s.toUTF8.toList

/-- The text that bytes spell in UTF-8. -/
def ofUtf8? (bytes : List UInt8) : Option String :=
  String.fromUTF8? ⟨bytes.toArray⟩

/-- The character with a code, if there is one. -/
def charOf? (code : Nat) : Option Char :=
  if code.isValidChar then some (Char.ofNat code) else none

/-- Whether a text has several bytes a code with the most significant one first or last. -/
inductive ByteOrder
  | big
  | little
  deriving Repr, DecidableEq

/-- The number that bytes spell. -/
def numberOfBytes (order : ByteOrder) (bytes : List UInt8) : Nat :=
  let digits := match order with
    | .big => bytes
    | .little => bytes.reverse
  digits.foldl (fun n b => n * 256 + b.toNat) 0

/-- The numbers of two bytes each that bytes spell. -/
def pairsOf? (order : ByteOrder) : List UInt8 → Option (List Nat)
  | [] => some []
  | [_] => none
  | a :: b :: r => (pairsOf? order r).map (numberOfBytes order [a, b] :: ·)

/-- The numbers of four bytes each that bytes spell. -/
def fourfoldsOf? (order : ByteOrder) : List UInt8 → Option (List Nat)
  | [] => some []
  | a :: b :: c :: d :: r => (fourfoldsOf? order r).map (numberOfBytes order [a, b, c, d] :: ·)
  | _ => none

/-- The characters that numbers of sixteen bits spell; a number in the upper half of the codes set
aside for pairs is followed by one in the lower half. -/
def joinPairs? : List Nat → Option (List Char)
  | [] => some []
  | u :: r =>
    if 0xd800 ≤ u && u < 0xdc00 then
      match r with
      | v :: t =>
        if 0xdc00 ≤ v && v < 0xe000 then
          (joinPairs? t).map (Char.ofNat (0x10000 + (u - 0xd800) * 0x400 + (v - 0xdc00)) :: ·)
        else none
      | [] => none
    else do
      let c ← charOf? u
      return c :: (← joinPairs? r)

/-- The text that bytes spell in UTF-16. -/
def ofUtf16? (order : ByteOrder) (bytes : List UInt8) : Option String :=
  ((pairsOf? order bytes).bind joinPairs?).map String.ofList

/-- The text that bytes spell in UTF-32. -/
def ofUtf32? (order : ByteOrder) (bytes : List UInt8) : Option String :=
  ((fourfoldsOf? order bytes).bind (List.mapM charOf?)).map String.ofList

/-! ## Base 64 -/

/-- The six bits that a character stands for. -/
def sixBits? (c : Char) : Option Nat :=
  if c.isUpper then some (c.toNat - 65)
  else if c.isLower then some (c.toNat - 71)
  else if c.isDigit then some (c.toNat + 4)
  else if c = '+' then some 62
  else if c = '/' then some 63
  else none

/-- The bytes that a text spells in base 64. `held` is how many characters of a group of four have
been met, `left` the bits of the last one that are still to be used, and `pads` how many signs of
padding follow it. Other characters are passed over, and the text ends where a group is padded. -/
def base64From? (held left pads : Nat) : List Char → Option (List UInt8)
  | [] => if held = 0 then some [] else none
  | '=' :: r =>
    if held < 2 then base64From? held left pads r
    else if 4 ≤ held + pads + 1 then some []
    else base64From? held left (pads + 1) r
  | c :: r =>
    match sixBits? c with
    | none => base64From? held left pads r
    | some v =>
      match held with
      | 0 => base64From? 1 v 0 r
      | 1 => (base64From? 2 (v % 16) 0 r).map (UInt8.ofNat (left * 4 + v / 16) :: ·)
      | 2 => (base64From? 3 (v % 4) 0 r).map (UInt8.ofNat (left * 16 + v / 4) :: ·)
      | _ => (base64From? 0 0 0 r).map (UInt8.ofNat (left * 64 + v) :: ·)

/-- The bytes that a text spells in base 64. -/
def ofBase64? (s : String) : Option (List UInt8) :=
  base64From? 0 0 0 s.toList

example : ofBase64? "aGVsbG8=" = some (utf8Bytes "hello") := by decide +kernel
example : ofBase64? "ab=c=" = some [0x69, 0xb7] := by decide +kernel
example : ofBase64? "ab" = none ∧ ofBase64? "a===" = none := by decide +kernel
example : ofUtf16? .big [0xd8, 0x3d, 0xde, 0x00] = some "😀" := by decide +kernel
example : ofUtf16? .little [0x3d, 0xd8] = none := by decide +kernel
example : ofUtf32? .little [0x41, 0, 0, 0] = some "A" := by decide +kernel

end MailRules.Text
