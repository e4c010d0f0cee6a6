import MailRules.Text.Disorder
import MailRules.Text.Encoding

set_option autoImplicit false

/-!
# Encoded documents

A JSON document that comes as bytes does not say how its characters are encoded, but as a rule it
begins with two characters below 128. So where its first four bytes are zero tells how many bytes a
character takes and which of them comes first. Where that tells nothing, or something wrong, the
reading with the least disorder is taken.

`decoded` is the text of a document whose bytes were taken for UTF-8 at first.
-/

namespace MailRules.Json

/-- An encoding in which every character takes two bytes or four, the most significant one first or
last. -/
inductive Wide
  | two (order : Text.ByteOrder)
  | four (order : Text.ByteOrder)
  deriving Repr, DecidableEq

/-- The text that bytes spell in a wide encoding. -/
def Wide.decode? : Wide → List UInt8 → Option String
  | two order, bytes => Text.ofUtf16? order bytes
  | four order, bytes => Text.ofUtf32? order bytes

/-- The wide encoding that the zeros among the first four bytes tell. -/
def wideEncoding? (bytes : List UInt8) : Option Wide :=
  match (bytes.take 4).map (· == 0) with
  | [true, false, true, false] => some (.two .big)
  | [false, true, false, true] => some (.two .little)
  | [true, true, true, false] => some (.four .big)
  | [false, true, true, true] => some (.four .little)
  | _ => none

/-- Whether none of the first bytes is zero, and there are enough of them to tell. -/
def looksNarrow (bytes : List UInt8) : Bool :=
  4 ≤ bytes.length && !(bytes.take 4).contains 0

/-- A text that bytes may spell, and its disorder. -/
structure Guess where
  text : String
  disorder : Nat
  deriving Repr, DecidableEq

/-- A text as a guess. -/
def Guess.of (text : String) : Guess :=
  ⟨text, Text.disorder text.toList⟩

/-- Whether a guess is preferred to one that comes before it: for less disorder, or for fewer
characters if there is about as much. -/
def Guess.beats (new old : Guess) : Bool :=
  if new.disorder < old.disorder + 10 && old.disorder < new.disorder + 10 then
    new.text.length < old.text.length
  else new.disorder < old.disorder

/-- The disorder below which a text in UTF-8 is not doubted. -/
def trustLimit : Nat := 100

/-- The wide encodings, in the order in which they are tried. -/
def Wide.all : List Wide :=
  [two .big, two .little, four .big, four .little]

/-- The likeliest text of a document, which is the text given unless that is doubtful and another
one is likelier. -/
def likeliest (body : String) (bytes : List UInt8) : String :=
  let own := Guess.of body
  if own.disorder < trustLimit then body
  else
    let others := Wide.all.filterMap fun w => (w.decode? bytes).map Guess.of
    match (own :: others).filter (·.disorder < Text.disorderLimit) with
    | [] => body
    | r :: rs => (rs.foldl (fun old new => if new.beats old then new else old) r).text

/-- The text of a document whose bytes are those of a text in UTF-8. A mark of the encoding at the
start is no part of it. -/
def decoded (body : String) : String :=
  match body.toList with
  | '\ufeff' :: rest => String.ofList rest
  | _ =>
    let bytes := Text.utf8Bytes body
    if looksNarrow bytes then body
    else
      match (wideEncoding? bytes).bind (·.decode? bytes) with
      | some text => text
      | none => likeliest body bytes

example : decoded "\ufeff\x7b\x7d" = "\x7b\x7d" := by decide +kernel
example : decoded "\x7b\x00\x7d\x00" = "\x7b\x7d" := by decide +kernel
example : decoded "1\x00\x00" = "1\x00\x00" := by decide +kernel
example : decoded "1\x00" = "1" := by decide +kernel
example : decoded "\x7b\x7d\x00\x00" = "絻" := by decide +kernel

end MailRules.Json
