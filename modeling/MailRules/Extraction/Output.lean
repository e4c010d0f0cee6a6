import MailRules.Rule.Record
import MailRules.Json.Reader
import MailRules.Text.Segment

set_option autoImplicit false

/-!
# What a language model gives back

A language model is asked for a rule as a JSON object and is not trusted. Its answer may be wrapped
in a fence of three grave accents; inside, there has to be a record, which becomes a draft in
canonical form.

A whole number with too many digits and nesting that is too deep are no faults of the answer: they
stop the reading itself (`OutputFault.unreadable`).
-/

namespace MailRules

/-- What a language model answers: a text, or a value that is decoded already. -/
inductive Output
  | text (s : String)
  | value (v : Json)
  deriving Inhabited

/-- A value as an answer; a string is a text. -/
def Output.ofJson : Json → Output
  | .str s => text s
  | v => value v

/-- Why an answer is refused. -/
inductive OutputFault
  /-- The text is no JSON; the wording of the fault in it. -/
  | malformed (message : String)
  | notObject (kind : String)
  | notRecord (r : Rejection)
  | emptyPattern
  /-- The reading of the text broke off. -/
  | unreadable (f : Json.Fault)
  deriving Repr, DecidableEq

namespace Output

open Text

/-- The grave accent. -/
def grave : Char := Char.ofNat 96

/-- Three grave accents, which open and close a fence. -/
def fence : List Char := [grave, grave, grave]

/-- The lines of a text joined again. -/
def unlines (ls : List (List Char)) : List Char :=
  join ['\n'] ls

/-- A trimmed text without the fence around it. The opening line goes, and the last line if it
begins with a fence, or else the accents at the end. -/
def withoutFence (s : List Char) : List Char :=
  if !fence.isPrefixOf s then s
  else
    let lines := segments '\n' s
    if 2 < lines.length && fence.isPrefixOf (trim (lines.getLast?.getD [])) then
      unlines lines.tail.dropLast
    else stripEnd (· = grave) (unlines lines.tail)

/-- The JSON text in an answer. -/
def body (s : String) : String :=
  mapText (fun cs => trim (withoutFence (trim cs))) s

/-- The value in an answer. -/
def decode : Output → Except OutputFault Json
  | value v => .ok v
  | text s =>
    match Json.read (body s) with
    | .ok v => .ok v
    | .error (.malformed p n) => .error (.malformed ((Json.Fault.malformed p n).message (body s)))
    | .error f => .error (.unreadable f)

/-- The draft that a decoded answer stands for. -/
def toDraft (v : Json) : Except OutputFault Draft :=
  match v with
  | .object ms =>
    match Draft.ofRecord (.object ms) with
    | .error r => .error (.notRecord r)
    | .ok d =>
      match d.canonical? with
      | some c => .ok c
      | none => .error .emptyPattern
  | v => .error (.notObject v.kindName)

/-- The draft that an answer stands for. -/
def read (o : Output) : Except OutputFault Draft :=
  match decode o with
  | .error e => .error e
  | .ok v => toDraft v

end Output

end MailRules
