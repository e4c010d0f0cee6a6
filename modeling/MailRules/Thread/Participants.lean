import MailRules.Json.Reader
import MailRules.Text.Blank
import MailRules.Text.Lower

set_option autoImplicit false

/-!
# Participants of a thread

A thread keeps its participants as the JSON array of texts like `Ann <ann@x.com>`; older ones have
a bare text. `decode` says which it is, `sender` takes the first participant apart, and `Subject.of`
is the view of a thread that rules look at. Every text has a reading.
-/

namespace MailRules

/-- What stored participants are. -/
inductive Participants
  /-- Nothing: blank, absent, or an array without items. -/
  | empty
  /-- The texts of an array that starts with one; the first of them apart. -/
  | entries (first : String) (others : List String)
  /-- A text of another form. -/
  | text (raw : String)
  deriving Repr, DecidableEq

namespace Participants

open Text

/-- The texts among values that are not blank. -/
def textsOf (items : List Json) : List String :=
  items.filterMap fun v =>
    match v with
    | .str s => if isBlankText s then none else some s
    | _ => none

/-- What a stored text is. A text that is no JSON is kept as it is; only nesting beyond measure
makes it unreadable. -/
def decode? (raw : Option String) : Option Participants :=
  match raw with
  | none => some empty
  | some s =>
    if isBlankText s then some empty
    else
      match Json.read s with
      | .error .tooDeep => none
      | .ok (.array []) => some empty
      | .ok (.array (.str first :: others)) =>
        if isBlankText first then some (text s) else some (entries first (textsOf others))
      | _ => some (text s)

/-- The name of the form, as reports show it. -/
def encoding : Participants → String
  | empty => "empty"
  | entries _ _ => "json_list"
  | text _ => "text"

/-- The texts of the participants. -/
def list : Participants → List String
  | empty => []
  | entries first others => first :: others
  | text raw => [raw]

end Participants

/-- The name and the address of a participant. -/
structure Sender where
  name : String
  email : String
  deriving Repr, DecidableEq

namespace Sender

open Text

/-- The sender of a thread without participants. -/
def unknown : Sender := ⟨"Unknown", "unknown"⟩

/-- A character inside angle brackets: no blank and no bracket. -/
def isBracketed (c : Char) : Bool :=
  c ≠ '<' && c ≠ '>' && !isBlank c

/-- The address inside a text that follows an opening bracket: characters with an `@` among them
that is neither the first nor the last, and a closing bracket. -/
def bracketed? (s : List Char) : Option (List Char) :=
  match s.dropWhile isBracketed with
  | '>' :: _ =>
    let a := s.takeWhile isBracketed
    if a.tail.dropLast.contains '@' then some a else none
  | _ => none

/-- The first address in angle brackets, and the text before its bracket. -/
def findBracketed : List Char → Option (List Char × List Char)
  | [] => none
  | c :: r =>
    match if c = '<' then bracketed? r else none with
    | some a => some ([], a)
    | none => (findBracketed r).map (fun p => (c :: p.1, p.2))

/-- The sender that a text with an address in angle brackets names. The name is what stands before
the bracket, without quotes, or else the address. -/
def ofBracketed? (entry : List Char) : Option Sender :=
  (findBracketed entry).map fun (before, address) =>
    let email := lower address
    let name := trim (strip (· = '"') (trim before))
    ⟨String.ofList (if name.isEmpty then email else name), String.ofList email⟩

/-- The sender that one participant's text names; without brackets the whole trimmed text is both
name and address. -/
def ofEntry (entry : String) : Sender :=
  let trimmed := trim entry.toList
  ⟨String.ofList trimmed, String.ofList (lower trimmed)⟩

/-- The sender of a thread. -/
def ofParticipants : Participants → Sender
  | .empty => unknown
  | .entries first _ => (ofBracketed? first.toList).getD (ofEntry first)
  | .text raw => (ofBracketed? (trim raw.toList)).getD (ofEntry raw)

end Sender

/-- What rules look at: who a thread is from, and its title in lower case. -/
structure Subject where
  sender : String
  email : String
  title : String := ""
  deriving Repr, DecidableEq

namespace Subject

/-- The part of the sender's address after the first `@`, or nothing. -/
def domain (s : Subject) : String :=
  match Text.cutAt '@' s.email.toList with
  | some (_, d) => String.ofList d
  | none => ""

/-- The subject of a thread whose participants are decoded. -/
def ofSender (sender : Sender) (title : String) : Subject :=
  ⟨sender.name, sender.email, Text.mapText Text.lower title⟩

/-- The subject of a thread, unless its participants are nested beyond measure. -/
def of? (participants : Option String) (title : Option String) : Option Subject :=
  (Participants.decode? participants).map fun p =>
    ofSender (Sender.ofParticipants p) (title.getD "")

end Subject

end MailRules
