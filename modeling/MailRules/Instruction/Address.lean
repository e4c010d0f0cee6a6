import MailRules.Rule.Canonical
import MailRules.Text.Segment

set_option autoImplicit false

/-!
# Addresses in instructions

What counts as a host name, a domain after an `@`, and an e-mail address, and what a token of a
sentence says. Letters are those of the English alphabet in either case, and the four characters
that match one of them when case is ignored (`isLetter`).

A host name whose last label is a common file extension is taken for the name of a file, unless an
`@` stands before it.
-/

namespace MailRules.Instruction

open Text

/-- A letter of the English alphabet when case is ignored: the long s, the Kelvin sign, and the i
with and without a dot count. -/
def isLetter (c : Char) : Bool :=
  c.isAlpha || c = 'ſ' || c = '\u212a' || c = 'İ' || c = 'ı'

/-- A letter or a digit. -/
def isLetterOrDigit (c : Char) : Bool :=
  isLetter c || c.isDigit

/-- A character that may stand inside a label. -/
def isLabelChar (c : Char) : Bool :=
  isLetterOrDigit c || c = '-'

/-- A character of an address beside its `@`. -/
def isAddressChar (c : Char) : Bool :=
  !isBlank c && c ≠ '@'

/-- A label of a host name: at most 63 characters, with a letter or digit at both ends. -/
def isLabel (l : List Char) : Bool :=
  l.length ≤ 63 && l.all isLabelChar && l.head?.any isLetterOrDigit &&
    l.getLast?.any isLetterOrDigit

/-- A last label of a host name: two letters up to 63. -/
def isTopLabel (l : List Char) : Bool :=
  2 ≤ l.length && l.length ≤ 63 && l.all isLetter

/-- Labels of which all but the last, at least one, are of a class and the last is a last label. -/
def areLabels (inner : List Char → Bool) (labels : List (List Char)) : Bool :=
  match labels.reverse with
  | top :: l :: rest => isTopLabel top && (l :: rest).all inner
  | _ => false

/-- A host name. -/
def isHostName (s : List Char) : Bool :=
  areLabels isLabel (segments '.' s)

/-- What may follow the `@` of an address in a sentence. -/
def isLooseHost (s : List Char) : Bool :=
  areLabels (fun l => !l.isEmpty && l.all isLabelChar) (segments '.' s)

/-- An `@` and a text without blanks or another `@`. -/
def isAtDomain : List Char → Bool
  | '@' :: r => !r.isEmpty && r.all isAddressChar
  | _ => false

/-- Two texts without blanks or `@`, and an `@` in between. -/
def isBareAddress (s : List Char) : Bool :=
  match cutAt '@' s with
  | some (l, d) => !l.isEmpty && !d.isEmpty && l.all isAddressChar && d.all isAddressChar
  | none => false

/-- An address whose domain looks like a host name. -/
def isAddress (s : List Char) : Bool :=
  match cutAt '@' s with
  | some (l, d) => !l.isEmpty && l.all isAddressChar && isLooseHost d
  | none => false

/-- Endings of file and tool names that are not the ends of host names. -/
def fileExtensions : List (List Char) :=
  ["pdf", "doc", "docx", "xls", "xlsx", "ppt", "pptx", "csv", "txt", "rtf", "md",
    "js", "ts", "py", "rb", "java", "json", "xml", "html", "htm",
    "png", "jpg", "jpeg", "gif", "svg", "zip", "tar", "gz", "exe"].map String.toList

/-- The label after the last full stop. -/
def lastLabel (s : List Char) : List Char :=
  (segments '.' s).getLast?.getD []

/-- Whether a text ends like the name of a file. -/
def hasFileExtension (s : List Char) : Bool :=
  fileExtensions.contains (lower (lastLabel s))

/-- A host name that is not the name of a file. -/
def looksLikeHost (s : List Char) : Bool :=
  isHostName s && !hasFileExtension s

/-- What a token names: a kind of address and its canonical pattern. -/
structure Candidate where
  kind : RuleKind
  pattern : List Char
  deriving Repr, DecidableEq

/-- The candidate of a kind for a token. -/
def Candidate.of (kind : RuleKind) (token : List Char) : Candidate :=
  ⟨kind, Canonical.patternChars kind token⟩

/-- What a token names, if it has the shape of an address. -/
def classify? (token : List Char) : Option Candidate :=
  if isAtDomain token && isHostName token.tail then some (.of .domain token)
  else if isAddress token then some (.of .email token)
  else if looksLikeHost token then some (.of .domain token)
  else none

/-- Punctuation that wraps an address inside a sentence; the code is that of the grave accent. -/
def isWrapper (c : Char) : Bool :=
  "\"'()[]<>\x7b\x7d,;:!?.".toList.contains c || c.toNat = 96

/-- The tokens of a sentence: its words without wrapping punctuation, empty ones left out. -/
def tokens (s : List Char) : List (List Char) :=
  ((words s).map (strip isWrapper)).filter (fun t => !t.isEmpty)

/-- Adds a candidate at the end unless it is there. -/
def addNew (acc : List Candidate) (c : Candidate) : List Candidate :=
  if acc.contains c then acc else acc ++ [c]

/-- The distinct addresses of a sentence in the order of their first mention. -/
def candidates (s : List Char) : List Candidate :=
  ((tokens s).filterMap classify?).foldl addNew []

example : classify? "Ann@Acme.com".toList = some ⟨.email, "ann@acme.com".toList⟩ := by
  decide +kernel
example : classify? "invoice.PDF".toList = none ∧
    classify? "@invoice.pdf".toList = some ⟨.domain, "invoice.pdf".toList⟩ := by decide +kernel

end MailRules.Instruction
