import MailRules.Failure.Basic
import MailRules.Log.Entry

set_option autoImplicit false

/-!
# Reports of failures

One line of the log says what was attempted, how it failed, and what it was about. Addresses in the
failure's text and in the values that go with it are masked; values that are null are left out.
-/

namespace MailRules

namespace Privacy

/-- One thing that a report is about. -/
def showMember (m : String × Json) : String :=
  m.1 ++ "=" ++ m.2.plainText

/-- What a report is about, after its failure. -/
def contextSuffix (context : Members Detail) : String :=
  match (Detail.redactMembers context).filter (fun m => !m.2 matches .null) with
  | [] => ""
  | ms => " | Context: " ++ String.intercalate ", " (ms.map showMember)

end Privacy

namespace Log

/-- The report of a failure with the name of its family and its text, at a level, under a code. -/
def report (level : Level) (code operation family text : String)
    (context : Members Privacy.Detail) : Entry :=
  let shown := Privacy.mask text
  let suffix := Privacy.contextSuffix context
  ⟨level, "errors", s!"[{code}] {operation} failed: {family}: {shown}{suffix}"⟩

/-- The line that shows a value under a heading, its addresses masked. -/
def valueLine (level : Level) (heading : String) (value : Privacy.Detail) : Entry :=
  let shown := value.redact.plainText
  ⟨level, "redact", s!"{heading} {shown}"⟩

end Log

end MailRules
