import MailRules.Rule.Basic
import MailRules.Text.Blank
import MailRules.Text.Lower
import MailRules.Text.Segment

set_option autoImplicit false

/-!
# Columns of a sheet

The heading of a column says what its cells are: rules, exceptions, notes or actions. The heading of
a column of rules may also say their kind and their action.
-/

namespace MailRules.Sheet

/-- What the cells of a column are. -/
inductive Role
  | rule
  | exception
  | notes
  | action
  deriving Repr, DecidableEq, Inhabited

/-- The name of a role in reports. -/
def Role.name : Role → String
  | rule => "rule"
  | exception => "exception"
  | notes => "notes"
  | action => "action"

/-- A column of a sheet. -/
structure Column where
  index : Nat
  heading : String
  role : Role
  kind : Option RuleKind := none
  action : Option RuleAction := none
  deriving Repr, DecidableEq, Inhabited

/-- A text in lower case. -/
def lowered (s : String) : String :=
  Text.mapText Text.lower s

/-- Whether a text has one of the words in it. -/
def hasAny (s : String) (ws : List String) : Bool :=
  ws.any (Text.includes s)

/-- Words that stand for an action, the first to be looked for first. -/
def actionWords : List (String × RuleAction) :=
  [("suppress", .suppress), ("block", .suppress), ("exclude", .suppress), ("ignore", .suppress),
    ("spam", .suppress), ("vip", .vip), ("allow", .vip), ("include", .vip), ("track", .vip)]

/-- The action that a text has a word for. -/
def actionIn (s : String) : Option RuleAction :=
  (actionWords.find? (fun w => Text.includes (lowered s) w.1)).map Prod.snd

/-- The kind of rule that a heading has a word for. -/
def kindIn (heading : String) : Option RuleKind :=
  let s := lowered heading
  if hasAny s ["email", "sender"] then some .email
  else if hasAny s ["domain", "host"] then some .domain
  else if hasAny s ["topic", "keyword", "subject", "phrase", "pattern"] then some .topic
  else none

/-- The column with a heading. -/
def Column.ofHeading (index : Nat) (heading : String) : Column :=
  let s := lowered heading
  if hasAny s ["unless", "exception", "skip", "if not"] then
    ⟨index, heading, .exception, none, none⟩
  else if hasAny s ["note", "comment", "description", "context"] then
    ⟨index, heading, .notes, none, none⟩
  else if hasAny s ["action", "mode"] then ⟨index, heading, .action, none, none⟩
  else ⟨index, heading, .rule, kindIn heading, actionIn heading⟩

/-- The columns with headings, the first of which has the given index. -/
def Column.ofHeadings (index : Nat) : List String → List Column
  | [] => []
  | h :: hs => .ofHeading index h :: ofHeadings (index + 1) hs

/-- So many columns without headings, all of them rules. -/
def Column.numbered (width : Nat) : List Column :=
  (List.range width).map fun i => ⟨i, s!"Column {i + 1}", .rule, none, none⟩

end MailRules.Sheet
