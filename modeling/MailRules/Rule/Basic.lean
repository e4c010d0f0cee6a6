import MailRules.Json.Printer
import MailRules.Number

set_option autoImplicit false

/-!
# Rules

A rule says which messages it is about (`RuleKind` and a pattern), what to do with them
(`RuleAction`), and perhaps a phrase that excepts a message from it. A `Draft` is a rule that is
not stored yet; storing it gives it an identifier and a time.
-/

namespace MailRules

/-- What part of a message a rule looks at. Rules of other kinds may come from elsewhere; they are
kept and match nothing. -/
inductive RuleKind
  | email
  | domain
  | topic
  | other (name : String)
  deriving Repr, DecidableEq, Inhabited

/-- What happens to a message that a rule matches: it is given priority, or its task is removed. -/
inductive RuleAction
  | vip
  | suppress
  deriving Repr, DecidableEq, Inhabited

namespace RuleKind

/-- The written name of a kind. -/
def name : RuleKind → String
  | email => "EMAIL"
  | domain => "DOMAIN"
  | topic => "TOPIC"
  | other n => n

/-- The known kind of a written name. -/
def ofName? (s : String) : Option RuleKind :=
  if s = "EMAIL" then some email
  else if s = "DOMAIN" then some domain
  else if s = "TOPIC" then some topic
  else none

/-- The kind of a written name, known or not. -/
def ofName (s : String) : RuleKind :=
  (ofName? s).getD (other s)

@[simp] theorem name_ofName (s : String) : (ofName s).name = s := by
  unfold ofName ofName?
  repeat' split
  all_goals simp_all [name]

end RuleKind

namespace RuleAction

/-- The written name of an action. -/
def name : RuleAction → String
  | vip => "VIP"
  | suppress => "SUPPRESS"

/-- The action of a written name. -/
def ofName? (s : String) : Option RuleAction :=
  if s = "VIP" then some vip
  else if s = "SUPPRESS" then some suppress
  else none

@[simp] theorem ofName?_name (a : RuleAction) : ofName? a.name = some a := by
  cases a <;> rfl

end RuleAction

/-- A rule that has been read or recognised but not stored. -/
structure Draft where
  kind : RuleKind
  pattern : String
  action : RuleAction
  /-- A phrase that excepts messages whose title has it. -/
  exception : Option String := none
  notes : Option String := none
  /-- How sure the reading is, from 0 to 1. -/
  confidence : Option Number := none
  deriving Inhabited

namespace Draft

/-- The members of a draft's record, in order. -/
def members (d : Draft) : List (String × Json) :=
  [("type", .str d.kind.name), ("pattern", .str d.pattern), ("action", .str d.action.name),
    ("unless_contains", .ofText? d.exception), ("notes", .ofText? d.notes),
    ("confidence", (d.confidence.map Number.toJson).getD .null)]

/-- A draft as a record. -/
def toJson (d : Draft) : Json :=
  .object d.members

end Draft

/-- A stored rule. -/
structure Rule where
  id : String
  draft : Draft
  createdAt : String := ""
  deriving Inhabited

namespace Rule

/-- A stored rule as a record. -/
def toJson (r : Rule) : Json :=
  .object (("id", .str r.id) :: r.draft.members ++ [("created_at", .str r.createdAt)])

end Rule

end MailRules
