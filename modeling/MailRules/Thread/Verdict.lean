import MailRules.Rule.Basic
import MailRules.Thread.Participants

set_option autoImplicit false

/-!
# Verdicts

Whether a rule applies to a subject, and which rule of a list is the first to. A rule applies when
its pattern does and its exception is not in the title; the exception of one rule has no say on
another. Rules of the other action do not take part in a verdict.
-/

namespace MailRules

namespace Rule

open Text

/-- Whether the pattern of a rule fits a subject: the whole address, the whole domain, or a part of
the title. An empty pattern of a domain or topic fits nothing. -/
def fits (r : Rule) (s : Subject) : Bool :=
  match r.draft.kind with
  | .email => s.email = r.draft.pattern
  | .domain => s.domain ≠ "" && s.domain = r.draft.pattern
  | .topic => r.draft.pattern ≠ "" && includes s.title r.draft.pattern
  | .other _ => false

/-- Whether the exception of a rule is in the title of a subject. -/
def excepts (r : Rule) (s : Subject) : Bool :=
  match r.draft.exception with
  | some e => e ≠ "" && includes s.title e
  | none => false

/-- Whether a rule applies to a subject. -/
def applies (r : Rule) (s : Subject) : Bool :=
  r.fits s && !r.excepts s

end Rule

/-- The first rule with an action that applies to a subject. -/
def firstApplying (a : RuleAction) (rules : List Rule) (s : Subject) : Option Rule :=
  rules.find? (fun r => r.draft.action = a && r.applies s)

/-- Whether some rule removes the tasks of a subject. -/
def suppressed (rules : List Rule) (s : Subject) : Bool :=
  (firstApplying .suppress rules s).isSome

/-- Whether some rule gives a subject priority. -/
def prioritised (rules : List Rule) (s : Subject) : Bool :=
  (firstApplying .vip rules s).isSome

end MailRules
