import MailRules.Rule.Basic
import MailRules.Text.Blank
import MailRules.Text.Lower

set_option autoImplicit false

/-!
# Canonical form

Rules are stored and compared in canonical form: patterns and exceptions trimmed and in lower case,
notes trimmed, blank texts absent. The pattern of a domain also loses every `@` and ASCII blank at
its start, so that `@example.com` and `@ example.com` are the same domain.

A rule's identity (`Draft.key`) is all of it but the confidence.
-/

namespace MailRules

namespace Canonical

open Text

/-- What may stand before a domain: the `@` sign and the six ASCII blanks. -/
def isDomainLead (c : Char) : Bool :=
  c = '@' || c = ' ' || c = '\t' || c = '\n' || c = '\r' || c = '\x0b' || c = '\x0c'

/-- The canonical characters of a pattern. -/
def patternChars (kind : RuleKind) (p : List Char) : List Char :=
  match kind with
  | .domain => lower (stripStart isDomainLead (trim p))
  | _ => lower (trim p)

/-- The canonical form of a pattern. -/
def pattern (kind : RuleKind) (p : String) : String :=
  mapText (patternChars kind) p

/-- A text, or nothing when it is empty. -/
def nonEmpty? (s : String) : Option String :=
  if s = "" then none else some s

/-- The canonical form of an exception. -/
def exception (e : Option String) : Option String :=
  e.bind fun s => nonEmpty? (mapText (fun cs => lower (trim cs)) s)

/-- The canonical form of notes. -/
def notes (n : Option String) : Option String :=
  n.bind fun s => nonEmpty? (mapText trim s)

example : pattern .domain "@ @Example.COM " = "example.com" := by decide +kernel
example : pattern .email " Ann@X.com" = "ann@x.com" := by decide +kernel

end Canonical

namespace Draft

/-- What tells two canonical drafts apart. -/
structure Key where
  kind : RuleKind
  pattern : String
  action : RuleAction
  exception : Option String
  notes : Option String
  deriving Repr, DecidableEq

/-- The identity of a draft. -/
def key (d : Draft) : Key :=
  ⟨d.kind, d.pattern, d.action, d.exception, d.notes⟩

/-- The canonical form of a draft, unless its pattern is empty then. -/
def canonical? (d : Draft) : Option Draft :=
  let p := Canonical.pattern d.kind d.pattern
  if p = "" then none
  else some { d with
    pattern := p
    exception := Canonical.exception d.exception
    notes := Canonical.notes d.notes }

end Draft

end MailRules
