import MailRules.Log.Line
import MailRules.Log.Setup

set_option autoImplicit false

/-!
# Writing the log

What a source says becomes a record when the context is put on it. A log that has been set up takes
records that are grave enough: each goes to every handler that it is grave enough for, as a line in
the handler's style.
-/

namespace MailRules.Log

/-- The style in which a handler writes. -/
def Handler.style (h : Handler) : Style :=
  if h.json then .json else .plain

/-- The rank from which on a log takes records. Rank 0 sets none; a log of that rank goes by what
holds where nothing has been set up, and takes warnings and what is graver. -/
def Setup.threshold (s : Setup) : Nat :=
  if s.rank = 0 then Level.warning.rank else s.rank

/-- What a handler of a log writes for records. -/
def Setup.writes (s : Setup) (h : Handler) (records : List Record) : String :=
  transcript h.style (max s.threshold h.rank) records

/-- Something that a source says. -/
structure Remark where
  level : Level
  /-- The name of the source, with full stops between its parts. -/
  source : String
  /-- The component to be shown, if the remark brings one; it may bring null. -/
  component : Option Json := none
  template : String
  args : List Json := []
  /-- Seconds since the start of 1970. -/
  created : Number := .whole 0
  failure : Option Raised := none
  deriving Inhabited

/-- The record of a remark that is made in a context. Its component is the one that it brings, or the
one that the name of its source ends in. -/
def Remark.record (r : Remark) (context : Context) : Record where
  level := r.level
  component := r.component.getD (.str (componentOf r.source))
  template := r.template
  args := r.args
  created := r.created
  context := context
  failure := r.failure

/-- The record of an entry that was made in a context at a time. -/
def Entry.record (e : Entry) (context : Context) (created : Float) : Record where
  level := e.level
  component := .str e.component
  template := e.message
  created := .real created
  context := context

end MailRules.Log
