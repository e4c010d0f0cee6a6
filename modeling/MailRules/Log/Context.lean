import MailRules.Json.Value

set_option autoImplicit false

/-!
# The context of log lines

Lines of the log carry who acts and which piece of work they belong to, where that is known; both
are texts as a rule, but any value will do. A piece of work may be entered while another is going
on; leaving it brings the other's identifier back, whatever was set in between.
-/

namespace MailRules.Log

/-- What is known about the work that lines come from. -/
structure Context where
  correlation : Option Json := none
  actor : Option Json := none
  deriving Inhabited

namespace Context

/-- The fields that are set, in the order in which lines show them. -/
def fields (c : Context) : Members Json :=
  (c.correlation.map (("correlation_id", ·))).toList ++ (c.actor.map (("actor", ·))).toList

end Context

/-- The current context, and the identifiers that the pieces of work entered are to bring back, the
latest first. -/
structure Scopes where
  current : Context := {}
  saved : List (Option Json) := []
  deriving Inhabited

namespace Scopes

/-- Sets who acts. -/
def setActor (s : Scopes) (actor : Option Json) : Scopes :=
  { s with current := { s.current with actor := actor } }

/-- Sets the identifier of the piece of work. -/
def setCorrelation (s : Scopes) (id : Option Json) : Scopes :=
  { s with current := { s.current with correlation := id } }

/-- Forgets all fields. -/
def clear (s : Scopes) : Scopes :=
  { s with current := {} }

/-- Enters a piece of work. -/
def enter (s : Scopes) (id : Option Json) : Scopes :=
  { s.setCorrelation id with saved := s.current.correlation :: s.saved }

/-- Leaves the piece of work that was entered last. -/
def leave (s : Scopes) : Scopes :=
  match s.saved with
  | [] => s
  | id :: rest => { s.setCorrelation id with saved := rest }

/-- Leaving a piece of work at once brings back the context in which it was entered. -/
@[simp] theorem leave_enter (s : Scopes) (id : Option Json) : (s.enter id).leave = s := rfl

end Scopes

end MailRules.Log
