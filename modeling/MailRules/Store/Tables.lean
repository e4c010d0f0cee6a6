import MailRules.Audit.Event
import MailRules.Rule.Basic
import MailRules.Store.Rank

set_option autoImplicit false

/-!
# Tables

What a store holds: rules, audit events, threads and tasks. Rules and events have ranks in the order
in which they are written, both from one counter, and are listed with the greatest rank first.
Threads and tasks stay in the order in which they came.
-/

namespace MailRules.Store

/-- Something that was written, and its rank. -/
structure Row (α : Type) where
  rank : Rank
  value : α
  deriving Inhabited

/-- Rows by their ranks, the greatest first; of equal ranks the later row. -/
def newestFirst {α : Type} (rows : List (Row α)) : List α :=
  (rows.reverse.mergeSort (fun a b => b.rank.le a.rank)).map Row.value

/-- A rule as the store keeps it: its confidence is a float or nothing. -/
def keptRule (r : Rule) : Rule :=
  { r with draft := { r.draft with
      confidence := (r.draft.confidence.bind Number.stored?).map .real } }

/-- An event as the store keeps it: its details are a text. -/
structure KeptEvent where
  id : String
  actor : String
  kind : Audit.Kind
  entity : String
  entityId : String
  createdAt : String
  details : String
  deriving Inhabited

/-- The event that is kept. -/
def KeptEvent.event (e : KeptEvent) : Audit.Event :=
  ⟨e.id, e.actor, e.kind, e.entity, e.entityId, e.createdAt, Audit.detailsOf e.details⟩

/-- A thread with its participants as they were given. -/
structure Thread where
  id : String
  subject : Option String
  participants : Option String
  deriving Repr, DecidableEq, Inhabited

/-- A task, perhaps of a thread. -/
structure Task where
  id : String
  title : String
  thread : Option String
  deriving Repr, DecidableEq, Inhabited

/-- How many identifiers have been given out. -/
structure Issued where
  rules : Nat := 0
  events : Nat := 0
  threads : Nat := 0
  tasks : Nat := 0
  deriving Repr, DecidableEq, Inhabited

/-- All tables of a store. -/
structure Tables where
  rules : List (Row Rule) := []
  events : List (Row KeptEvent) := []
  threads : List Thread := []
  tasks : List Task := []
  issued : Issued := {}
  deriving Inhabited

namespace Tables

/-- The rank from which counting goes on: the greatest one of all rows. -/
def lastRank (t : Tables) : Rank :=
  .start (Rank.greatest? (t.rules.map Row.rank ++ t.events.map Row.rank))

/-- The rule with an identifier. -/
def rule? (t : Tables) (id : String) : Option Rule :=
  (t.rules.find? (·.value.id = id)).map Row.value

/-- The thread with an identifier. -/
def thread? (t : Tables) (id : String) : Option Thread :=
  t.threads.find? (·.id = id)

end Tables

/-- A task with the thread that it belongs to, if that exists. -/
structure TaskView where
  task : Task
  thread : Option Thread
  deriving Repr, DecidableEq, Inhabited

/-- A task with its thread. -/
def Tables.view (t : Tables) (task : Task) : TaskView :=
  ⟨task, task.thread.bind t.thread?⟩

/-- What new rows are marked with: identifiers by how many were given out before, and the time. -/
structure Marks where
  rule : Nat → String
  event : Nat → String
  thread : Nat → String
  task : Nat → String
  time : String

end MailRules.Store
