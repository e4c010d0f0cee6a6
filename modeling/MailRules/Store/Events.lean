import MailRules.Store.Row

set_option autoImplicit false

/-!
# Audit events in the store

Events are only ever added, each in a transaction of its own, and are listed newest first.
-/

namespace MailRules.Store

/-- The event that a note becomes next, as the store keeps it. -/
def nextEvent (s : Store) (n : Audit.Note) : KeptEvent :=
  ⟨s.marks.event s.tables.issued.events, n.actor, n.kind, n.entity, n.entityId, s.marks.time,
    n.text⟩

/-- Adds an event with a rank. -/
def addEvent (s : Store) (rank : Rank) (e : KeptEvent) : Store :=
  { s with tables := { s.tables with
      events := s.tables.events ++ [⟨rank, e⟩]
      issued := { s.tables.issued with events := s.tables.issued.events + 1 } } }

/-- The place of the column of ranks in the table of events, counted from one. -/
def eventRankPlace : Nat := 8

/-- Why a note cannot be written, if so: for a key without a name, or for a whole number with too
many digits. -/
def refusal? (n : Audit.Note) : Option Failure :=
  match n.refusal with
  | some f => some (.details f)
  | none => if n.isWritable then none else some .tooManyDigits

/-- Writes an event inside a transaction. -/
def writeEvent (s : Store) (n : Audit.Note) : Outcome Unit :=
  match refusal? n with
  | some f => (.error f, s)
  | none =>
    match s.giveRank with
    | (.error f, s) => (.error f, s)
    | (.ok v, s) =>
      s.statement (fun _ => .ok ()) fun s =>
        match keptRank eventRankPlace v with
        | .error f => (.error f, s)
        | .ok none => (.error (.store (.missing "audit_events.seq")), s)
        | .ok (some rank) => (.ok (), s.addEvent rank (s.nextEvent n))

/-- Writes an event. -/
def insertEvent (s : Store) (n : Audit.Note) : Outcome Unit :=
  s.guarded .insertEvent (some n.actor) (fun _ => .ok ()) fun s =>
    s.transaction fun s => s.writeEvent n

/-- The first items, or all if the number is negative. -/
def firstItems {α : Type} (limit : Int) (items : List α) : List α :=
  if limit < 0 then items else items.take limit.toNat

/-- The events, newest first, up to a number of them; a negative number is no limit. -/
def listEvents (s : Store) (limit : Int) : Outcome (Answer (List Audit.Event)) :=
  s.answered .listEvents none fun s =>
    let asked := s.question fun t =>
      if Decimal.isWord limit then
        .ok ((firstItems limit (newestFirst t.events)).map KeptEvent.event)
      else .error .outOfRange
    match asked with
    | (.error f, s) => (.error f, s)
    | (.ok rows, s) =>
      Outcome.given ((eachRow rows).bind fun rows => rows.mapM fun row => row.take eventIn, s)

end MailRules.Store
