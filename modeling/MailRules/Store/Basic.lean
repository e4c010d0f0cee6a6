import MailRules.Store.Answer
import MailRules.Store.Disturbance
import MailRules.Store.Tables

set_option autoImplicit false

/-!
# The store

A store is open or closed, and holds tables, the rank that was given to a row last, and what is to
go wrong with it. Every operation gives an outcome and the store that is left.

`transaction` runs work as a whole: if it fails, the tables are what they were before. The ranks
that were given out meanwhile stay given out, so that later rows have greater ones in any case.
-/

namespace MailRules

/-- The store of rules, events, threads and tasks. -/
structure Store where
  tables : Store.Tables := {}
  /-- The rank that was given out last. -/
  counter : Store.Rank := .whole 0
  isOpen : Bool := true
  /-- Whether a transaction is going on. -/
  isBusy : Bool := false
  disturbances : List Store.Disturbance := []
  marks : Store.Marks

/-- What comes of an operation, and the store that is left. -/
abbrev Store.Outcome (α : Type) := Except Failure α × Store

namespace Store

/-- The reason that work inside a transaction gives for its failure. -/
def statementFailure : Failure → Failure
  | .raised ⟨.database, m⟩ => .store (.statement m)
  | f => f

/-- Runs an operation unless a disturbance strikes; `instead` says what a value in place of its
answer comes to. -/
def guarded {α : Type} (s : Store) (op : Operation) (subject : Option String)
    (instead : Json → Except Failure α) (run : Store → Outcome α) : Outcome α :=
  match strike op subject s.disturbances with
  | (some (.failure r), ds) => (.error (.raised r), { s with disturbances := ds })
  | (some (.value v), ds) => (instead v, { s with disturbances := ds })
  | (none, ds) => run { s with disturbances := ds }

/-- Runs an operation that has an answer unless a disturbance strikes. -/
def answered {α : Type} (s : Store) (op : Operation) (subject : Option String)
    (run : Store → Outcome (Answer α)) : Outcome (Answer α) :=
  s.guarded op subject (fun v => .ok (.instead v)) run

/-- An outcome with its answer. -/
def Outcome.given {α : Type} (o : Outcome α) : Outcome (Answer α) :=
  (o.1.map .given, o.2)

/-- Runs work as a whole. -/
def transaction {α : Type} (s : Store) (work : Store → Outcome α) : Outcome α :=
  s.guarded .transaction none (fun v => .error (.noContext v.kindName)) fun s =>
    if !s.isOpen then (.error (.store .closed), s)
    else if s.isBusy then (.error (.store .nested), s)
    else
      match work { s with isBusy := true } with
      | (.ok a, t) => (.ok a, { t with isBusy := false })
      | (.error f, t) =>
        (.error (statementFailure f), { t with tables := s.tables, isBusy := false })

/-- Runs a statement inside a transaction; `instead` says what a value in place of its answer comes
to. -/
def statement {α : Type} (s : Store) (instead : Json → Except Failure α)
    (run : Store → Outcome α) : Outcome α :=
  s.guarded .statement none instead run

/-- Asks an open store for rows. -/
def question {α : Type} (s : Store) (rows : Tables → Except Failure (List α)) :
    Outcome (Answer (List α)) :=
  s.answered .question none fun s =>
    if s.isOpen then Outcome.given (rows s.tables, s) else (.error (.store .closedQuery), s)

/-- Gives out what a new row is to be listed by, which may be too great to be kept. -/
def giveRank (s : Store) : Outcome Json :=
  s.guarded .numbering none .ok fun s =>
    match s.counter.next? with
    | some r => (.ok r.toJson, { s with counter := r })
    | none => (.error .textSum, s)

/-- The rank that a value is kept as in a column at a place, or nothing for a value that leaves the
column empty. -/
def keptRank (place : Nat) : Json → Except Failure (Option Rank)
  | .int n => if Decimal.isWord n then .ok (some (.whole n)) else .error .outOfRange
  | .bool b => .ok (some (.whole (if b then 1 else 0)))
  | .float x => .ok (Rank.ofFloat? x)
  | .str s => .ok (some (Rank.ofText s))
  | .null => .ok none
  | v => .error (.store (.unsuitable place v.kindName))

/-- Closes the store. -/
def close (s : Store) : Outcome Unit :=
  s.guarded .close none (fun _ => .ok ()) fun s => (.ok (), { s with isOpen := false })

/-- The store that is opened on tables: ranks go on from the greatest one in use. -/
def openOn (tables : Tables) (marks : Marks) : Store where
  tables := tables
  counter := tables.lastRank
  marks := marks

/-- Starts a disturbance. -/
def disturbed (s : Store) (d : Disturbance) : Store :=
  { s with disturbances := disturb d s.disturbances }

/-- Ends the disturbance of an operation. -/
def calmed (s : Store) (op : Operation) : Store :=
  { s with disturbances := calm op s.disturbances }

end Store

end MailRules
