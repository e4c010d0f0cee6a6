import MailRules.Failure.Family

set_option autoImplicit false

/-!
# Disturbances

A store can be told that one of its operations is to go wrong: to fail, or to give an answer without
doing anything. That shows what the rest of the program makes of a store that fails. There is at
most one disturbance of an operation; which calls it strikes is up to its `Trigger`.
-/

namespace MailRules.Store

/-- The operations of a store, and what several of them have in common. -/
inductive Operation
  /-- Beginning a transaction. -/
  | transaction
  /-- Running a statement inside a transaction. -/
  | statement
  /-- Reading rows. -/
  | question
  /-- Giving a rank to a new row. -/
  | numbering
  /-- Taking a row for a rule. -/
  | readRule
  | close
  | insertRule
  | insertRules
  /-- Writing one rule inside a transaction. -/
  | writeRule
  | findRule
  | deleteRule
  | listRules
  | insertEvent
  | listEvents
  | insertThread
  | insertTask
  | listTasks
  | deleteTask
  | countTasks
  deriving Repr, DecidableEq, Inhabited

/-- When a disturbance strikes: on which calls of its operation, counted from one since it started,
and on which things that the operation is about. -/
abbrev Trigger := (call : Nat) → (subject : Option String) → Bool

/-- Strikes every time. -/
def Trigger.always : Trigger :=
  fun _ _ => true

/-- Strikes on one call. -/
def Trigger.nth (n : Nat) : Trigger :=
  fun call _ => call = n

/-- Strikes when the operation is about the thing of this name. -/
def Trigger.about (id : String) : Trigger :=
  fun _ subject => subject = some id

/-- What comes of a disturbed operation: it fails, or gives a value in place of its answer. -/
inductive Effect
  | failure (r : Raised)
  | value (v : Json)
  deriving Inhabited

/-- A disturbance, and how often its operation was called since it started. -/
structure Disturbance where
  operation : Operation
  trigger : Trigger
  effect : Effect
  calls : Nat := 0
  deriving Inhabited

/-- A disturbance after one more call of its operation. -/
def Disturbance.count (d : Disturbance) : Disturbance :=
  { d with calls := d.calls + 1 }

/-- Whether a disturbance strikes on the call that was counted last, which is about `subject`. -/
def Disturbance.strikes (d : Disturbance) (subject : Option String) : Bool :=
  d.trigger d.calls subject

/-- Counts a call of an operation and tells what strikes it. -/
def strike (op : Operation) (subject : Option String) :
    List Disturbance → Option Effect × List Disturbance
  | [] => (none, [])
  | d :: ds =>
    if d.operation = op then
      (if d.count.strikes subject then some d.count.effect else none, d.count :: ds)
    else
      let (e, ds) := strike op subject ds
      (e, d :: ds)

/-- Puts a disturbance in the place of one of the same operation. -/
def disturb (d : Disturbance) (ds : List Disturbance) : List Disturbance :=
  ds.filter (·.operation ≠ d.operation) ++ [d]

/-- Ends the disturbance of an operation. -/
def calm (op : Operation) (ds : List Disturbance) : List Disturbance :=
  ds.filter (·.operation ≠ op)

@[simp] theorem strike_nil (op : Operation) (subject : Option String) :
    strike op subject [] = (none, []) := rfl

end MailRules.Store
