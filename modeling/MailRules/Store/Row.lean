import MailRules.Store.Basic
import MailRules.Store.Stamp

set_option autoImplicit false

/-!
# Rows

What a question gives is taken apart row by row. A question to a disturbed store may be given any
value in place of the rows. Rows are asked for their columns one after the other; a value that has
them all is read as a row is, and any other fails at the first one that it does not have.
-/

namespace MailRules.Store

/-! ## Rows of a question -/

/-- Rows one by one. -/
def eachRow {α : Type} : Answer (List α) → Except Failure (List (Answer α))
  | .given rows => .ok (rows.map .given)
  | .instead v =>
    match parts? v with
    | some vs => .ok (vs.map .instead)
    | none => .error (.notIterable v.kindName)

/-- The first of rows, if there are some. -/
def firstRow? {α : Type} : Answer (List α) → Except Failure (Option (Answer α))
  | .given rows => .ok (rows.head?.map .given)
  | .instead v =>
    if v.isTruthy then (v.first.mapError Failure.access).map fun w => some (.instead w)
    else .ok none

/-! ## Values in place of rows -/

/-- The value in a column. -/
def cell (row : Json) (column : String) : Except Failure Json :=
  (row.under column).mapError Failure.access

/-- The text in a column. -/
def textCell (row : Json) (column : String) : Except Failure String :=
  (cell row column).map Json.plainText

/-- The text in a column that may be empty. -/
def optionalCell (row : Json) (column : String) : Except Failure (Option String) :=
  (cell row column).map fun
    | .null => none
    | v => some v.plainText

/-- The time in a column. -/
def timeCell (row : Json) (column : String) : Except Failure String := do
  match ← cell row column with
  | .str s =>
    match Stamp.ofText? s.toList with
    | none => throw (.notTime (Text.quoted s))
    | some t =>
      match t.fault? with
      | some f => throw (.badTime f)
      | none => return s
  | _ => throw .timeless

/-- The members that the JSON text in a column holds. -/
def membersCell (row : Json) (column : String) : Except Failure (Members Json) := do
  match ← cell row column with
  | .str s =>
    match Json.read s with
    | .ok (.object ms) => return ms
    | .ok _ => return []
    | .error f => throw (.notJson s f)
  | v => throw (.noJson v.kindName)

/-- The rule that a value in place of a row spells. -/
def ruleIn (row : Json) : Except Failure Rule := do
  let id ← textCell row "id"
  let kind ← RuleKind.named (← cell row "type")
  let pattern ← textCell row "pattern"
  let action ← RuleAction.named (← cell row "action")
  let exception ← optionalCell row "unless_contains"
  let notes ← optionalCell row "notes"
  let confidence := Number.ofJson? (← cell row "confidence")
  let createdAt ← timeCell row "created_at"
  return ⟨id, ⟨kind, pattern, action, exception, notes, confidence⟩, createdAt⟩

/-- The event that a value in place of a row spells. -/
def eventIn (row : Json) : Except Failure Audit.Event := do
  let id ← textCell row "id"
  let actor ← textCell row "actor"
  let kind ← Audit.Kind.named (← cell row "action")
  let entity ← textCell row "entity"
  let entityId ← textCell row "entity_id"
  let details ← membersCell row "details"
  let createdAt ← timeCell row "created_at"
  return ⟨id, actor, kind, entity, entityId, createdAt, details⟩

/-- The task that a value in place of a row spells, with its thread. -/
def taskIn (row : Json) : Except Failure TaskView := do
  let id ← textCell row "id"
  let title ← textCell row "title"
  let thread ← optionalCell row "thread_id"
  let participants ← optionalCell row "participants"
  return ⟨⟨id, title, thread⟩, thread.map fun t => ⟨t, none, participants⟩⟩

end MailRules.Store
