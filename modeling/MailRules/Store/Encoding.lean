import MailRules.Store.Tables

set_option autoImplicit false

/-!
# Tables as JSON

The form in which the tables of a store lie in a file: one object, its members the tables, each row
an object with its columns. `Tables.ofJson?` reads what `Tables.toJson` writes; a value of another
form holds no tables.
-/

namespace MailRules.Store

/-! ## Columns -/

/-- The text in a column. -/
def textAt? (row : Json) (column : String) : Option String :=
  (row.field? column).bind Json.text?

/-- The text in a column that may be empty; another kind of value is refused. -/
def optionalAt? (row : Json) (column : String) : Option (Option String) :=
  match row.field? column with
  | some (.str s) => some (some s)
  | some .null => some none
  | _ => none

/-- The rank in a column. -/
def rankAt? (row : Json) (column : String) : Option Rank :=
  (row.field? column).bind Rank.ofJson?

/-- The count in a column. -/
def countAt? (row : Json) (column : String) : Option Nat :=
  match row.field? column with
  | some (.int n) => if 0 ≤ n then some n.toNat else none
  | _ => none

/-- The confidence in a row. -/
def confidenceAt? (row : Json) : Option (Option Number) :=
  match row.field? "confidence" with
  | some (.float x) => some (some (.real x))
  | some .null => some none
  | _ => none

/-- The rows of a table. -/
def rowsAt? {α : Type} (tables : Json) (table : String) (read : Json → Option α) :
    Option (List α) :=
  match tables.field? table with
  | some (.array rows) => rows.mapM read
  | _ => none

/-! ## Rows -/

/-- A rule with its rank. -/
def ruleRow (r : Row Rule) : Json :=
  .object [("rank", r.rank.toJson), ("rule", r.value.toJson)]

/-- The rule in a row. -/
def ruleOf? (row : Json) : Option (Row Rule) := do
  let rank ← rankAt? row "rank"
  let rule ← row.field? "rule"
  let action ← (← textAt? rule "action") |> RuleAction.ofName?
  return ⟨rank, {
    id := ← textAt? rule "id"
    draft := {
      kind := .ofName (← textAt? rule "type")
      pattern := ← textAt? rule "pattern"
      action := action
      exception := ← optionalAt? rule "unless_contains"
      notes := ← optionalAt? rule "notes"
      confidence := ← confidenceAt? rule }
    createdAt := ← textAt? rule "created_at" }⟩

/-- An event with its rank. -/
def eventRow (r : Row KeptEvent) : Json :=
  let e := r.value
  .object [("rank", r.rank.toJson), ("id", .str e.id), ("actor", .str e.actor),
    ("action", .str e.kind.name), ("entity", .str e.entity), ("entity_id", .str e.entityId),
    ("created_at", .str e.createdAt), ("details", .str e.details)]

/-- The event in a row. -/
def eventOf? (row : Json) : Option (Row KeptEvent) := do
  let kind ← (← textAt? row "action") |> Audit.Kind.ofName?
  return ⟨← rankAt? row "rank", ⟨← textAt? row "id", ← textAt? row "actor", kind,
    ← textAt? row "entity", ← textAt? row "entity_id", ← textAt? row "created_at",
    ← textAt? row "details"⟩⟩

/-- A thread as a row. -/
def threadRow (t : Thread) : Json :=
  .object [("id", .str t.id), ("subject", .ofText? t.subject),
    ("participants", .ofText? t.participants)]

/-- The thread in a row. -/
def threadOf? (row : Json) : Option Thread := do
  return ⟨← textAt? row "id", ← optionalAt? row "subject", ← optionalAt? row "participants"⟩

/-- A task as a row. -/
def taskRow (t : Task) : Json :=
  .object [("id", .str t.id), ("title", .str t.title), ("thread_id", .ofText? t.thread)]

/-- The task in a row. -/
def taskOf? (row : Json) : Option Task := do
  return ⟨← textAt? row "id", ← textAt? row "title", ← optionalAt? row "thread_id"⟩

/-- An event is read back from its row. -/
theorem eventOf?_eventRow (r : Row KeptEvent) : eventOf? (eventRow r) = some r := by
  obtain ⟨rank, id, actor, kind, entity, entityId, createdAt, details⟩ := r
  cases kind <;>
    simp [eventOf?, eventRow, textAt?, rankAt?, Json.field?, Members.get?_cons, Json.text?,
      Audit.Kind.ofName?, Audit.Kind.all, Audit.Kind.name]

/-- A thread is read back from its row. -/
theorem threadOf?_threadRow (t : Thread) : threadOf? (threadRow t) = some t := by
  obtain ⟨id, subject, participants⟩ := t
  cases subject <;> cases participants <;> rfl

/-- A task is read back from its row. -/
theorem taskOf?_taskRow (t : Task) : taskOf? (taskRow t) = some t := by
  obtain ⟨id, title, thread⟩ := t
  cases thread <;> rfl

/-! ## Tables -/

namespace Tables

/-- Tables as JSON. -/
def toJson (t : Tables) : Json :=
  .object [("rules", .array (t.rules.map ruleRow)), ("events", .array (t.events.map eventRow)),
    ("threads", .array (t.threads.map threadRow)), ("tasks", .array (t.tasks.map taskRow)),
    ("issued", .object [("rules", .int t.issued.rules), ("events", .int t.issued.events),
      ("threads", .int t.issued.threads), ("tasks", .int t.issued.tasks)])]

/-- The numbers of identifiers that have been given out. -/
def issuedOf? (v : Json) : Option Issued := do
  return ⟨← countAt? v "rules", ← countAt? v "events", ← countAt? v "threads",
    ← countAt? v "tasks"⟩

/-- The tables that a value holds. -/
def ofJson? (v : Json) : Option Tables := do
  return {
    rules := ← rowsAt? v "rules" ruleOf?
    events := ← rowsAt? v "events" eventOf?
    threads := ← rowsAt? v "threads" threadOf?
    tasks := ← rowsAt? v "tasks" taskOf?
    issued := ← (v.field? "issued").bind issuedOf? }

end Tables

end MailRules.Store
