import MailRules.Json.Printer
import MailRules.Json.Reader
import MailRules.Privacy.Sanitized

set_option autoImplicit false

/-!
# Audit events

An event says who did what to which entity, and carries details. A `Note` is an event that is still
to be written; writing gives it an identifier and a time. The store keeps details as JSON text
(`Note.text`), and `detailsOf` reads them back.
-/

namespace MailRules.Audit

/-- What events are about. -/
inductive Kind
  | ruleCreated
  | ruleUpdated
  | ruleDeleted
  | configUpdated
  | parserFallback
  deriving Repr, DecidableEq, Inhabited

namespace Kind

/-- All kinds. -/
def all : List Kind :=
  [ruleCreated, ruleUpdated, ruleDeleted, configUpdated, parserFallback]

/-- The written name of a kind. -/
def name : Kind → String
  | ruleCreated => "RULE_CREATED"
  | ruleUpdated => "RULE_UPDATED"
  | ruleDeleted => "RULE_DELETED"
  | configUpdated => "CONFIG_UPDATED"
  | parserFallback => "PARSER_FALLBACK"

/-- The kind of a written name. -/
def ofName? (s : String) : Option Kind :=
  all.find? (·.name = s)

@[simp] theorem ofName?_name (k : Kind) : ofName? k.name = some k := by
  cases k <;> rfl

end Kind

/-- Who acts when nobody is named. -/
def systemActor : String := "system"

/-- The actor of an event: the one who is named, or the system. -/
def actorOr (actor : Option String) : String :=
  match actor with
  | some a => if a = "" then systemActor else a
  | none => systemActor

/-- An event that is to be written. -/
structure Note where
  actor : String
  kind : Kind
  entity : String
  entityId : String
  details : Members Json
  /-- Why the details cannot be written, if it is for their keys. -/
  refusal : Option Privacy.DetailFault := none

/-- The details of a note as the store keeps them. -/
def Note.text (n : Note) : String :=
  (Json.object n.details).render Json.stored

/-- Whether no number in the details of a note is too long to be written. -/
def Note.isWritable (n : Note) : Bool :=
  (Json.object n.details).isWritable

/-- An event of the audit log. -/
structure Event where
  id : String
  actor : String
  kind : Kind
  entity : String
  entityId : String
  createdAt : String
  details : Members Json
  deriving Inhabited

/-- The details that a stored text holds. -/
def detailsOf (text : String) : Members Json :=
  match Json.read text with
  | .ok (.object ms) => ms
  | _ => []

/-- An event as a record. -/
def Event.toJson (e : Event) : Json :=
  .object [("id", .str e.id), ("actor", .str e.actor), ("action", .str e.kind.name),
    ("entity", .str e.entity), ("entity_id", .str e.entityId), ("created_at", .str e.createdAt),
    ("details", .object e.details)]

end MailRules.Audit
