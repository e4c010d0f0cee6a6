import MailRules.Audit.Event
import MailRules.Instruction.Parse
import MailRules.Json.Access
import MailRules.Privacy.Sanitized
import MailRules.Sheet.Cells
import MailRules.Store.Fault

set_option autoImplicit false

/-!
# Failures

Everything an operation of the engine can fail with. A failure is its cause; its family, its
message, its code and the records it lists are functions of that.
-/

namespace MailRules

/-- Why an operation fails. -/
inductive Failure
  | parse (f : Instruction.ParseFault)
  | rejected (r : Rejection)
  | unknownRule (id : String)
  | store (f : Store.StoreFault)
  | config (f : ConfigFault)
  | service (f : Extraction.ClientFault)
  | sheet (f : Sheet.Fault)
  | details (f : Privacy.DetailFault)
  /-- A value, as messages show it, that is no name of the kind. -/
  | unknownName (shown kind : String)
  /-- A value of a kind that has no parts. -/
  | notIterable (kind : String)
  /-- A value of a kind that has no such member. -/
  | noMember (kind member : String)
  /-- A value of a kind that has no number of parts. -/
  | noLength (kind : String)
  /-- A value of a kind that cannot be entered and left. -/
  | noContext (kind : String)
  /-- A value that does not have what is looked for in it. -/
  | access (f : Json.AccessFault)
  /-- A number that does not fit into 64 bits. -/
  | outOfRange
  /-- A text where a number is to be added to. -/
  | textSum
  /-- A value of a kind that is not compared with whole numbers. -/
  | unordered (kind : String)
  /-- A text, as messages show it, that is no time. -/
  | notTime (shown : String)
  /-- A value where the text of a time is wanted. -/
  | timeless
  /-- A time that no calendar or clock shows. -/
  | badTime (f : TimeFault)
  /-- A text that is to be JSON. -/
  | notJson (text : String) (f : Json.Fault)
  /-- A value of a kind that is no JSON text. -/
  | noJson (kind : String)
  /-- A whole number with too many digits to be written. -/
  | tooManyDigits
  /-- A text whose arrays and objects are nested too deeply. -/
  | tooDeep
  /-- A file or directory that cannot be had. -/
  | file (f : FileFault)
  /-- A failure from outside. -/
  | raised (r : Raised)
  deriving Repr, DecidableEq

namespace Failure

/-- The family of a failure. -/
def family : Failure → Family
  | parse (.refused (.unreadable (.tooDeep))) => .recursion
  | parse (.refused (.unreadable _)) => .value
  | parse _ => .parse
  | rejected _ => .validation
  | unknownRule _ => .notFound
  | store _ => .store
  | config f => f.family
  | service (.config f) => f.family
  | service (.exhausted _ _) => .model
  | service (.raised r) => r.family
  | sheet _ => .sheet
  | details (.notPair _ _) => .value
  | details .tooDeep => .recursion
  | details _ => .type
  | unknownName _ _ => .value
  | notIterable _ => .type
  | noMember _ _ => .member
  | noLength _ => .type
  | noContext _ => .type
  | access (.noName _) => .key
  | access .unordered => .key
  | access .emptyList => .index
  | access .emptyText => .index
  | access _ => .type
  | outOfRange => .overflow
  | textSum => .type
  | unordered _ => .type
  | notTime _ => .value
  | timeless => .type
  | badTime _ => .value
  | notJson _ .tooDeep => .recursion
  | notJson _ (.tooManyDigits _) => .value
  | notJson _ (.malformed _ _) => .unreadable
  | noJson _ => .type
  | tooManyDigits => .value
  | tooDeep => .recursion
  | file f => f.family
  | raised r => r.family

/-- The message of a failure, without its code. -/
def message : Failure → String
  | parse f => f.message
  | rejected r => r.message
  | unknownRule id => s!"Rule not found: {id}"
  | store f => f.message
  | config f => f.message
  | service (.raised r) => r.message
  | service f => f.message
  | sheet f => f.message
  | details f => f.message
  | unknownName shown kind => s!"{shown} is not a valid {kind}"
  | notIterable kind => s!"'{kind}' object is not iterable"
  | noMember kind member => s!"'{kind}' object has no attribute '{member}'"
  | noLength kind => s!"object of type '{kind}' has no len()"
  | noContext kind => s!"'{kind}' object does not support the context manager protocol"
  | access f => f.message
  | outOfRange => "Python int too large to convert to SQLite INTEGER"
  | textSum => "can only concatenate str (not \"int\") to str"
  | unordered kind => s!"'>' not supported between instances of '{kind}' and 'int'"
  | notTime shown => s!"Invalid isoformat string: {shown}"
  | timeless => "fromisoformat: argument must be str"
  | badTime f => f.message
  | notJson text f => f.message text
  | noJson kind => s!"the JSON object must be str, bytes or bytearray, not {kind}"
  | tooManyDigits => Decimal.tooLongToShow
  | tooDeep => ""
  | file f => f.message
  | raised r => r.message

/-- The code of a failure, if it has one. -/
def code? : Failure → Option String
  | parse (.refused (.unreadable _)) => none
  | parse f => some f.code
  | rejected r => some r.code
  | unknownRule _ => Family.notFound.code?
  | store _ => Family.store.code?
  | config f => f.code?
  | service (.config f) => f.code?
  | service (.raised r) => r.family.code?
  | raised r => if r.family = .config then some "E1002" else r.family.code?
  | _ => none

/-- The failure as running text shows it. -/
def text : Failure → String
  | access f => f.message
  | f => f.family.wording f.code? f.message

/-- The records that a failure lists. -/
def issues : Failure → List Issue
  | rejected r => r.issues
  | _ => []

/-- What a failure is about. -/
def context : Failure → Members Json
  | unknownRule id => [("rule_id", .str id)]
  | _ => []

end Failure

/-- A kind of rule by the value that names it. -/
def RuleKind.named (v : Json) : Except Failure RuleKind :=
  match v.text?.bind RuleKind.ofName? with
  | some k => .ok k
  | none => .error (.unknownName v.display "RuleType")

/-- An action by the value that names it. -/
def RuleAction.named (v : Json) : Except Failure RuleAction :=
  match v.text?.bind RuleAction.ofName? with
  | some a => .ok a
  | none => .error (.unknownName v.display "RuleAction")

/-- A kind of event by the value that names it. -/
def Audit.Kind.named (v : Json) : Except Failure Audit.Kind :=
  match v.text?.bind Audit.Kind.ofName? with
  | some k => .ok k
  | none => .error (.unknownName v.display "AuditAction")

/-- An action by the value that names it, or the default for a value that counts as nothing. -/
def RuleAction.namedOr (default : RuleAction) (v : Json) : Except Failure RuleAction :=
  if v.isTruthy then RuleAction.named v else .ok default

/-- The items of a batch that comes from outside. -/
def Json.batch (v : Json) : Except Failure (List Json) :=
  match v.items? with
  | some items => .ok items
  | none => .error (.notIterable v.kindName)

/-- The drafts that a batch of records stands for. -/
def Draft.ofBatch (v : Json) : Except Failure (List Draft) :=
  v.batch.bind fun items => (Draft.ofRecords items).mapError .rejected

/-- The drafts of a batch that may be left out: a value that counts as nothing has no records. -/
def Draft.ofOptionalBatch (v : Json) : Except Failure (List Draft) :=
  if v.isTruthy then Draft.ofBatch v else .error (.rejected .noRecords)

end MailRules
