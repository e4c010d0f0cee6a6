import MailRules.Rule.Canonical
import MailRules.Decimal.Numeral
import MailRules.Text.Upper

set_option autoImplicit false

/-!
# Rule records

A record is an object that is to become a draft. Its kind and action are read in any case and with
blanks around them; numbers in texts are read; a blank exception or note counts as absent. All its
fields are checked, so that a refusal (`Rejection`) names everything that is wrong, in the order of
the fields.

A batch is checked as a whole: one bad record refuses it, and the refusal lists each bad record by
its place.
-/

namespace MailRules

namespace Record

/-- The fields of a record, in the order in which they are checked. -/
inductive Field
  | kind
  | pattern
  | action
  | exception
  | notes
  | confidence
  deriving Repr, DecidableEq

/-- The name of a field in a record. -/
def Field.name : Field → String
  | kind => "type"
  | pattern => "pattern"
  | action => "action"
  | exception => "unless_contains"
  | notes => "notes"
  | confidence => "confidence"

/-- What is wrong with a field. -/
inductive Problem
  | missing
  | unknownKind
  | unknownAction
  | notText
  | empty
  | blank
  | truthValue
  | unreadableNumber
  | notNumber
  | aboveOne
  | belowZero
  deriving Repr, DecidableEq

/-- The wording of a problem. -/
def Problem.message : Problem → String
  | missing => "Field required"
  | unknownKind => "Input should be 'EMAIL', 'DOMAIN' or 'TOPIC'"
  | unknownAction => "Input should be 'VIP' or 'SUPPRESS'"
  | notText => "Input should be a valid string"
  | empty => "String should have at least 1 character"
  | blank => "Value error, pattern cannot be blank"
  | truthValue => "Value error, confidence must be a number between 0 and 1"
  | unreadableNumber => "Input should be a valid number, unable to parse string as a number"
  | notNumber => "Input should be a valid number"
  | aboveOne => "Input should be less than or equal to 1"
  | belowZero => "Input should be greater than or equal to 0"

/-- A field and what is wrong with it. -/
structure Fault where
  field : Field
  problem : Problem
  deriving Repr, DecidableEq

/-- The wording of a fault. -/
def Fault.message (f : Fault) : String :=
  f.field.name ++ ": " ++ f.problem.message

/-- A word as names are compared: trimmed and in upper case. -/
def nameOf (s : String) : String :=
  Text.mapText (fun cs => Text.upper (Text.trim cs)) s

/-- The kind that a field's value names. -/
def readKind : Json → Except Problem RuleKind
  | .str s => match RuleKind.ofName? (nameOf s) with
    | some k => .ok k
    | none => .error .unknownKind
  | _ => .error .unknownKind

/-- The action that a field's value names. -/
def readAction : Json → Except Problem RuleAction
  | .str s => match RuleAction.ofName? (nameOf s) with
    | some a => .ok a
    | none => .error .unknownAction
  | _ => .error .unknownAction

/-- A pattern: a text that is not blank. -/
def readPattern : Json → Except Problem String
  | .str s =>
    if s = "" then .error .empty
    else if Text.isBlankText s then .error .blank
    else .ok s
  | _ => .error .notText

/-- A text that may be absent; a blank one is. -/
def readText? : Json → Except Problem (Option String)
  | .null => .ok none
  | .str s => .ok (if Text.isBlankText s then none else some s)
  | _ => .error .notText

/-- A float from 0 to 1. NaN is not at most 1. -/
def checkUnit (x : Float) : Except Problem Float :=
  if !(x ≤ 1.0) then .error .aboveOne
  else if !(0.0 ≤ x) then .error .belowZero
  else .ok x

/-- A confidence that may be absent. -/
def readConfidence : Json → Except Problem (Option Float)
  | .null => .ok none
  | .bool _ => .error .truthValue
  | .int n => match Decimal.floatOfInt? n with
    | some x => (checkUnit x).map some
    | none => .error .notNumber
  | .float x => (checkUnit x).map some
  | .str s => match Decimal.fieldFloat? s.toList with
    | some x => (checkUnit x).map some
    | none => .error .unreadableNumber
  | _ => .error .notNumber

/-- The value of a field that has to be there. -/
def required {α : Type} (ms : Members Json) (f : Field) (read : Json → Except Problem α) :
    Except Fault α :=
  match ms.get? f.name with
  | none => .error ⟨f, .missing⟩
  | some v => (read v).mapError (⟨f, ·⟩)

/-- The value of a field that may be left out. -/
def optional {α : Type} (ms : Members Json) (f : Field) (read : Json → Except Problem (Option α)) :
    Except Fault (Option α) :=
  match ms.get? f.name with
  | none => .ok none
  | some v => (read v).mapError (⟨f, ·⟩)

/-- The fault of a result, if it is one. -/
def faultOf {α : Type} : Except Fault α → List Fault
  | .error f => [f]
  | .ok _ => []

/-- The draft that an object stands for, or all its faults in order. -/
def readMembers (ms : Members Json) : Except (List Fault) Draft :=
  let kind := required ms .kind readKind
  let pattern := required ms .pattern readPattern
  let action := required ms .action readAction
  let exception := optional ms .exception readText?
  let notes := optional ms .notes readText?
  let confidence := optional ms .confidence readConfidence
  match kind, pattern, action, exception, notes, confidence with
  | .ok k, .ok p, .ok a, .ok e, .ok n, .ok c => .ok ⟨k, p, a, e, n, c.map .real⟩
  | _, _, _, _, _, _ =>
    .error (faultOf kind ++ faultOf pattern ++ faultOf action ++ faultOf exception ++
      faultOf notes ++ faultOf confidence)

end Record

/-- Bad records of a batch: the place of each, from zero, and the wording of its faults. -/
structure Issue where
  index : Nat
  errors : List String
  deriving Repr, DecidableEq, Inhabited

/-- Why records are refused. -/
inductive Rejection
  /-- The record is a value of another kind. -/
  | notObject (kind : String)
  /-- Fields of the record are wrong. -/
  | faulty (faults : List Record.Fault)
  /-- Nothing is left of this pattern in canonical form. -/
  | emptyPattern (pattern : String)
  /-- The batch has no record. -/
  | noRecords
  /-- Some of so many records of the batch are bad. -/
  | batch (issues : List Issue) (total : Nat)
  deriving Repr, DecidableEq

namespace Rejection

/-- The wording of a refusal. -/
def message : Rejection → String
  | notObject kind => s!"Rule record must be an object, got {kind}"
  | faulty faults => "Invalid rule record: " ++
      String.intercalate "; " (faults.map Record.Fault.message)
  | emptyPattern pattern => s!"Pattern '{pattern}' is empty after normalization"
  | noRecords => "Provide at least one rule."
  | batch issues total =>
    s!"Invalid rules payload: {issues.length} of {total} record(s) rejected"

/-- The code of a refusal. -/
def code : Rejection → String
  | noRecords => "E3002"
  | _ => "E3001"

/-- The bad records that a refusal lists. -/
def issues : Rejection → List Issue
  | faulty faults => [⟨0, faults.map Record.Fault.message⟩]
  | batch issues _ => issues
  | _ => []

/-- What a batch says about a record that is refused like this. -/
def errors (r : Rejection) : List String :=
  match r.issues with
  | i :: _ => i.errors
  | [] => [r.message]

end Rejection

namespace Draft

/-- The draft that a record stands for. -/
def ofRecord (v : Json) : Except Rejection Draft :=
  match v with
  | .object ms => (Record.readMembers ms).mapError .faulty
  | v => .error (.notObject v.kindName)

/-- A draft in canonical form. -/
def canonicalize (d : Draft) : Except Rejection Draft :=
  match d.canonical? with
  | some c => .ok c
  | none => .error (.emptyPattern d.pattern)

end Draft

/-- Applies a check to every item of a batch: all results, or the items that fail with their
places, counted from `index`. -/
def checkAll {α β : Type} (check : α → Except Rejection β) (index : Nat) :
    List α → List β × List Issue
  | [] => ([], [])
  | a :: as =>
    let (done, bad) := checkAll check (index + 1) as
    match check a with
    | .ok b => (b :: done, bad)
    | .error r => (done, ⟨index, r.errors⟩ :: bad)

/-- The drafts that a batch of records stands for. -/
def Draft.ofRecords (items : List Json) : Except Rejection (List Draft) :=
  if items.isEmpty then .error .noRecords
  else
    match checkAll Draft.ofRecord 0 items with
    | (drafts, []) => .ok drafts
    | (_, issues) => .error (.batch issues items.length)

/-- The items that a batch consists of: those of an array, the names of an object, the characters
of a text. -/
def Json.items? : Json → Option (List Json)
  | .array vs => some vs
  | .object ms => some (ms.map (fun m => .str m.1))
  | .str s => some (s.toList.map (fun c => .str (String.ofList [c])))
  | _ => none

end MailRules
