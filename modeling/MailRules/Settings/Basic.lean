import MailRules.Document
import MailRules.Rule.Record
import MailRules.Text.Encoding

set_option autoImplicit false

/-!
# Settings

The settings of the engine, in five sections. Every field has a default, so that an empty document
gives a working set-up. Each field is read by itself (`Field` readers below): a text that spells a
truth value or a number will do where one is wanted, bytes will do as the text that they spell in
UTF-8, and whole floats will do as whole numbers. Names that no field has are passed over.

All fields are checked; a refused document gets an `Issue` for each bad field, in the order of the
sections and their fields.
-/

namespace MailRules

/-- Reading instructions with the help of a language model. -/
structure ModelSettings where
  enabled : Bool := true
  /-- The environment variable that holds the key of the service. -/
  keyVariable : String := "OPENROUTER_API_KEY"
  url : String := "https://openrouter.ai/api/v1"
  model : String := "openai/gpt-4.1-mini"
  temperature : Float := 0.0
  attempts : Nat := 3
  /-- Seconds before the first repetition. -/
  delay : Nat := 1
  /-- Seconds until a request is given up. -/
  timeout : Nat := 30
  deriving Inhabited

/-- The settings of the engine. -/
structure Settings where
  databasePath : String := "data/inbox_rules.db"
  defaultAction : RuleAction := .vip
  model : ModelSettings := {}
  /-- Whether audit events are written in the background. -/
  asyncAudit : Bool := true
  /-- How many events a listing shows unless told otherwise. -/
  listLimit : Nat := 100
  /-- How many tasks a sweep works on at a time. -/
  workers : Nat := 8
  deriving Inhabited

namespace Settings

/-- What is wrong with a field or a section. -/
inductive Problem
  /-- A value that is no mapping where the section of this name is wanted. -/
  | notSection (model : String)
  | notText
  /-- Bytes that spell no text. -/
  | garbledText
  | notTruth
  | unreadableTruth
  | notInt
  | unreadableInt
  | fractional
  | notFinite
  | tooLong
  | notNumber
  | unreadableNumber
  | unknownAction
  /-- A value that the field does not allow, with the reason. -/
  | refused (reason : String)
  deriving Repr, DecidableEq

/-- The wording of a problem. -/
def Problem.message : Problem → String
  | notSection model => s!"Input should be a valid dictionary or instance of {model}"
  | notText => "Input should be a valid string"
  | garbledText =>
    "Input should be a valid string, unable to parse raw data as a unicode string"
  | notTruth => "Input should be a valid boolean"
  | unreadableTruth => "Input should be a valid boolean, unable to interpret input"
  | notInt => "Input should be a valid integer"
  | unreadableInt => "Input should be a valid integer, unable to parse string as an integer"
  | fractional => "Input should be a valid integer, got a number with a fractional part"
  | notFinite => "Input should be a finite number"
  | tooLong => "Unable to parse input string as an integer, exceeded maximum size"
  | notNumber => "Input should be a valid number"
  | unreadableNumber => "Input should be a valid number, unable to parse string as a number"
  | unknownAction => "Input should be 'VIP' or 'SUPPRESS'"
  | refused reason => "Value error, " ++ reason

/-- A bad field: the names that lead to it, and what is wrong. -/
structure Issue where
  path : List String
  problem : Problem
  deriving Repr, DecidableEq

/-! ## Values of fields -/

/-- A text, or what is said instead of bytes that spell none. -/
def textOf (garbled : Problem) (data : List UInt8) : Except Problem String :=
  match Text.ofUtf8? data with
  | some s => .ok s
  | none => .error garbled

/-- A text. -/
def readText : Document → Except Problem String
  | .text s => .ok s
  | .bytes data => textOf .garbledText data
  | _ => .error .notText

/-- A text that is not blank. -/
def readFilled (reason : String) (d : Document) : Except Problem String :=
  match readText d with
  | .ok s => if Text.isBlankText s then .error (.refused reason) else .ok s
  | .error e => .error e

/-- The truth value that a word spells. -/
def truthOf? (s : String) : Option Bool :=
  let w := Text.mapText (List.map Char.toLower) s
  if ["1", "on", "t", "true", "y", "yes"].contains w then some true
  else if ["0", "off", "f", "false", "n", "no"].contains w then some false
  else none

/-- The truth value that a number is. -/
def truthOfInt (n : Int) : Except Problem Bool :=
  if n = 0 then .ok false else if n = 1 then .ok true else .error .unreadableTruth

/-- The truth value that a text spells. -/
def truthOfText (s : String) : Except Problem Bool :=
  match truthOf? s with
  | some b => .ok b
  | none => .error .unreadableTruth

/-- Whether a whole number that came as a float fits into 64 bits; the least number that does is not
taken for one. -/
def isInnerWord (n : Int) : Bool :=
  Decimal.isWord n && n ≠ -Decimal.wordLimit

/-- A truth value. -/
def readTruth : Document → Except Problem Bool
  | .bool b => .ok b
  | .int n => if Decimal.isWord n then truthOfInt n else .error .notTruth
  | .float x =>
    match Decimal.whole? x with
    | some n => if isInnerWord n then truthOfInt n else .error .notTruth
    | none => .error .notTruth
  | .text s => truthOfText s
  | .bytes data => (textOf .unreadableTruth data).bind truthOfText
  | _ => .error .notTruth

/-- The whole number that a text spells. -/
def intOfText (s : String) : Except Problem Int :=
  match Decimal.fieldInt s.toList with
  | .ok n => .ok n
  | .error .unreadable => .error .unreadableInt
  | .error .tooLong => .error .tooLong

/-- A whole number. -/
def readInt : Document → Except Problem Int
  | .int n => .ok n
  | .bool b => .ok (if b then 1 else 0)
  | .float x =>
    if !Decimal.isFinite x then .error .notFinite
    else
      match Decimal.whole? x with
      | some n => if isInnerWord n then .ok n else .error .tooLong
      | none => .error .fractional
  | .text s => intOfText s
  | .bytes data => (textOf .unreadableInt data).bind intOfText
  | _ => .error .notInt

/-- The float that a text spells. -/
def floatOfText (s : String) : Except Problem Float :=
  match Decimal.fieldFloat? s.toList with
  | some x => .ok x
  | none => .error .unreadableNumber

/-- A float. -/
def readFloat : Document → Except Problem Float
  | .float x => .ok x
  | .int n =>
    match Decimal.floatOfInt? n with
    | some x => .ok x
    | none => .error .notNumber
  | .bool b => .ok (if b then 1.0 else 0.0)
  | .text s => floatOfText s
  | .bytes data => (textOf .unreadableNumber data).bind floatOfText
  | _ => .error .notNumber

/-- The refusal of a whole number, which is shown after the reason unless it is too long. -/
def refusedInt (reason : String) (n : Int) : Problem :=
  .refused (if Decimal.isShowable n then reason ++ ", got " ++ Json.showInt n
    else Decimal.tooLongToShow)

/-- A whole number of at least `least`; `reason` is said of any other. -/
def readAtLeast (least : Nat) (reason : String) (d : Document) : Except Problem Nat :=
  match readInt d with
  | .error e => .error e
  | .ok n => if n < least then .error (refusedInt reason n) else .ok n.toNat

/-- How many tasks a sweep works on at a time: from 1 to 64. -/
def readWorkers (d : Document) : Except Problem Nat :=
  match readInt d with
  | .error e => .error e
  | .ok n =>
    if n < 1 || 64 < n then .error (refusedInt "max_workers must be between 1 and 64" n)
    else .ok n.toNat

/-- A temperature from 0 to 2. -/
def readTemperature (d : Document) : Except Problem Float :=
  match readFloat d with
  | .error e => .error e
  | .ok x =>
    if 0.0 ≤ x && x ≤ 2.0 then .ok x
    else .error (.refused ("Temperature must be between 0.0 and 2.0, got " ++ Decimal.showFloat x))

/-- The action of a name. -/
def actionOf (name : String) : Except Problem RuleAction :=
  match RuleAction.ofName? name with
  | some a => .ok a
  | none => .error .unknownAction

/-- An action. The name may be in any case in a text, but not in bytes. -/
def readAction : Document → Except Problem RuleAction
  | .text s => actionOf (Record.nameOf s)
  | .bytes data => (textOf .unknownAction data).bind actionOf
  | _ => .error .unknownAction

/-! ## Sections -/

/-- The kind of value that a field is declared to have. -/
inductive FieldKind
  | truth
  | whole
  | real
  | word
  deriving Repr, DecidableEq

/-- The sections with their fields, in order. -/
def sections : List (String × List (String × FieldKind)) :=
  [("database", [("path", .word)]),
    ("parser", [("default_action", .word)]),
    ("ai", [("enabled", .truth), ("api_key_env", .word), ("api_url", .word), ("model", .word),
      ("temperature", .real), ("retry_attempts", .whole), ("retry_delay_seconds", .whole),
      ("timeout_seconds", .whole)]),
    ("audit", [("async_writes", .truth), ("list_limit", .whole)]),
    ("sweep", [("max_workers", .whole)])]

/-- The value of a field of a section, or its default. -/
def field {α : Type} (part : String) (entries : Members Document) (name : String)
    (read : Document → Except Problem α) (default : α) : Except (List Issue) α :=
  match entries.get? name with
  | none => .ok default
  | some d => (read d).mapError fun p => [⟨[part, name], p⟩]

/-- Both results, or the issues of both. -/
def both {α β : Type} (a : Except (List Issue) α) (b : Except (List Issue) β) :
    Except (List Issue) (α × β) :=
  match a, b with
  | .ok x, .ok y => .ok (x, y)
  | .ok _, .error e => .error e
  | .error e, .ok _ => .error e
  | .error e, .error f => .error (e ++ f)

/-- The entries of a section: none if it is left out. -/
def sectionEntries (root : Members Document) (name model : String) :
    Except (List Issue) (Members Document) :=
  match root.get? name with
  | none => .ok []
  | some (.mapping es) => .ok es
  | some _ => .error [⟨[name], .notSection model⟩]

/-- The section on the database: its path. -/
def readDatabase (root : Members Document) : Except (List Issue) String := do
  let es ← sectionEntries root "database" "DatabaseConfig"
  field "database" es "path" (readFilled "database path cannot be empty")
    ({} : Settings).databasePath

/-- The section on the parser: the default action. -/
def readParser (root : Members Document) : Except (List Issue) RuleAction := do
  let es ← sectionEntries root "parser" "ParserConfig"
  field "parser" es "default_action" readAction ({} : Settings).defaultAction

/-- The section on the language model. -/
def readModel (root : Members Document) : Except (List Issue) ModelSettings := do
  let es ← sectionEntries root "ai" "AIConfig"
  let d : ModelSettings := {}
  let (enabled, keyVariable, url, model, temperature, attempts, delay, timeout) ←
    both (field "ai" es "enabled" readTruth d.enabled) <|
    both (field "ai" es "api_key_env" (readFilled "api_key_env must be specified")
      d.keyVariable) <|
    both (field "ai" es "api_url" readText d.url) <|
    both (field "ai" es "model" readText d.model) <|
    both (field "ai" es "temperature" readTemperature d.temperature) <|
    both (field "ai" es "retry_attempts"
      (readAtLeast 1 "Retry attempts must be at least 1") d.attempts) <|
    both (field "ai" es "retry_delay_seconds"
      (readAtLeast 0 "Retry delay cannot be negative") d.delay)
      (field "ai" es "timeout_seconds"
        (readAtLeast 1 "Timeout must be at least 1 second") d.timeout)
  return ⟨enabled, keyVariable, url, model, temperature, attempts, delay, timeout⟩

/-- The section on the audit log: writing in the background, and the length of listings. -/
def readAudit (root : Members Document) : Except (List Issue) (Bool × Nat) := do
  let es ← sectionEntries root "audit" "AuditConfig"
  both (field "audit" es "async_writes" readTruth ({} : Settings).asyncAudit)
    (field "audit" es "list_limit" (readAtLeast 1 "list_limit must be at least 1")
      ({} : Settings).listLimit)

/-- The section on the sweep: its workers. -/
def readSweep (root : Members Document) : Except (List Issue) Nat := do
  let es ← sectionEntries root "sweep" "SweepConfig"
  field "sweep" es "max_workers" readWorkers ({} : Settings).workers

/-- The settings that a document spells, or everything that is wrong with it. -/
def ofDocument (d : Document) : Except (List Issue) Settings :=
  match d with
  | .mapping root => do
    let (path, action, model, (async, limit), workers) ←
      both (readDatabase root) (both (readParser root) (both (readModel root)
        (both (readAudit root) (readSweep root))))
    return ⟨path, action, model, async, limit, workers⟩
  | _ => .error [⟨[], .notSection "EngineSettings"⟩]

/-- Settings as JSON, all sections and fields in order. -/
def toJson (s : Settings) : Json :=
  .object [
    ("database", .object [("path", .str s.databasePath)]),
    ("parser", .object [("default_action", .str s.defaultAction.name)]),
    ("ai", .object [("enabled", .bool s.model.enabled), ("api_key_env", .str s.model.keyVariable),
      ("api_url", .str s.model.url), ("model", .str s.model.model),
      ("temperature", .float s.model.temperature), ("retry_attempts", .int s.model.attempts),
      ("retry_delay_seconds", .int s.model.delay), ("timeout_seconds", .int s.model.timeout)]),
    ("audit", .object [("async_writes", .bool s.asyncAudit), ("list_limit", .int s.listLimit)]),
    ("sweep", .object [("max_workers", .int s.workers)])]

end Settings

end MailRules
