import MailRules.Json.Printer

set_option autoImplicit false

/-!
# Families of failures

Every failure belongs to a family; reports name it, and callers tell failures apart by it. The
families of the engine itself have codes, and their failures show the code before the message.
-/

namespace MailRules

/-- The families of failures. -/
inductive Family
  | engine
  | parse
  | validation
  | notFound
  | store
  | auditWrite
  | config
  | model
  | value
  | type
  | key
  | index
  | member
  | runtime
  | overflow
  | fileMissing
  | fileExists
  | notDirectory
  | isDirectory
  | system
  | unreadable
  | sheet
  | recursion
  | database
  | connection
  | timeout
  | http
  | request
  deriving Repr, DecidableEq, Inhabited

namespace Family

/-- All families. -/
def all : List Family :=
  [engine, parse, validation, notFound, store, auditWrite, config, model, value, type, key,
    index, member, runtime, overflow, fileMissing, fileExists,
    notDirectory, isDirectory, system, unreadable, sheet, recursion, database, connection, timeout,
    http, request]

/-- The name of a family in reports. -/
def name : Family → String
  | engine => "RuleEngineError"
  | parse => "ParseError"
  | validation => "ValidationError"
  | notFound => "NotFoundError"
  | store => "StoreError"
  | auditWrite => "AuditWriteError"
  | config => "ConfigError"
  | model => "LLMAPIError"
  | value => "ValueError"
  | type => "TypeError"
  | key => "KeyError"
  | index => "IndexError"
  | member => "AttributeError"
  | runtime => "RuntimeError"
  | overflow => "OverflowError"
  | fileMissing => "FileNotFoundError"
  | fileExists => "FileExistsError"
  | notDirectory => "NotADirectoryError"
  | isDirectory => "IsADirectoryError"
  | system => "OSError"
  | unreadable => "JSONDecodeError"
  | sheet => "csv.Error"
  | recursion => "RecursionError"
  | database => "OperationalError"
  | connection => "ConnectionError"
  | timeout => "Timeout"
  | http => "HTTPError"
  | request => "RequestException"

/-- The name of a family with the package that it comes from, as log lines show it. -/
def fullName : Family → String
  | engine => "inbox_rules.errors.RuleEngineError"
  | parse => "inbox_rules.errors.ParseError"
  | validation => "inbox_rules.errors.ValidationError"
  | notFound => "inbox_rules.errors.NotFoundError"
  | store => "inbox_rules.errors.StoreError"
  | auditWrite => "inbox_rules.errors.AuditWriteError"
  | config => "inbox_rules.config.ConfigError"
  | model => "inbox_rules.llm_client.LLMAPIError"
  | unreadable => "json.decoder.JSONDecodeError"
  | sheet => "_csv.Error"
  | database => "sqlite3.OperationalError"
  | connection => "requests.exceptions.ConnectionError"
  | timeout => "requests.exceptions.Timeout"
  | http => "requests.exceptions.HTTPError"
  | request => "requests.exceptions.RequestException"
  | f => f.name

/-- The family of a name. -/
def ofName? (s : String) : Option Family :=
  all.find? (·.name = s)

/-- The code that failures of one of the engine's families have unless they say otherwise. -/
def code? : Family → Option String
  | engine => some "E9001"
  | parse => some "E2003"
  | validation => some "E3001"
  | notFound => some "E4001"
  | store => some "E5001"
  | auditWrite => some "E6001"
  | _ => none

/-- Whether a failure of the family comes from sending a request. -/
def isRequest : Family → Bool
  | connection => true
  | timeout => true
  | http => true
  | request => true
  | _ => false

/-- A message as running text shows it: after the code, for the engine's families; quoted, for the
names of missing entries. -/
def wording (f : Family) (code : Option String) (message : String) : String :=
  match f.code? with
  | some c => "[" ++ code.getD c ++ "] " ++ message
  | none => if f = key then Text.quoted message else message

end Family

/-- A failure that comes from outside: a family and a message. -/
structure Raised where
  family : Family
  message : String
  deriving Repr, DecidableEq, Inhabited

/-- The failure as running text shows it. -/
def Raised.text (r : Raised) : String :=
  r.family.wording none r.message

end MailRules
