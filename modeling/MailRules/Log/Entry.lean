set_option autoImplicit false

/-!
# Log entries

What is logged: how grave it is, which part of the program says it, and the message.
-/

namespace MailRules.Log

/-- How grave an entry is. -/
inductive Level
  | debug
  | info
  | warning
  | error
  | critical
  deriving Repr, DecidableEq, Inhabited

namespace Level

/-- The written name of a level. -/
def name : Level → String
  | debug => "DEBUG"
  | info => "INFO"
  | warning => "WARNING"
  | error => "ERROR"
  | critical => "CRITICAL"

/-- The rank of a level; graver ones are higher. -/
def rank : Level → Nat
  | debug => 10
  | info => 20
  | warning => 30
  | error => 40
  | critical => 50

/-- The level of a written name. -/
def ofName? (s : String) : Option Level :=
  [debug, info, warning, error, critical].find? (·.name = s)

end Level

/-- Something that is logged. -/
structure Entry where
  level : Level
  /-- The part of the program that says it. -/
  component : String
  message : String
  deriving Repr, DecidableEq, Inhabited

end MailRules.Log
