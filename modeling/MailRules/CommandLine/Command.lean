import MailRules.CommandLine.Arguments
import MailRules.CommandLine.Files
import MailRules.Decimal.Numeral
import MailRules.Text.Lower

set_option autoImplicit false

/-!
# Commands

What the arguments ask for. Options before the name of the command are about all commands; the rest
belongs to the command. A request for help or for the version is answered before anything else is
looked at, unless the arguments cannot be taken apart. The values of options are looked at in the
order in which they are given, and the words after them.
-/

namespace MailRules.CommandLine

/-- A command and what it is given. -/
inductive Command
  | parse (text : String) (action : Option RuleAction)
  | add (kind : RuleKind) (pattern : String) (action : RuleAction) (exception notes : Option String)
  | list
  | delete (id : String)
  | importRules (path : String)
  | importSheet (path : String) (action : Option RuleAction) (isDryRun : Bool)
  | sweep
  | audit (limit : Option Int)
  deriving Repr, DecidableEq

/-- What is about all commands. -/
structure Common where
  config : Option String := none
  env : String := ".env"
  /-- The level from which on lines are logged. -/
  logLevel : String := "WARNING"
  actor : Option String := none
  deriving Repr, DecidableEq, Inhabited

/-- What the arguments ask for: help, the version, or the command of a name with further
arguments. -/
inductive Request
  | help
  | version
  | command (common : Common) (grammar : Grammar) (name : String) (rest : List String)
  deriving Repr, DecidableEq

/-- Why arguments are refused. -/
inductive Refusal
  /-- They cannot be understood. -/
  | misuse (f : UsageFault)
  /-- A path among them cannot even be looked up. -/
  | path (f : FileFault)
  deriving Repr, DecidableEq

/-- A word as choices are compared: in lower case, the long s as an s and the sharp s as two. -/
def foldWord (s : String) : List Char :=
  (Text.lower s.toList).flatMap fun c =>
    if c = 'ſ' then ['s'] else if c = 'ß' then ['s', 's'] else [c]

/-- The choice that a word names. -/
def choose? (choices : List String) (word : String) : Option String :=
  choices.find? fun c => foldWord c = foldWord word

/-- The grammar of the options about all commands. -/
def commonGrammar : Grammar :=
  ⟨["--config", "--env", "--log-level", "--actor"], ["--version", "--help"], false⟩

/-- The grammar of the options of a command. -/
def grammar? (name : String) : Option Grammar :=
  let options (valued flags : List String) : Grammar := ⟨valued, flags ++ ["--help"], true⟩
  [("parse", options ["--action"] []),
    ("add", options ["--type", "--pattern", "--action", "--unless", "--notes"] []),
    ("list", options [] []), ("delete", options [] []), ("import", options [] []),
    ("import-csv", options ["--action"] ["--dry-run"]), ("sweep", options [] []),
    ("audit", options ["--limit"] [])].lookup name

/-- The value of an option that has to be there. -/
def required (a : Arguments) (name : String) : Except UsageFault String :=
  match a.value? name with
  | some v => .ok v
  | none => .error (.missing name)

/-- The choice that is the value of an option. -/
def choice? (a : Arguments) (name : String) (choices : List String) :
    Except UsageFault (Option String) :=
  match a.value? name with
  | none => .ok none
  | some v =>
    match choose? choices v with
    | some c => .ok (some c)
    | none => .error (.badValue name v)

/-- The action that is the value of an option. -/
def action? (a : Arguments) : Except UsageFault (Option RuleAction) :=
  (choice? a "--action" ["VIP", "SUPPRESS"]).map (·.bind RuleAction.ofName?)

/-- A value that has to be there. -/
def orMissing {α : Type} (name : String) (v : Option α) : Except UsageFault α :=
  match v with
  | some a => .ok a
  | none => .error (.missing name)

/-- The only word of the arguments. -/
def onlyWord (a : Arguments) (name : String) : Except UsageFault String :=
  match a.words with
  | [] => .error (.missing name)
  | [w] => .ok w
  | _ => .error .tooMany

/-- A path that can be looked up. -/
def lookable (path : String) : Except Refusal Unit :=
  if FileTree.hasNul path then .error (.path .nul) else .ok ()

/-- The only word of the arguments, which has to name a file. -/
def onlyFile (files : Files) (a : Arguments) : Except Refusal String := do
  match a.words with
  | [] => throw (.misuse (.missing "PATH"))
  | w :: rest =>
    lookable w
    if !Files.hasFile files w then throw (.misuse (.badValue "PATH" w))
    if !rest.isEmpty then throw (.misuse .tooMany)
    return w

/-- Refuses words. -/
def noWords (a : Arguments) : Except UsageFault Unit :=
  if a.words.isEmpty then .ok () else .error .tooMany

/-- The number that is the value of an option. -/
def limit? (a : Arguments) : Except UsageFault (Option Int) :=
  match a.value? "--limit" with
  | none => .ok none
  | some v =>
    match Decimal.freeInt? v.toList with
    | some n => .ok (some n)
    | none => .error (.badValue "--limit" v)

/-- A fault of the arguments as a refusal. -/
def orRefuse {α : Type} (r : Except UsageFault α) : Except Refusal α :=
  r.mapError .misuse

/-- The command of a name with its arguments. -/
def Command.of (files : Files) (name : String) (a : Arguments) : Except Refusal Command :=
  match name with
  | "parse" => orRefuse do
    let action ← action? a
    return .parse (← onlyWord a "TEXT") action
  | "add" => orRefuse do
    noWords a
    let kind ← orMissing "--type" (← choice? a "--type" ["EMAIL", "DOMAIN", "TOPIC"])
    let kind ← orMissing "--type" (RuleKind.ofName? kind)
    let pattern ← required a "--pattern"
    let action ← orMissing "--action" (← action? a)
    return .add kind pattern action (a.value? "--unless") (a.value? "--notes")
  | "list" => orRefuse do
    noWords a
    return .list
  | "delete" => orRefuse do return .delete (← onlyWord a "RULE_ID")
  | "import" => do return .importRules (← onlyFile files a)
  | "import-csv" => do
    let action ← orRefuse (action? a)
    return .importSheet (← onlyFile files a) action (a.flags.contains "--dry-run")
  | "sweep" => orRefuse do
    noWords a
    return .sweep
  | "audit" => orRefuse do
    noWords a
    return .audit (← limit? a)
  | name => .error (.misuse (.unknownCommand name))

/-- The command of a name with arguments that are still to be taken apart; nothing if they ask for
help. -/
def Command.read (files : Files) (g : Grammar) (name : String) (rest : List String) :
    Except Refusal (Option Command) := do
  let a ← orRefuse (Arguments.read g rest)
  if a.flags.contains "--help" then return none
  return some (← Command.of files name a)

/-- Looks at the value of an option about all commands. -/
def Common.check (option : String × String) : Except Refusal Unit :=
  match option.1 with
  | "--config" => lookable option.2
  | "--env" => lookable option.2
  | "--log-level" =>
    if (choose? ["DEBUG", "INFO", "WARNING", "ERROR"] option.2).isSome then .ok ()
    else .error (.misuse (.badValue "--log-level" option.2))
  | _ => .ok ()

/-- What is about all commands, from the arguments before the name of one. -/
def Common.of (a : Arguments) : Except Refusal Common := do
  a.values.forM Common.check
  let level ← orRefuse (choice? a "--log-level" ["DEBUG", "INFO", "WARNING", "ERROR"])
  let config := (a.value? "--config").map normal
  let env := normal ((a.value? "--env").getD ".env")
  return ⟨config, env, level.getD "WARNING", a.value? "--actor"⟩

/-- What arguments ask for. -/
def Request.of (args : List String) : Except Refusal Request := do
  let a ← orRefuse (Arguments.read commonGrammar args)
  match a.flags with
  | "--version" :: _ => return .version
  | _ :: _ => return .help
  | [] =>
    let common ← Common.of a
    match a.words with
    | [] => throw (.misuse (.missing "COMMAND"))
    | name :: rest =>
      match grammar? name with
      | some g => return .command common g name rest
      | none => throw (.misuse (.unknownCommand name))

end MailRules.CommandLine
