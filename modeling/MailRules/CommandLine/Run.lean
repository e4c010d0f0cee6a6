import MailRules.CommandLine.Command
import MailRules.Engine
import MailRules.Log.Writing

set_option autoImplicit false

/-!
# Running commands

A command is run on the files and the environment that it finds, and leaves others. What it prints
is JSON on standard output, or the failure on standard error with exit code 1; arguments that cannot
be understood give exit code 2. A failure that is not the engine's own breaks the command off.

Before the arguments of the command itself are looked at, the log is set up: its files are there
when the command starts. What is logged on the way goes to them, and to standard error.
-/

namespace MailRules.CommandLine

/-- What a command finds and leaves. -/
structure World where
  files : Files
  env : Environment := []
  marks : Store.Marks
  /-- Identifiers of the rules of a preview, by their places. -/
  previewId : Nat → String
  /-- What is drawn before calls of the service are repeated. -/
  draw : Nat → Float := fun _ => 0
  /-- What the service replies. -/
  replies : List Extraction.Reply := []
  /-- Seconds since the start of 1970. -/
  now : Float := 0
  /-- The identifier of a sweep in the log. -/
  sweepId : String := "sweep"
  /-- The log while a command runs. -/
  log : Log.Setup := default
  /-- What the log has shown on standard error so far. -/
  shown : String := ""

/-- What a command comes to. -/
structure Run where
  exitCode : Nat := 0
  output : String := ""
  errors : String := ""
  /-- The failure that broke it off. -/
  crash : Option Failure := none
  deriving Inhabited

namespace Run

/-- A run that prints a value. -/
def print (v : Json) : Run :=
  { output := v.render Json.pretty ++ "\n" }

/-- A run that fails with a message. -/
def fail (message : String) : Run :=
  { exitCode := 1, errors := message ++ "\n" }

/-- A run with arguments that cannot be understood. -/
def misused (f : UsageFault) : Run :=
  { exitCode := 2, errors := "Error: " ++ f.message ++ "\n" }

/-- A run that is broken off. -/
def broken (f : Failure) : Run :=
  { exitCode := 1, crash := some f }

/-- A run with arguments that are refused. -/
def refused : Refusal → Run
  | .misuse f => misused f
  | .path f => broken (.file f)

end Run

/-- The line on a record that is refused. -/
def issueLine (i : Issue) : String :=
  let errors := String.intercalate "; " i.errors
  s!"  record {i.index}: {errors}"

/-- What a command prints about a failure: the engine's own failures with the records that they
list. -/
def Run.ofFailure (f : Failure) : Run :=
  if f.family.code?.isSome then
    .fail (String.intercalate "\n" (("Error: " ++ f.text) :: f.issues.map issueLine))
  else .broken f

/-- What a command prints about an outcome. -/
def Run.ofResult {α : Type} (show? : α → Json) : Except Failure α → Run
  | .ok a => .print (show? a)
  | .error f => .ofFailure f

/-- What a command prints about a configuration that cannot be used. -/
def Run.ofConfigFault (f : ConfigFault) : Run :=
  match f.code? with
  | some code => .fail s!"Configuration error [{code}]: {f.headline}"
  | none => .broken (.config f)

/-- The world after a handler of the log has taken a record. -/
def World.write (w : World) (record : Log.Record) (h : Log.Handler) : World :=
  let line := w.log.writes h [record]
  match h.path with
  | none => { w with shown := w.shown ++ line }
  | some path => { w with files := Files.append w.files path line }

/-- The world after entries that were made in a context have been logged. -/
def World.say (w : World) (context : Log.Context) (entries : List Log.Entry) : World :=
  entries.foldl (fun w e => w.log.handlers.foldl (World.write · (e.record context w.now)) w) w

/-- The context in which a command is run. -/
def Common.context (common : Common) : Log.Context :=
  { actor := common.actor.map .str }

/-- The world after the log has been set up, or the failure to. -/
def World.openLog (w : World) (common : Common) : Except Failure Unit × World :=
  let level : Document := .text common.logLevel
  let overrides : Members Document :=
    [("level", level), ("handlers", .mapping [("console", .mapping [("level", level)])])]
  let (r, files) := (Log.setUp (.text "") none w.env overrides).run.run w.files
  let w := { w with files := files }
  match r with
  | .ok log => (.ok (), { w with log := log }.say {} [log.entry])
  | .error f => (.error (.raised ⟨f.family, f.message⟩), w)

/-- The world after a run, with nothing left of its log but the files, and the run with what the log
has shown. -/
def World.closeLog (w : World) (r : Run) : Run × World :=
  ({ r with errors := w.shown ++ r.errors }, { w with log := default, shown := "" })

/-- The world with the variables of the file that the options name, and the fault that stopped its
loading, if any. -/
def World.loadEnv (w : World) (common : Common) : World × Option ConfigFault :=
  match Files.variables? w.files common.env with
  | .error f => (w, some (.unreachable f))
  | .ok none => (w, none)
  | .ok (some text) =>
    match EnvFile.load text w.env with
    | (env, some fault) => ({ w with env := env }, some (.badSetting fault))
    | (env, none) =>
      let line := Settings.note .info s!"Loaded secrets from {common.env}"
      ({ w with env := env }.say common.context [line], none)

/-- The settings for a command. -/
def World.settings (w : World) (common : Common) : Except ConfigFault Settings × World :=
  let load (file : Option Settings.ConfigFile) : Except ConfigFault Settings × World :=
    let (lines, r) := Settings.load file w.env
    (r, w.say common.context lines)
  match common.config with
  | none => load none
  | some path =>
    match Files.text? w.files path with
    | .error f => (.error (.unreachable f), w)
    | .ok text => load (some ⟨path, text⟩)

/-- The assistant that the settings ask for. -/
def World.assistant (w : World) (s : Settings) : Option Extraction.Assistant :=
  if s.model.enabled then some (.service s w.env w.draw w.replies) else none

/-- The entry on a store that was opened. -/
def openedEntry (path : String) : Log.Entry :=
  ⟨.debug, "database", s!"Opened database at {path}"⟩

/-- The engine for a command, and the world after its store has been opened. -/
def World.engine (w : World) (common : Common) (s : Settings) : Except Failure Engine × World :=
  match Files.openStore w.files "" s.databasePath w.marks with
  | (.error f, files) => (.error f, { w with files := files })
  | (.ok store, files) =>
    (.ok (.start s store (w.assistant s)),
      { w with files := files }.say common.context [openedEntry s.databasePath])

/-- The world after a command has closed its engine, whose log was made in a context. -/
def World.keep (w : World) (context : Log.Context) (e : Engine) : World :=
  let g := e.close.2.registry
  { w with files := Files.putTables w.files e.settings.databasePath g.store.tables }.say context
    g.log

/-- Runs what needs the engine, in a context. -/
def World.withEngineIn (w : World) (common : Common) (context : Log.Context)
    (work : Files → Engine → Run × Engine) : Run × World :=
  match w.loadEnv common with
  | (w, some fault) => (.ofConfigFault fault, w)
  | (w, none) =>
    match w.settings common with
    | (.error f, w) => (.ofConfigFault f, w)
    | (.ok s, w) =>
      match w.engine common s with
      | (.error f, w) => (.ofFailure f, w)
      | (.ok e, w) =>
        let (run, e) := work w.files e
        (run, w.keep context e)

/-- Runs what needs the engine. -/
def World.withEngine (w : World) (common : Common) (work : Engine → Run × Engine) : Run × World :=
  w.withEngineIn common common.context fun _ => work

/-- A value that is not given. -/
def actionValue (a : Option RuleAction) : Json :=
  .ofText? (a.map RuleAction.name)

/-- Prints the outcome of an operation of the engine. -/
def answer {α : Type} (show? : α → Json) (o : Engine.Outcome α) : Run × Engine :=
  (.ofResult show? o.1, o.2)

/-- The record that the options of `add` spell. -/
def recordOf (kind : RuleKind) (pattern : String) (action : RuleAction)
    (exception notes : Option String) : Json :=
  .object [("type", .str kind.name), ("pattern", .str pattern), ("action", .str action.name),
    ("unless_contains", .ofText? exception), ("notes", .ofText? notes)]

/-- Imports a preview, or prints it if there is nothing in it or nothing is to be changed. -/
def importPreview (w : World) (common : Common) (isDryRun : Bool) (p : Sheet.Preview) (e : Engine) :
    Run × Engine :=
  let json := p.toJson w.previewId
  if isDryRun || p.entries.isEmpty then (.print json, e)
  else
    answer
      (fun n =>
        .object [("summary", p.summary), ("errors", p.errorList), ("count", .int (n : Nat))])
      (e.importRules ((json.field? "preview").getD .null) common.actor)

/-- Reads the records of a file; the fault if there is one. -/
def readRecords (files : Files) (path : String) : Except Run Json :=
  let text := (files.read? path).getD ""
  match Json.read text with
  | .error .tooDeep => .error (.broken .tooDeep)
  | .error f =>
    let shown := normal path
    let reason := f.message text
    .error (.fail s!"Error: cannot read {shown}: {reason}")
  | .ok v =>
    let v := match v with
      | .object ms => (Members.get? ms "rules").getD .null
      | v => v
    match v with
    | .array vs => .ok (.array vs)
    | _ => .error
        (.fail "Error: expected a JSON array of rules (or an object with a 'rules' array)")

/-- Runs a command. -/
def runCommand (w : World) (common : Common) : Command → Run × World
  | .parse text action =>
    w.withEngine common fun e =>
      answer Instruction.Found.toJson (e.parse (some text) (actionValue action) common.actor)
  | .add kind pattern action exception notes =>
    w.withEngine common fun e =>
      answer Rule.toJson
        (e.createRule (recordOf kind pattern action exception notes) common.actor)
  | .list =>
    w.withEngine common fun e => answer (fun rs => .array (rs.map Rule.toJson)) e.listRules
  | .delete id =>
    w.withEngine common fun e =>
      answer (fun _ => .object [("ok", .bool true)]) (e.deleteRule id common.actor)
  | .importRules path =>
    match readRecords w.files path with
    | .error run => (run, w)
    | .ok records =>
      w.withEngine common fun e =>
        answer (fun n => .object [("count", .int (n : Nat))]) (e.importRules records common.actor)
  | .importSheet path action isDryRun =>
    w.withEngineIn common common.context fun files e =>
      match e.analyze ((Files.read? files path).getD "") (actionValue action) with
      | (.error f, e) => (.ofFailure f, e)
      | (.ok p, e) => importPreview w common isDryRun p e
  | .sweep =>
    w.withEngineIn common { common.context with correlation := some (.str w.sweepId) } fun _ e =>
      answer Tally.toJson e.sweep
  | .audit limit =>
    w.withEngine common fun e =>
      answer (fun es => .array (es.map Audit.Event.toJson)) (e.events limit)

/-- What is printed when the version is asked for. -/
def versionLine : String := "inbox-rules, version 0.1.0\n"

/-- What is printed when help is asked for. -/
def helpText : String :=
  "Usage: inbox-rules [OPTIONS] COMMAND [ARGS]...\n\n" ++
  "Commands: add, audit, delete, import, import-csv, list, parse, sweep\n"

/-- Runs what arguments ask for. -/
def run (w : World) (args : List String) : Run × World :=
  match Request.of args with
  | .error r => (.refused r, w)
  | .ok .help => ({ output := helpText }, w)
  | .ok .version => ({ output := versionLine }, w)
  | .ok (.command common g name rest) =>
    match w.openLog common with
    | (.error f, w) => w.closeLog (.broken f)
    | (.ok _, w) =>
      match Command.read w.files g name rest with
      | .error r => w.closeLog (.refused r)
      | .ok none => w.closeLog { output := helpText }
      | .ok (some command) =>
        let (r, w) := runCommand w common command
        w.closeLog r

end MailRules.CommandLine
