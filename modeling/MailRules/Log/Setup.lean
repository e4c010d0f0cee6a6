import MailRules.FileTree
import MailRules.Log.Entry
import MailRules.Settings.EnvFile
import MailRules.Settings.Overlay
import MailRules.Text.Upper
import MailRules.Yaml.Construct

set_option autoImplicit false

/-!
# Setting up the log

Where lines go is decided by four layers of configuration, each laid over the one before: defaults,
a file, the environment, and what the caller asks for. Lines can go to the console, to a text file
that starts anew when it is full, and to a file of JSON lines; each of these has a level of its own.

The files are opened one after the other, and the directories that they are in are made. What was
made before a fault stays.
-/

namespace MailRules.Log

/-- Where lines can go. -/
inductive Sink
  | console
  | file
  | jsonFile
  deriving Repr, DecidableEq, Inhabited

namespace Sink

/-- All sinks, in the order in which they are set up. -/
def all : List Sink := [console, file, jsonFile]

/-- The name of a sink in a configuration. -/
def name : Sink → String
  | console => "console"
  | file => "file"
  | jsonFile => "json_file"

/-- Where the lines of a file go unless its entry says so. -/
def defaultPath : Sink → String
  | console => ""
  | file => "logs/inbox_rules.log"
  | jsonFile => "logs/inbox_rules.jsonl"

end Sink

/-- How much a file holds before it starts anew, and how many old ones are kept, as configured. -/
structure Rotation where
  maxBytes : Document
  backups : Document
  deriving Inhabited

/-- A sink that is in use. -/
structure Handler where
  sink : Sink
  /-- The rank from which on it takes lines. -/
  rank : Nat
  json : Bool
  /-- The file that its lines go to, if they go to one. -/
  path : Option Path := none
  rotation : Option Rotation := none
  deriving Inhabited

/-- A log that has been set up. -/
structure Setup where
  config : Members Document
  rank : Nat
  handlers : List Handler
  deriving Inhabited

/-- What has a name in capitals but is no level. -/
inductive Pretender
  /-- The layout of lines that is used where none is asked for. -/
  | layout
  /-- The table of the styles of layouts. -/
  | styles
  deriving Repr, DecidableEq

/-- The names of what is no level. -/
def Pretender.ofName? (name : String) : Option Pretender :=
  [("BASIC_FORMAT", layout), ("_STYLES", styles)].lookup name

/-- How a level that is none is refused. -/
def Pretender.message : Pretender → String
  | layout => "Unknown level: '%(levelname)s:%(name)s:%(message)s'"
  | styles =>
    "Level not an integer or a valid string: \x7b" ++ String.intercalate ", " [
      "'%': (<class 'logging.PercentStyle'>, '%(levelname)s:%(name)s:%(message)s')",
      "'\x7b': (<class 'logging.StrFormatStyle'>, " ++
        "'\x7blevelname\x7d:\x7bname\x7d:\x7bmessage\x7d')",
      "'$': (<class 'logging.StringTemplateStyle'>, " ++
        "'$\x7blevelname\x7d:$\x7bname\x7d:$\x7bmessage\x7d')"] ++ "\x7d"

/-- Why a log cannot be set up. -/
inductive SetupFault
  | fileMissing (path : String)
  | malformed (path : String)
  /-- A scalar that spells no value of its tag. -/
  | badValue (f : Yaml.ValueFault)
  /-- A value of this kind has no such member. -/
  | noMember (kind member : String)
  /-- A value of this kind has no entries to look at. -/
  | notIterable (kind : String)
  /-- A list is no mapping. -/
  | listIndex
  /-- A text is no mapping. -/
  | textIndex
  /-- A set is no mapping. -/
  | setIndex
  /-- Bytes hold no text. -/
  | textInBytes
  /-- A value of this kind is no path. -/
  | notPath (kind : String)
  /-- Bytes are no path. -/
  | bytesPath
  /-- A value of this kind is no size. -/
  | notSize (kind : String)
  /-- A file that cannot be opened. -/
  | file (f : FileFault)
  /-- A level that is the name of something else. -/
  | notLevel (p : Pretender)
  /-- A whole number with too many digits to be shown. -/
  | unshowable
  deriving Repr, DecidableEq

/-- The wording of a fault. -/
def SetupFault.message : SetupFault → String
  | fileMissing path => s!"Logging config file not found: {path}"
  | malformed path => s!"YAML parse error in {path}"
  | badValue f => f.message
  | noMember kind member => s!"'{kind}' object has no attribute '{member}'"
  | notIterable kind => s!"argument of type '{kind}' is not iterable"
  | listIndex => "list indices must be integers or slices, not str"
  | textIndex => "string indices must be integers, not 'str'"
  | setIndex => "'set' object is not subscriptable"
  | textInBytes => "a bytes-like object is required, not 'str'"
  | notPath kind => s!"expected str, bytes or os.PathLike object, not {kind}"
  | bytesPath =>
    "argument should be a str object or an os.PathLike object returning str, not <class 'bytes'>"
  | notSize kind => s!"'>' not supported between instances of '{kind}' and 'int'"
  | file f => f.message
  | notLevel p => p.message
  | unshowable => Decimal.tooLongToShow

/-- The family of a fault. -/
def SetupFault.family : SetupFault → Family
  | fileMissing _ => .fileMissing
  | malformed _ => .config
  | badValue f => f.family
  | noMember _ _ => .member
  | file f => f.family
  | notLevel .layout => .value
  | unshowable => .value
  | _ => .type

/-- The size at which a text file starts anew by default. -/
def defaultSize : Int := 10 * 1024 * 1024

/-- The lowest layer. -/
def defaults : Members Document :=
  [("level", .text "INFO"), ("format", .text "plain"),
    ("handlers", .mapping [
      ("console", .mapping [("enabled", .bool true), ("level", .text "INFO")]),
      ("file", .mapping [("enabled", .bool false), ("path", .text Sink.file.defaultPath),
        ("level", .text "INFO"), ("max_bytes", .int defaultSize), ("backup_count", .int 5)]),
      ("json_file", .mapping [("enabled", .bool false), ("path", .text Sink.jsonFile.defaultPath),
        ("level", .text "INFO")])])]

/-- The entries of a value that is to be a mapping. -/
def entriesOf (member : String) (d : Document) : Except SetupFault (Members Document) :=
  match d with
  | .mapping es => .ok es
  | d => .error (.noMember d.fullKindName member)

/-- The section on the log of a document, or the whole document if it has none. -/
def loggingPart (d : Document) : Except SetupFault Document :=
  let orNothing (v : Document) : Document := if v.isTruthy then v else .mapping []
  let named (ds : List Document) : Bool := ds.any (Document.sameKey (.text "logging"))
  match orNothing d with
  | .mapping es =>
    match Members.get? es "logging" with
    | some v => .ok (orNothing v)
    | none => .ok (.mapping es)
  | .list ds => if named ds then .error .listIndex else .ok (.list ds)
  | .set ds => if named ds then .error .setIndex else .ok (.set ds)
  | .text s => if Text.includes s "logging" then .error .textIndex else .ok (.text s)
  | .bytes _ => .error .textInBytes
  | v => .error (.notIterable v.fullKindName)

/-- The layer that a file with this text gives. -/
def fileLayer (path text : String) : Except SetupFault (Members Document) :=
  match Yaml.read (Text.mapText Text.unifyLineEnds text) with
  | .error (.value f) => .error (.badValue f)
  | .error _ => .error (.malformed path)
  | .ok d => (loggingPart d).bind (entriesOf "items")

/-- Whether a word switches something on. -/
def isOn (s : String) : Bool :=
  ["true", "1", "yes", "on"].contains (Text.mapText Text.lower s)

/-- The entry that a variable gives, unless it is unset or empty. -/
def filled (env : Environment) (name : String) (f : String → String × Document) :
    Members Document :=
  match Members.get? env name with
  | some s => if s = "" then [] else [f s]
  | none => []

/-- The entry that a variable gives if it is set. -/
def present (env : Environment) (name : String) (f : String → String × Document) :
    Members Document :=
  ((Members.get? env name).map f).toList

/-- The layer that the environment gives. -/
def environmentLayer (env : Environment) : Members Document :=
  let switch (sink : Sink) (s : String) : String × Document :=
    (sink.name, .mapping [("enabled", .bool (isOn s))])
  let handlers :=
    filled env "LOG_FILE" (fun s =>
      (Sink.file.name, .mapping [("enabled", .bool true), ("path", .text s)])) ++
    present env "LOG_CONSOLE" (switch .console) ++
    present env "LOG_JSON_FILE" (switch .jsonFile)
  filled env "LOG_LEVEL" (fun s => ("level", .text (Text.mapText Text.upper s))) ++
    filled env "LOG_FORMAT" (fun s => ("format", .text (Text.mapText Text.lower s))) ++
    (if handlers.isEmpty then [] else [("handlers", .mapping handlers)])

/-- The ranks of the words for levels. -/
def levelWords : List (String × Nat) :=
  [("NOTSET", 0), ("DEBUG", 10), ("INFO", 20), ("WARN", 30), ("WARNING", 30), ("ERROR", 40),
    ("CRITICAL", 50), ("FATAL", 50)]

/-- The rank that a value asks for, in any case; that of `INFO` if it asks for none. -/
def rankOf (d : Document) : Except SetupFault Nat :=
  match d with
  | .text s =>
    let name := Text.mapText Text.upper s
    match Pretender.ofName? name with
    | some p => .error (.notLevel p)
    | none => .ok ((levelWords.lookup name).getD Level.info.rank)
  | d => if d.isShowable then .ok Level.info.rank else .error .unshowable

/-- The path of the file of a sink. -/
def pathOf (sink : Sink) (es : Members Document) : Except SetupFault Path :=
  match (Members.get? es "path").getD .null with
  | .text s => .ok (Path.ofText (if s = "" then sink.defaultPath else s))
  | d =>
    if !d.isTruthy then .ok (Path.ofText sink.defaultPath)
    else
      match d with
      | .bytes _ => .error .bytesPath
      | d => .error (.notPath d.kindName)

/-- How much the text file may hold, and how many old ones are kept. -/
def rotationOf (es : Members Document) : Except SetupFault Rotation :=
  let rotation : Rotation :=
    ⟨(Members.get? es "max_bytes").getD (.int defaultSize),
      (Members.get? es "backup_count").getD (.int 5)⟩
  match rotation.maxBytes with
  | .int _ => .ok rotation
  | .float _ => .ok rotation
  | .bool _ => .ok rotation
  | d => .error (.notSize d.fullKindName)

/-! ## Opening -/

/-- A step that may open files. -/
abbrev Opening (α : Type) := ExceptT SetupFault (StateM (FileTree α))

section

variable {α : Type}

/-- Something done to the files. -/
def onFiles (f : FileTree α → Except FileFault (FileTree α)) : Opening α Unit := do
  match f (← get) with
  | .ok t => set t
  | .error e => throw (.file e)

/-- A check that opens no file. -/
def check {β : Type} (r : Except SetupFault β) : Opening α β :=
  match r with
  | .ok b => pure b
  | .error e => throw e

/-- Opens the file of a sink; `prepare` comes after its directory is made. -/
def openSink {β : Type} (empty : α) (sink : Sink) (es : Members Document)
    (prepare : Except SetupFault β) : Opening α (Path × β) := do
  let path ← check (pathOf sink es)
  onFiles (·.makeDirectories path.parent)
  let b ← check prepare
  onFiles (·.openFile path empty)
  return (path, b)

/-- Opens the sink with these entries, if it is in use. -/
def openHandler (empty : α) (config : Members Document) (sink : Sink) (es : Members Document) :
    Opening α (Option Handler) := do
  let enabled := ((Members.get? es "enabled").map Document.isTruthy).getD (sink = .console)
  if !enabled then return none
  let json := match Members.get? config "format" with
    | some (.text s) => s = "json"
    | _ => false
  let level := ((Members.get? es "level").orElse fun _ => Members.get? config "level").getD .null
  match sink with
  | .console => return some { sink := sink, rank := ← check (rankOf level), json := json }
  | .file =>
    let (path, rotation) ← openSink empty sink es (rotationOf es)
    return some {
      sink := sink
      rank := ← check (rankOf level)
      json := json
      path := some path
      rotation := some rotation }
  | .jsonFile =>
    let (path, _) ← openSink empty sink es (.ok ())
    return some
      { sink := sink, rank := ← check (rankOf level), json := true, path := some path }

/-- Opens the sinks in use. -/
def openHandlers (empty : α) (config : Members Document) : Opening α (List Handler) := do
  let hs ← check (entriesOf "get" ((Members.get? config "handlers").getD (.mapping [])))
  let found ← Sink.all.mapM fun sink => do
    let es ← check (entriesOf "get" ((Members.get? hs sink.name).getD (.mapping [])))
    openHandler empty config sink es
  return found.filterMap id

end

/-- All layers laid over one another. -/
def layered (file env overrides : Members Document) : Members Document :=
  Document.overlayEntries (Document.overlayEntries (Document.overlayEntries defaults file) env)
    overrides

/-- A file with the configuration of the log: its path, and its text if it exists. -/
structure ConfigFile where
  path : String
  text : Option String
  deriving Repr, DecidableEq

/-- The layer that a file gives, if one is asked for. -/
def ConfigFile.layer : Option ConfigFile → Except SetupFault (Members Document)
  | none => .ok []
  | some f =>
    match f.text with
    | none => .error (.fileMissing f.path)
    | some text => fileLayer f.path text

/-- Sets up the log; `empty` is what a new file holds. -/
def setUp {α : Type} (empty : α) (file : Option ConfigFile) (env : Environment)
    (overrides : Members Document) : Opening α Setup := do
  let layer ← check (ConfigFile.layer file)
  let config := layered layer (environmentLayer env) overrides
  let rank ← check (rankOf ((Members.get? config "level").getD .null))
  let handlers ← openHandlers empty config
  if !((Members.get? config "format").all Document.isShowable) then throw .unshowable
  return ⟨config, rank, handlers⟩

/-- The entry that says how a log was set up. -/
def Setup.entry (s : Setup) : Entry :=
  let shown (name : String) : String := ((Members.get? s.config name).getD .null).display
  ⟨.debug, "inbox_rules", "Logging initialized: level=" ++ shown "level" ++ ", format=" ++
    shown "format"⟩

end MailRules.Log
