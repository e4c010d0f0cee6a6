import MailRules.FileTree
import MailRules.Settings.Basic
import MailRules.Settings.EnvFile
import MailRules.Log.Entry
import MailRules.Yaml.Construct

set_option autoImplicit false

/-!
# Loading settings

Settings come from a file and from environment variables; a variable `INBOX_RULES_<SECTION>_<KEY>`
sets one field and wins over the file. Its value is read as the kind of value that the field is
declared to have. Variables are taken in the order of their names, and those that name no field are
reported and passed over.
-/

namespace MailRules

/-- Why there are no settings. -/
inductive ConfigFault
  | fileMissing (path : String)
  | malformed (path : String)
  /-- A file that cannot even be looked up. -/
  | unreachable (f : FileFault)
  /-- A variable of a file of variables that cannot be set. -/
  | badSetting (f : EnvFile.SettingFault)
  /-- A scalar that spells no value of its tag. -/
  | badValue (f : Yaml.ValueFault)
  | emptyFile (path : String)
  /-- The file holds a value of another kind than a mapping. -/
  | notMapping (path kind : String)
  | invalid (issues : List Settings.Issue)
  /-- A variable whose value is no number of the wanted kind. -/
  | override (varName : String) (whole : Bool) (value : String)
  /-- The variable for the key of the language model's service is not set. -/
  | keyUnset (varName : String)
  deriving Repr, DecidableEq

namespace ConfigFault

/-- The wording of a fault. -/
def message : ConfigFault → String
  | fileMissing path => s!"Config file not found: {path}"
  | malformed path => s!"YAML parse error in {path}"
  | unreachable f => f.message
  | badSetting f => f.message
  | badValue f => f.message
  | emptyFile path => s!"Config file {path} is empty"
  | notMapping path kind => s!"Config file {path} must contain a mapping, got {kind}"
  | invalid _ => "Configuration validation failed"
  | override name whole value =>
    name ++ " must be " ++ (if whole then "an integer" else "a number") ++ ", got: " ++
      Text.quoted value
  | keyUnset name => s!"AI API key environment variable '{name}' is not set"

/-- The code of a fault; those of single values have none. -/
def code? : ConfigFault → Option String
  | fileMissing _ => some "E1001"
  | keyUnset _ => some "E1001"
  | unreachable _ => none
  | badSetting _ => none
  | badValue _ => none
  | _ => some "E1002"

/-- The family of a fault. -/
def family : ConfigFault → Family
  | unreachable f => f.family
  | badSetting _ => .value
  | badValue f => f.family
  | _ => .config

/-- The wording of a fault, with the first line of the report on an invalid configuration. -/
def headline : ConfigFault → String
  | invalid issues =>
    let n := issues.length
    let plural := if n = 1 then "" else "s"
    s!"Configuration validation failed: {n} validation error{plural} for EngineSettings"
  | f => f.message

end ConfigFault

namespace Settings

/-- What the names of variables that set fields begin with. -/
def variableStart : String := "INBOX_RULES_"

/-- The value of a text as a field's kind wants it. -/
def coerce (varName : String) (kind : FieldKind) (raw : String) : Except ConfigFault Document :=
  match kind with
  | .truth =>
    let w := Text.mapText (fun cs => Text.lower (Text.trim cs)) raw
    .ok (.bool (["true", "1", "yes", "on"].contains w))
  | .whole =>
    match Decimal.freeInt? raw.toList with
    | some n => .ok (.int n)
    | none => .error (.override varName true raw)
  | .real =>
    match Decimal.freeFloat? raw.toList with
    | some x => .ok (.float x)
    | none => .error (.override varName false raw)
  | .word => .ok (.text raw)

/-- What a variable's name stands for. -/
inductive Target
  | unrelated
  | noSection
  | noField (part key : String)
  | field (part key : String) (kind : FieldKind)
  deriving Repr, DecidableEq

/-- The field that a variable's name stands for. -/
def target (varName : String) : Target :=
  let start := variableStart.toList
  if !start.isPrefixOf varName.toList then .unrelated
  else
    let name := Text.lower (varName.toList.drop start.length)
    match sections.find? (fun s => (s.1.toList ++ ['_']).isPrefixOf name) with
    | none => .noSection
    | some (s, fields) =>
      let key := String.ofList (name.drop (s.toList.length + 1))
      match fields.lookup key with
      | some kind => .field s key kind
      | none => .noField s key

/-- Fields set by variables, by section. -/
abbrev Overrides := Members (Members Document)

/-- Sets one field. -/
def Overrides.set (o : Overrides) (part key : String) (d : Document) : Overrides :=
  Members.put o part (Members.put ((Members.get? o part).getD []) key d)

/-- A line of the log on configuration. -/
def note (level : Log.Level) (message : String) : Log.Entry :=
  ⟨level, "config", message⟩

/-- Fields set by variables that are taken in order, and what is to be logged. -/
def collectFrom (acc : Overrides) :
    List (String × String) → List Log.Entry × Except ConfigFault Overrides
  | [] => ([], .ok acc)
  | (varName, raw) :: rest =>
    match target varName with
    | .unrelated => collectFrom acc rest
    | .noSection =>
      let line := note .warning s!"Ignoring {varName}: no configuration section matches"
      let (logs, r) := collectFrom acc rest
      (line :: logs, r)
    | .noField s key =>
      let line := note .warning s!"Ignoring {varName}: section '{s}' has no key '{key}'"
      let (logs, r) := collectFrom acc rest
      (line :: logs, r)
    | .field s key kind =>
      match coerce varName kind raw with
      | .ok d => collectFrom (acc.set s key d) rest
      | .error e => ([], .error e)

/-- The variables in the order of their names. -/
def sortedVariables (env : Environment) : List (String × String) :=
  env.mergeSort (fun a b => a.1 ≤ b.1)

/-- The names of the fields that are set, each after its section. -/
def Overrides.names (o : Overrides) : List String :=
  o.flatMap (fun s => s.2.map (fun e => s.1 ++ "." ++ e.1))

/-- The fields that the environment sets, and what is to be logged about it. -/
def collectOverrides (env : Environment) : List Log.Entry × Except ConfigFault Overrides :=
  match collectFrom [] (sortedVariables env) with
  | (logs, .ok []) => (logs, .ok [])
  | (logs, .ok o) =>
    let applied := String.intercalate ", " o.names
    (logs ++ [note .info s!"Environment overrides: {applied}"], .ok o)
  | (logs, .error e) => (logs, .error e)

/-- The entries of a section that is a mapping. -/
def entriesOf : Option Document → Members Document
  | some (.mapping es) => es
  | _ => []

/-- A configuration with fields set in it, every other field of their sections kept. -/
def applyOverrides (root : Members Document) (o : Overrides) : Members Document :=
  o.foldl (fun acc s => acc.put s.1 (.mapping (Members.putAll (entriesOf (acc.get? s.1)) s.2))) root

/-- The settings that a document spells. -/
def build (d : Document) : Except ConfigFault Settings :=
  (ofDocument d).mapError .invalid

/-- The entries of a configuration file with this text, without those on logging. -/
def readFile (path text : String) : Except ConfigFault (Members Document) :=
  match Yaml.read (Text.mapText Text.unifyLineEnds text) with
  | .error (.value f) => .error (.badValue f)
  | .error _ => .error (.malformed path)
  | .ok .null => .error (.emptyFile path)
  | .ok (.mapping root) => .ok (Members.erase root "logging")
  | .ok d => .error (.notMapping path d.kindName)

/-- A configuration file that is asked for: its path, and its text if it exists. -/
structure ConfigFile where
  path : String
  text : Option String
  deriving Repr, DecidableEq

/-- The entries of a configuration file, and what is to be logged about it. -/
def ConfigFile.entries : Option ConfigFile → List Log.Entry × Except ConfigFault (Members Document)
  | none => ([], .ok [])
  | some f =>
    match f.text with
    | none => ([], .error (.fileMissing f.path))
    | some text =>
      ([note .info s!"Loading rule engine config from {f.path}"], readFile f.path text)

/-- What is to be logged about settings that were built. -/
def buildLines : Except ConfigFault Settings → List Log.Entry
  | .ok _ => []
  | .error f => [note .error f.headline]

/-- The settings that a configuration file and the environment give, and what is to be logged about
them. -/
def load (file : Option ConfigFile) (env : Environment) :
    List Log.Entry × Except ConfigFault Settings :=
  match ConfigFile.entries file, collectOverrides env with
  | (lines, .error f), _ => (lines, .error f)
  | (lines, .ok _), (more, .error f) => (lines ++ more, .error f)
  | (lines, .ok root), (more, .ok o) =>
    let built := build (.mapping (applyOverrides root o))
    (lines ++ more ++ buildLines built, built)

/-- The key of the language model's service. -/
def key (s : Settings) (env : Environment) : Except ConfigFault String :=
  match env.get? s.model.keyVariable with
  | some k => if k = "" then .error (.keyUnset s.model.keyVariable) else .ok k
  | none => .error (.keyUnset s.model.keyVariable)

end Settings

end MailRules
