import MailRules.CommandLine.Run
import MailRules.Digest.Sha256
import MailRules.Log.Moment
import MailRules.Store.Encoding
import Std.Time.DateTime.Timestamp

set_option autoImplicit false

/-!
# The program

Brings in the files, the environment, the time and a source of identifiers that a command needs,
runs it, and writes what it prints and leaves. What the command does is decided by
`CommandLine.run`. There is no connection to a service here: every call of one fails.
-/

namespace MailRules.CommandLine

/-! ## What a command needs -/

/-- The identifier of the `n`-th thing of a kind. Different seeds give different identifiers. -/
def identifier (seed kind : String) (n : Nat) : String :=
  Privacy.cut 32 (Digest.sha256 s!"{seed}/{kind}/{n}")

/-- The marks of the rows that a command writes. -/
def marksOf (seed time : String) : Store.Marks :=
  ⟨identifier seed "rule", identifier seed "event", identifier seed "thread",
    identifier seed "task", time⟩

/-- The moment so many nanoseconds after the start of 1970. -/
def momentOf (nanoseconds : Int) : Log.Moment :=
  ⟨nanoseconds.fdiv 1000000000, (nanoseconds.fmod 1000000000).toNat / 1000⟩

/-- The variables in a text where each ends with a null character. -/
def variablesIn (text : String) : Environment :=
  (Text.segments '\x00' text.toList).filterMap fun cs =>
    (Text.cutAt '=' cs).map fun (name, value) => (String.ofList name, String.ofList value)

/-- The paths that arguments and the variables for the log mention, and those that are looked at by
default. -/
def mentioned (args : List String) (env : Environment) : List String :=
  ([".env", Log.Sink.jsonFile.defaultPath] ++ (env.get? "LOG_FILE").toList ++ args ++
    args.filterMap fun a => (Arguments.splitOption a).2).filter
    (fun a => a ≠ "" && !FileTree.hasNul a)

/-- What a file with this text holds. -/
def contentOf (text : String) : Content :=
  match Json.read text with
  | .ok v =>
    match Store.Tables.ofJson? v with
    | some t => .tables t
    | none => .text text
  | .error _ => .text text

/-- The path of the database that arguments ask for, if they ask for one. -/
def World.databasePath? (w : World) (args : List String) : Option String :=
  match Request.of args with
  | .ok (.command common _ _ _) =>
    match ((w.loadEnv common).1.settings common).1 with
    | .ok s => if s.databasePath = Files.nowhere then none else some s.databasePath
    | .error _ => none
  | _ => none

/-- The places on the way along a path and at its end. -/
def placesAlong (home : Place) (path : String) : List Place :=
  let p := Path.ofText path
  let start : Place := if p.isAbsolute then [] else home
  (p.parts.foldl (fun (acc : List Place × Place) n =>
    let next := FileTree.step acc.2 n
    (acc.1 ++ [next], next)) ([], start)).1

/-- What is printed about a run besides its output. -/
def Run.complaint (r : Run) : String :=
  match r.crash with
  | some f => s!"{r.errors}{f.family.name}: {f.text}\n"
  | none => r.errors

/-! ## Input and output -/

/-- Finds out what is at a place. -/
def readEntry? (place : Place) : IO (Option (FileEntry Content)) := do
  try
    let path ← IO.FS.realPath (FileTree.placeText place)
    if ← path.isDir then return some .directory
    let bytes ← IO.FS.readBinFile path
    return some (.file (contentOf ((String.fromUTF8? bytes).getD "\ufffd")))
  catch _ =>
    return none

/-- Adds what is at some places. -/
def addPlaces (files : Files) (places : List Place) : IO Files :=
  places.foldlM
    (fun files place => do
      match ← readEntry? place with
      | some e => return files.put place e
      | none => return files)
    files

/-- Adds what is along some paths. -/
def addPaths (files : Files) (paths : List String) : IO Files :=
  addPlaces files (paths.flatMap (placesAlong files.home))

/-- What is to be added to a text that was found so that it becomes another: nothing if it was the
same, and all of it if there was none. -/
def addition (found : Option (FileEntry Content)) (left : String) : Option String :=
  match found with
  | some (.file (.text s)) =>
    if s = left then none else some (String.ofList (left.toList.drop s.length))
  | _ => some left

/-- Writes what a command leaves: new directories, tables, and what was added to texts. -/
def saveFiles (found left : Files) : IO Unit :=
  left.entries.forM fun e => do
    match e.2 with
    | .directory => if !found.entries.has e.1 then IO.FS.createDirAll e.1
    | .file (.tables t) => IO.FS.writeFile e.1 (t.toJson.render Json.inline)
    | .file (.text s) =>
      match addition (found.entries.get? e.1) s with
      | some more => IO.FS.withFile e.1 .append fun h => h.putStr more
      | none => return ()
    | .device => return ()

/-- Reads the environment of the process. -/
def readEnvironment : IO Environment := do
  try
    return variablesIn (← IO.FS.readFile "/proc/self/environ")
  catch _ =>
    return []

/-- A text that differs from run to run. -/
def newSeed : IO String := do
  let bytes ← IO.getRandomBytes 16
  return String.intercalate "." (bytes.toList.map fun b => Json.showInt b.toNat)

/-- The place of the current directory. -/
def currentPlace : IO Place := do
  return (Path.ofText (← IO.currentDir).toString).parts

/-- The world that a command finds. -/
def findWorld (args : List String) : IO World := do
  let now ← Std.Time.Timestamp.now
  let moment := momentOf now.toNanosecondsSinceUnixEpoch.val
  let seed ← newSeed
  let env ← readEnvironment
  let w : World := {
    files := ← addPaths (FileTree.fresh (← currentPlace)) (mentioned args env)
    env := env
    marks := marksOf seed (moment.showPrecise?.getD "")
    previewId := identifier seed "preview"
    now := Float.ofInt moment.seconds
    sweepId := "sweep-" ++ Privacy.cut 8 (identifier seed "sweep" 0) }
  match w.databasePath? args with
  | some path =>
    let names := if FileTree.hasNul path then [] else placesAlong w.files.home path
    return { w with files := ← addPlaces w.files (names ++ [Files.storePlace w.files path]) }
  | none => return w

/-- Runs a command in the world that it finds. -/
def execute (args : List String) : IO UInt32 := do
  let w ← findWorld args
  let (r, left) := run w args
  saveFiles w.files left.files
  (← IO.getStdout).putStr r.output
  (← IO.getStderr).putStr r.complaint
  return r.exitCode.toUInt32

end MailRules.CommandLine

/-- Runs the command that the arguments name. -/
def main (args : List String) : IO UInt32 :=
  MailRules.CommandLine.execute args
