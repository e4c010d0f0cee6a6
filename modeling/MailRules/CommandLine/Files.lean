import MailRules.FileTree
import MailRules.Store.Basic

set_option autoImplicit false

/-!
# Files

The files that a command finds and leaves. A file holds a text or a store.
-/

namespace MailRules.CommandLine

/-- What a file holds. -/
inductive Content
  | text (s : String)
  | tables (t : Store.Tables)
  deriving Inhabited

/-- Directories and files. -/
abbrev Files := FileTree Content

/-- A path in the form in which it is shown. -/
def normal (path : String) : String :=
  (Path.ofText path).text

namespace Files

/-- What reading a file gives if it is a text, every line ended by a line feed. -/
def read? (files : Files) (path : String) : Option String :=
  match files.find? (Path.ofText path) with
  | some (.file (.text s)) => some (Text.mapText Text.unifyLineEnds s)
  | some .device => some ""
  | _ => none

/-- The text that a file holds, every line ended by a line feed. -/
def textIn? : Content → Option String
  | .text s => some (Text.mapText Text.unifyLineEnds s)
  | .tables _ => none

/-- The text of a file that holds one, if it is there; a device is no file. -/
def text? (files : Files) (path : String) : Except FileFault (Option String) :=
  (files.ask (Path.ofText path)).map (·.bind textIn?)

/-- The text of a file of variables, if it is there. Nothing can be read from one whose path is
spelled as that of a directory. -/
def variables? (files : Files) (path : String) : Except FileFault (Option String) :=
  let literal := (files.content? (FileTree.literalPath path)).bind textIn?
  (files.text? path).map (·.map fun _ => literal.getD "")

/-- Whether an argument names something that can be read, which is no directory. -/
def hasFile (files : Files) (argument : String) : Bool :=
  argument ≠ "" &&
    match files.find? (FileTree.literalPath argument) with
    | some (.file _) => true
    | some .device => true
    | _ => false

/-- The files with a text at a path, the directories that it is in included. -/
def putText (files : Files) (path text : String) : Files :=
  let p := Path.ofText path
  match files.makeDirectories p.parent with
  | .ok t =>
    match t.locate p with
    | .ok place => t.put place (.file (.text text))
    | .error _ => t
  | .error _ => files

/-- The files with further text at the end of a text at a path. -/
def append (files : Files) (path : Path) (more : String) : Files :=
  match files.locate path with
  | .error _ => files
  | .ok place =>
    match files.entryAt? place with
    | some (.file (.text s)) => files.put place (.file (.text (s ++ more)))
    | _ => files

/-! ## Stores -/

/-- The path of a store that is in no file and is gone when it is closed. -/
def nowhere : String := ":memory:"

/-- The place of the store with a path. -/
def storePlace (files : Files) (path : String) : Place :=
  files.spelledPlace (Path.ofText path)

/-- What the name of the journal of a store has after that of the store. -/
def journalEnd : String := "-journal"

/-- How many bytes the path from the root to the journal of a store has at most. -/
def journalPathLimit : Nat := 512

/-- Whether a name with so many bytes after it is too long for a file. -/
def outgrows (place : Place) (more : String) : Bool :=
  FileTree.nameLimit < (place.getLast?.getD "").utf8ByteSize + more.utf8ByteSize

/-- Whether there is no room for the file of a store at a place because its path is too long. -/
def hasNoRoom (place : Place) : Bool :=
  outgrows place "" ||
    journalPathLimit < (FileTree.placeText place).utf8ByteSize + journalEnd.utf8ByteSize

/-- The tables in the file at a place: none if there is no file yet, or an empty one. A new store
needs a journal beside it. -/
def tablesAt (files : Files) (place : Place) : Except Store.OpenProblem Store.Tables :=
  if hasNoRoom place then .error .noPlace
  else
    match files.entryAt? place.dropLast, files.entryAt? place with
    | some .directory, none => if outgrows place journalEnd then .error .noJournal else .ok {}
    | some .directory, some (.file (.tables t)) => .ok t
    | some .directory, some (.file (.text s)) =>
      if s ≠ "" then .error .notDatabase
      else if outgrows place journalEnd then .error .noJournal
      else .ok {}
    | some .directory, some .device => .error .device
    | _, _ => .error .noPlace

/-- The tables in the file at a path. -/
def tables? (files : Files) (path : String) : Except Store.OpenProblem Store.Tables :=
  files.tablesAt (files.storePlace path)

/-- Writes tables into the file at a path. -/
def putTables (files : Files) (path : String) (t : Store.Tables) : Files :=
  if path = nowhere then files else files.put (files.storePlace path) (.file (.tables t))

/-- A fault with its path below a directory. -/
def below (root : String) : FileFault → FileFault
  | .missing p => .missing (root ++ p)
  | .taken p => .taken (root ++ p)
  | .notDirectory p => .notDirectory (root ++ p)
  | .isDirectory p => .isDirectory (root ++ p)
  | .tooLong p => .tooLong (root ++ p)
  | .nul => .nul

/-- Opens the store in the file at a path, which is shown below `root`. The directories that the
file is in are made first. -/
def openStore (files : Files) (root path : String) (marks : Store.Marks) :
    Except Failure Store × Files :=
  let refused (p : Store.OpenProblem) : Except Failure Store :=
    .error (.store (.cannotOpen (root ++ path) p))
  if path = nowhere then (.ok (.openOn {} marks), files)
  else
    match files.makeDirectories (Path.ofText path).parent with
    | .error .nul => (.error (.file .nul), files)
    | .error f => (refused (.directory (below root f)), files)
    | .ok made =>
      if FileTree.hasNul path then (.error (.file .nul), made)
      else
        match Files.tables? made path with
        | .ok t => (.ok (.openOn t marks), Files.putTables made path t)
        | .error .noJournal =>
          (refused .noJournal, FileTree.put made (Files.storePlace made path) (.file (.text "")))
        | .error p => (refused p, made)

end Files

end MailRules.CommandLine
