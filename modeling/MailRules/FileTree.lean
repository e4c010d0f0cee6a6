import MailRules.Failure.Family
import MailRules.Members
import MailRules.Text.Segment

set_option autoImplicit false

/-!
# Files and directories

A tree of directories and files, as far as it is known, and the paths that lead through it. A path
starts at the root or at the current directory; full stops and doubled slashes in it mean nothing,
but two full stops lead one directory up from wherever the path has come to. So a path leads nowhere
when a name before its last one is not that of a directory, even if two full stops follow.

A file holds a value of some type `α`; a device can be read as an empty file.
-/

namespace MailRules

/-- A path and its parts. -/
structure Path where
  isAbsolute : Bool
  parts : List String
  deriving Repr, DecidableEq, Inhabited

namespace Path

/-- The path that a text spells. -/
def ofText (s : String) : Path :=
  ⟨s.toList.head? = some '/',
    ((Text.segments '/' s.toList).filter (fun p => !p.isEmpty && p ≠ ['.'])).map String.ofList⟩

/-- The text of a path. -/
def text (p : Path) : String :=
  let body := String.intercalate "/" p.parts
  if p.isAbsolute then "/" ++ body else if p.parts.isEmpty then "." else body

/-- The directory that a path is in. -/
def parent (p : Path) : Path :=
  { p with parts := p.parts.dropLast }

/-- The path without steps upward, each taken together with the name before it. -/
def collapsed (p : Path) : List String :=
  p.parts.foldl (fun acc n => if n = ".." then acc.dropLast else acc ++ [n]) []

end Path

/-- Why a file or directory cannot be had. -/
inductive FileFault
  | missing (path : String)
  | taken (path : String)
  | notDirectory (path : String)
  | isDirectory (path : String)
  /-- A path that is too long, or a name in it. -/
  | tooLong (path : String)
  /-- A path with a character that ends paths elsewhere. -/
  | nul
  deriving Repr, DecidableEq

namespace FileFault

/-- The wording of a fault. -/
def message : FileFault → String
  | missing path => "[Errno 2] No such file or directory: " ++ Text.quoted path
  | taken path => "[Errno 17] File exists: " ++ Text.quoted path
  | notDirectory path => "[Errno 20] Not a directory: " ++ Text.quoted path
  | isDirectory path => "[Errno 21] Is a directory: " ++ Text.quoted path
  | tooLong path => "[Errno 36] File name too long: " ++ Text.quoted path
  | nul => "embedded null byte"

/-- The family of a fault. -/
def family : FileFault → Family
  | missing _ => .fileMissing
  | taken _ => .fileExists
  | notDirectory _ => .notDirectory
  | isDirectory _ => .isDirectory
  | tooLong _ => .system
  | nul => .value

end FileFault

/-- What a name in a directory stands for. -/
inductive FileEntry (α : Type)
  | directory
  | file (content : α)
  | device
  deriving Inhabited

/-- The names of directories from the root to a place, and the name there. -/
abbrev Place := List String

/-- Directories and files. -/
structure FileTree (α : Type) where
  /-- The current directory. -/
  home : Place
  /-- What is at a place, by the text of the path from the root. -/
  entries : Members (FileEntry α)
  deriving Inhabited

namespace FileTree

variable {α : Type}

/-- The text of the path from the root to a place. -/
def placeText (p : Place) : String :=
  (Path.mk true p).text

/-- What is at a place; the root is a directory. -/
def entryAt? (t : FileTree α) (p : Place) : Option (FileEntry α) :=
  if p.isEmpty then some .directory else t.entries.get? (placeText p)

/-- The tree with something else at a place. -/
def put (t : FileTree α) (p : Place) (e : FileEntry α) : FileTree α :=
  { t with entries := t.entries.put (placeText p) e }

/-- A tree in which there is nothing but the current directory, the directories that it is in, and
the empty device. -/
def fresh (home : Place) : FileTree α :=
  let above := (List.range home.length).foldl
    (fun (t : FileTree α) n => t.put (home.take (n + 1)) .directory) ⟨home, []⟩
  (above.put ["dev"] .directory).put ["dev", "null"] .device

/-- Why a path leads nowhere. -/
inductive WalkFault
  | missing
  | notDirectory
  | tooLong
  deriving Repr, DecidableEq

/-- The fault of a path with this text that leads nowhere. -/
def WalkFault.fault (path : String) : WalkFault → FileFault
  | missing => .missing path
  | notDirectory => .notDirectory path
  | tooLong => .tooLong path

/-- How many bytes a name has at most. -/
def nameLimit : Nat := 255

/-- How many bytes the text of a path has at most. -/
def pathLimit : Nat := 4095

/-- The place that a name leads to from a directory. -/
def step (here : Place) (name : String) : Place :=
  if name = ".." then here.dropLast else if name = "." then here else here ++ [name]

/-- The place that names lead to from another; every place before the last one is a directory. A
name that is too long is noticed when it is looked up. -/
def walk (t : FileTree α) (here : Place) : List String → Except WalkFault Place
  | [] => .ok here
  | n :: rest =>
    match t.entryAt? here with
    | none => .error .missing
    | some .directory =>
      if nameLimit < n.utf8ByteSize then .error .tooLong else walk t (step here n) rest
    | some _ => .error .notDirectory

/-- The place that a path leads to. -/
def locate (t : FileTree α) (p : Path) : Except WalkFault Place :=
  if pathLimit < p.text.utf8ByteSize then .error .tooLong
  else t.walk (if p.isAbsolute then [] else t.home) p.parts

/-- The place that a path spells: a step upward takes back the name before it, whatever is there. -/
def spelledPlace (t : FileTree α) (p : Path) : Place :=
  (Path.mk true (if p.isAbsolute then p.parts else t.home ++ p.parts)).collapsed

/-- What a path leads to. -/
def find? (t : FileTree α) (p : Path) : Option (FileEntry α) :=
  match t.locate p with
  | .ok place => t.entryAt? place
  | .error _ => none

/-- Whether a path leads to a directory. -/
def isDirectory (t : FileTree α) (p : Path) : Bool :=
  match t.find? p with
  | some .directory => true
  | _ => false

/-- What the file at the end of a path holds. -/
def content? (t : FileTree α) (p : Path) : Option α :=
  match t.find? p with
  | some (.file c) => some c
  | _ => none

/-- Whether a text has a character that ends paths elsewhere. -/
def hasNul (s : String) : Bool :=
  s.toList.contains '\x00'

/-- What the file at the end of a path holds, if there is one. That a path leads nowhere is no
fault, but that it is too long is one. -/
def ask (t : FileTree α) (p : Path) : Except FileFault (Option α) :=
  if hasNul p.text then .ok none
  else
    match t.locate p with
    | .error .tooLong => .error (.tooLong p.text)
    | _ => .ok (t.content? p)

/-- The parts of a text as a path that names what is there: every full stop, and a slash at the end,
asks for a directory. -/
def literalPath (s : String) : Path :=
  let names := ((Text.segments '/' s.toList).filter (!·.isEmpty)).map String.ofList
  ⟨s.toList.head? = some '/', names ++ if s.toList.getLast? = some '/' then ["."] else []⟩

/-! ## Changes -/

/-- The place that a path leads to, or what is said of one that leads nowhere. -/
def reach (t : FileTree α) (p : Path) : Except FileFault Place :=
  if hasNul p.text then .error .nul
  else
    (t.locate p).mapError (·.fault p.text)

/-- Makes a directory in one that exists. -/
def makeOne (t : FileTree α) (p : Path) : Except FileFault (FileTree α) := do
  let place ← t.reach p
  match t.entryAt? place with
  | some _ => throw (.taken p.text)
  | none => return t.put place .directory

/-- Makes the directory of so many first parts of a path unless it is there, and those that it is
in. -/
def makeFirst (t : FileTree α) (p : Path) : (count : Nat) → Except FileFault (FileTree α)
  | 0 => .ok t
  | count + 1 =>
    let here : Path := { p with parts := p.parts.take (count + 1) }
    let unlessThere (t : FileTree α) (f : FileFault) : Except FileFault (FileTree α) :=
      if t.isDirectory here then .ok t else .error f
    match t.makeOne here with
    | .ok t => .ok t
    | .error (.missing _) =>
      match makeFirst t p count with
      | .error f => .error f
      | .ok t =>
        match t.makeOne here with
        | .ok t => .ok t
        | .error f => unlessThere t f
    | .error f => unlessThere t f

/-- Makes a directory unless it is there, and those that it is in. -/
def makeDirectories (t : FileTree α) (p : Path) : Except FileFault (FileTree α) :=
  t.makeFirst p p.parts.length

/-- Opens a file to add to it, by its path from the root; a new one holds `empty`. -/
def openFile (t : FileTree α) (p : Path) (empty : α) : Except FileFault (FileTree α) := do
  let full : Path := ⟨true, t.spelledPlace p⟩
  let place ← t.reach full
  match t.entryAt? place with
  | some .directory => throw (.isDirectory full.text)
  | some _ => return t
  | none => return t.put place (.file empty)

/-- The names of the directories in the current one, sorted. -/
def directories (t : FileTree α) : List String :=
  let names := t.entries.filterMap fun e =>
    match e.2 with
    | .directory =>
      let parts := (Path.ofText e.1).parts
      if parts.dropLast = t.home && parts ≠ t.home then parts.getLast? else none
    | _ => none
  names.mergeSort (fun a b => a ≤ b)

end FileTree

end MailRules
