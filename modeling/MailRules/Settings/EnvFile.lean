import MailRules.Members
import MailRules.Text.Blank
import MailRules.Text.Lower
import MailRules.Text.Segment

set_option autoImplicit false

/-!
# Files of environment variables

A file of lines `NAME=value`. A name may be quoted and follow the word `export`; a value may be in
single or double quotes and then run over several lines, and otherwise ends before a comment. A line
that does not fit is passed over. In values, `${NAME}` and `${NAME:-default}` stand for variables.

Variables that are set already keep their values, here and where a value refers to them. Not every
text can be a name or a value; one that cannot stops the loading, and what was set before it stays.
-/

namespace MailRules

/-- Environment variables. -/
abbrev Environment := Members String

namespace EnvFile

open Text

/-- A line of a file: a name, and a value unless it has none. -/
structure Entry where
  name : String
  value : Option (List Char)
  deriving Repr, DecidableEq

/-- A blank that does not end a line. -/
def isInner (c : Char) : Bool :=
  isBlank c && c ≠ '\r' && c ≠ '\n'

/-- A character that ends a line. -/
def isEnd (c : Char) : Bool :=
  c = '\r' || c = '\n'

/-- A text after the blanks at its start that do not end a line. -/
def skipInner (s : List Char) : List Char :=
  s.dropWhile isInner

/-- A text after the line end at its start, or nothing if something else is there. -/
def afterLineEnd? (s : List Char) : Option (List Char) :=
  match skipInner s with
  | [] => some []
  | '\r' :: '\n' :: r => some r
  | c :: r => if isEnd c then some r else none

/-- A text after the rest of its first line. -/
def afterLine (s : List Char) : List Char :=
  match s.dropWhile (fun c => !isEnd c) with
  | [] => []
  | _ :: r => r

/-- A text after a comment at its start, if there is one. -/
def skipComment (s : List Char) : List Char :=
  match skipInner s with
  | '#' :: r => r.dropWhile (fun c => !isEnd c)
  | _ => s

/-- The single quote. -/
def single : Char := Char.ofNat 39

/-- A quoted value after its opening quote, and the text after it. A backslash takes the next
character with it, so that a quote after one does not end the value. -/
def quotedValue? (quote : Char) : List Char → Option (List Char × List Char)
  | [] => none
  | '\\' :: c :: r => (quotedValue? quote r).map fun p => ('\\' :: c :: p.1, p.2)
  | c :: r =>
    if c = quote then some ([], r)
    else if c = '\\' then none
    else (quotedValue? quote r).map fun p => (c :: p.1, p.2)

/-- The character that a backslash and a letter stand for in double quotes. -/
def doubleEscape? (c : Char) : Option Char :=
  [('\\', '\\'), (single, single), ('"', '"'), ('a', '\x07'), ('b', '\x08'), ('f', '\x0c'),
    ('n', '\n'), ('r', '\r'), ('t', '\t'), ('v', '\x0b')].lookup c

/-- The character that a backslash and a letter stand for in single quotes. -/
def singleEscape? (c : Char) : Option Char :=
  if c = '\\' || c = single then some c else none

/-- A text with its escapes replaced. -/
def unescape (escape? : Char → Option Char) : List Char → List Char
  | [] => []
  | [c] => [c]
  | c :: d :: r =>
    if c = '\\' then
      match escape? d with
      | some e => e :: unescape escape? r
      | none => c :: unescape escape? (d :: r)
    else c :: unescape escape? (d :: r)

/-- A text up to the first blanks that a number sign follows. -/
def beforeComment : List Char → List Char
  | [] => []
  | c :: r =>
    if isBlank c && (r.dropWhile isBlank).head? = some '#' then [] else c :: beforeComment r

/-- The value at the start of a text, and the text after it. -/
def valueAt? (s : List Char) : Option (List Char × List Char) :=
  match s with
  | [] => some ([], [])
  | c :: r =>
    if c = single then
      (quotedValue? single r).map (fun p => (unescape singleEscape? p.1, p.2))
    else if c = '"' then
      (quotedValue? '"' r).map (fun p => (unescape doubleEscape? p.1, p.2))
    else if isEnd c then some ([], s)
    else
      let line := s.takeWhile (fun c => !isEnd c)
      some (stripEnd isBlank (beforeComment line), s.dropWhile (fun c => !isEnd c))

/-- The value after an equality sign, and the text after it. A comment after blanks leaves the value
empty. -/
def value? (s : List Char) : Option (List Char × List Char) :=
  let t := skipInner s
  if t.head? = some '#' && t.length < s.length then some ([], skipComment t) else valueAt? t

/-- A text after the word `export` and a blank at its start. -/
def skipExport (s : List Char) : List Char :=
  if "export".toList.isPrefixOf s && (s.drop 6).head?.any isInner then skipInner (s.drop 6) else s

/-- The name at the start of a text, nothing before a comment, and the text after it. -/
def name? (s : List Char) : Option (Option String × List Char) :=
  match s with
  | '#' :: _ => some (none, s)
  | c :: r =>
    if c = single then
      let n := r.takeWhile (· ≠ single)
      match r.dropWhile (· ≠ single) with
      | _ :: t => if n.isEmpty then none else some (some (String.ofList n), t)
      | [] => none
    else
      let isKey (d : Char) : Bool := d ≠ '=' && d ≠ '#' && !isBlank d
      let n := s.takeWhile isKey
      if n.isEmpty then none else some (some (String.ofList n), s.dropWhile isKey)
  | [] => none

/-- The entry at the start of a text that begins with no blank, if its line fits, and the text after
it. What does not fit is passed over from there to the end of the line. -/
def entry (s : List Char) : Option Entry × List Char :=
  let s := skipExport s
  match name? s with
  | none => (none, afterLine s)
  | some (name, r) =>
    let r := skipInner r
    let value := match r with
      | '=' :: t => (value? t).map fun p => (some p.1, p.2)
      | _ => some (none, r)
    match value with
    | none => (none, afterLine r)
    | some (value, r) =>
      let r := skipComment r
      match afterLineEnd? r with
      | none => (none, afterLine r)
      | some t => (name.map (⟨·, value⟩), t)

/-- The entries of a file, `fuel` lines at most. -/
def entries : (fuel : Nat) → List Char → List Entry
  | 0, _ => []
  | fuel + 1, s =>
    match s.dropWhile isBlank with
    | [] => []
    | t =>
      let (e, r) := entry t
      e.toList ++ entries fuel r

/-- The variable at the start of a text that follows `${`: its name, its default, and the text after
the closing brace. -/
def reference? (s : List Char) : Option (List Char × List Char × List Char) :=
  let isName (c : Char) : Bool := c ≠ '\x7d' && c ≠ ':'
  let name := s.takeWhile isName
  match s.dropWhile isName with
  | '\x7d' :: r => some (name, [], r)
  | ':' :: '-' :: r =>
    match r.dropWhile (· ≠ '\x7d') with
    | _ :: t => some (name, r.takeWhile (· ≠ '\x7d'), t)
    | [] => none
  | _ => none

/-- A value with the variables in it replaced, `fuel` characters at most. -/
def expand (lookup : String → Option String) : (fuel : Nat) → List Char → List Char
  | 0, _ => []
  | _, [] => []
  | fuel + 1, '$' :: '\x7b' :: r =>
    match reference? r with
    | some (name, fallback, t) =>
      ((lookup (String.ofList name)).map String.toList).getD fallback ++ expand lookup fuel t
    | none => '$' :: expand lookup fuel ('\x7b' :: r)
  | fuel + 1, c :: r => c :: expand lookup fuel r

/-- The values of the entries in order, each with the variables set before it or in the
environment. -/
def resolve (env : Environment) (acc : Members (Option String)) :
    List Entry → Members (Option String)
  | [] => acc
  | e :: es =>
    let lookup (n : String) : Option String :=
      match env.get? n with
      | some v => some v
      | none => (acc.get? n).map (·.getD "")
    let v := e.value.map fun cs => String.ofList (expand lookup (cs.length + 1) cs)
    resolve env (acc.put e.name v) es

/-- Why a variable cannot be set. -/
inductive SettingFault
  /-- The name or the value has a character that ends texts elsewhere. -/
  | nul
  /-- The name has an equality sign in it. -/
  | name
  deriving Repr, DecidableEq

/-- The wording of a fault. -/
def SettingFault.message : SettingFault → String
  | nul => "embedded null byte"
  | name => "illegal environment variable name"

/-- What is wrong with a variable. -/
def settingFault? (name value : String) : Option SettingFault :=
  if name.toList.contains '\x00' || value.toList.contains '\x00' then some .nul
  else if name.toList.contains '=' then some .name
  else none

/-- The environment with further variables that are not set in it, up to the first that cannot be
set. -/
def setAll (env : Environment) : Members (Option String) → Environment × Option SettingFault
  | [] => (env, none)
  | (_, none) :: r => setAll env r
  | (name, some v) :: r =>
    if env.has name then setAll env r
    else
      match settingFault? name v with
      | some f => (env, some f)
      | none => setAll (env.put name v) r

/-- Whether a variable says that no file is to be loaded. Its words are compared without regard to
case; the long s counts as an s. -/
def isDisabled (env : Environment) : Bool :=
  let folded (v : String) : String :=
    Text.mapText (fun cs => (Text.lower cs).map fun c => if c = 'ſ' then 's' else c) v
  match env.get? "PYTHON_DOTENV_DISABLED" with
  | some v => ["1", "true", "t", "yes", "y"].contains (folded v)
  | none => false

/-- The environment with the variables of a file that are not set in it, and the fault that stopped
the loading, if any. -/
def load (text : String) (env : Environment) : Environment × Option SettingFault :=
  if isDisabled env then (env, none)
  else
    let cs := Text.unifyLineEnds text.toList
    let s := if cs.head? = some '\ufeff' then cs.tail else cs
    setAll env (resolve env [] (entries (s.length + 1) s))

example : quotedValue? '"' "a\\\\\" b".toList = some ("a\\\\".toList, " b".toList) := by
  decide +kernel

end EnvFile

end MailRules
