import MailRules.Failure.Family
import MailRules.Log.Context
import MailRules.Log.Entry
import MailRules.Log.Moment
import MailRules.Log.Template

set_option autoImplicit false

/-!
# Lines of the log

A record is an entry with the time, the context and the failure that go with it. It is written in
one of two styles.

* **Plain.** The time, the level in eight columns, the context and the component in brackets, and
  the message; a failure follows on a line of its own. Fields that are not set show as `N/A`.
* **JSON.** One object, on one line whatever the texts in it are: line breaks in a string are
  escaped. Fields that are not set, or are set to `N/A`, are left out.

A file takes the records that are at or above its level, one after the other; a record whose
message cannot be filled in, or of which another part cannot be shown, is left out.
-/

namespace MailRules.Log

/-- What stands for a field that is not set. -/
def unset : String := "N/A"

/-- Something that is to be logged. -/
structure Record where
  level : Level
  /-- The part of the program that says it, a text as a rule; null if it is known to be none. -/
  component : Json
  template : String
  args : List Json := []
  /-- Seconds since the start of 1970. -/
  created : Number := .whole 0
  context : Context := {}
  failure : Option Raised := none
  deriving Inhabited

/-- How lines are written. -/
inductive Style
  | plain
  | json
  deriving Repr, DecidableEq, Inhabited

namespace Record

/-- The message with its arguments in place. -/
def message? (r : Record) : Option String :=
  fillMessage r.template r.args

/-- The failure as a line shows it: the full name of its family, and its text unless that is
empty. -/
def failureText (f : Raised) : String :=
  if f.text = "" then f.family.fullName else f.family.fullName ++ ": " ++ f.text

/-- Text in eight columns. -/
def inEight (s : String) : String :=
  s ++ String.ofList (List.replicate (8 - s.length) ' ')

/-- A text with a line end after it unless it has one. -/
def endLine (s : String) : String :=
  if s.toList.getLast? = some '\n' then s else s ++ "\n"

/-- A record as a plain line; the failure stands on lines of its own. -/
def plain? (r : Record) : Option String :=
  r.message?.bind fun message =>
    ((Moment.second? r.created).bind fun seconds => Moment.showPlain? ⟨seconds, 0⟩).bind fun time =>
      let level := inEight r.level.name
      let correlation := r.context.correlation.getD (.str unset)
      let actor := r.context.actor.getD (.str unset)
      if Json.areWritable [correlation, actor, r.component] then
        let fields := [correlation, actor, r.component].map fun v => "[" ++ v.plainText ++ "]"
        let line := String.intercalate " " ([time, level] ++ fields ++ [message])
        match r.failure with
        | some f => some (endLine line ++ failureText f)
        | none => some line
      else none

/-- The fields of the context that a JSON line shows. -/
def shownFields (c : Context) : Members Json :=
  c.fields.filter fun f => f.2.text? ≠ some unset

/-- The object that stands for a record with this message, written at this time. -/
def object (r : Record) (time message : String) : Json :=
  .object ([("timestamp", .str time), ("level", .str r.level.name),
    ("component", r.component), ("message", .str message)] ++ shownFields r.context ++
    (r.failure.map fun f => ("exception", .str (failureText f))).toList)

/-- A record as a JSON line. -/
def json? (r : Record) : Option String :=
  (Moment.ofNumber? r.created).bind fun moment =>
    moment.showPrecise?.bind fun time =>
      r.message?.bind fun message =>
        let object := r.object time message
        if object.isWritable then some (object.render Json.inline) else none

/-- A record in a style. -/
def write? (style : Style) (r : Record) : Option String :=
  match style with
  | .plain => r.plain?
  | .json => r.json?

end Record

/-- The text that a file holds after records were written to it, of which it takes those that reach
a rank. -/
def transcript (style : Style) (threshold : Nat) (records : List Record) : String :=
  String.join <| (records.filter (fun r => threshold ≤ r.level.rank)).filterMap fun r =>
    (r.write? style).map (· ++ "\n")

/-- The component that the name of a source ends in. -/
def componentOf (source : String) : String :=
  String.ofList (source.toList.reverse.takeWhile (· ≠ '.')).reverse

end MailRules.Log
