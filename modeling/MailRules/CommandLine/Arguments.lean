import MailRules.Members

set_option autoImplicit false

/-!
# Arguments

Arguments are options and words. An option begins with `-`; its value stands after `=` or is the
next argument, whatever that begins with. After `--` all arguments are words. Of an option that is
given twice the last value counts.
-/

namespace MailRules.CommandLine

/-- What is wrong with arguments. -/
inductive UsageFault
  | unknownOption (name : String)
  | valueMissing (name : String)
  | valueUnwanted (name : String)
  | badValue (name value : String)
  | unknownCommand (name : String)
  | missing (name : String)
  | tooMany
  deriving Repr, DecidableEq

/-- The wording of a fault. -/
def UsageFault.message : UsageFault → String
  | unknownOption name => s!"No such option: {name}"
  | valueMissing name => s!"Option '{name}' requires an argument."
  | valueUnwanted name => s!"Option '{name}' does not take a value."
  | badValue name value => s!"Invalid value for '{name}': {value}"
  | unknownCommand name => s!"No such command '{name}'."
  | missing name => s!"Missing '{name}'."
  | tooMany => "Got unexpected extra arguments."

/-- The options that a command knows. -/
structure Grammar where
  /-- Options with a value. -/
  valued : List String
  /-- Options without one. -/
  flags : List String
  /-- Whether options may stand after words. -/
  isMixed : Bool := true
  deriving Repr, DecidableEq

/-- Arguments taken apart. -/
structure Arguments where
  values : Members String := []
  /-- The flags in order. -/
  flags : List String := []
  words : List String := []
  deriving Repr, DecidableEq, Inhabited

namespace Arguments

/-- Whether an argument is an option. -/
def isOption (a : String) : Bool :=
  match a.toList with
  | '-' :: _ :: _ => true
  | _ => false

/-- The name of an option, and the value that stands after `=`. -/
def splitOption (a : String) : String × Option String :=
  let cs := a.toList
  match cs.dropWhile (· ≠ '=') with
  | [] => (a, none)
  | _ :: v => (String.ofList (cs.takeWhile (· ≠ '=')), some (String.ofList v))

/-- Takes arguments apart after `acc`. -/
def scan (g : Grammar) (acc : Arguments) : List String → Except UsageFault Arguments
  | [] => .ok acc
  | a :: rest =>
    if a = "--" then .ok { acc with words := acc.words ++ rest }
    else if isOption a then
      match splitOption a, rest with
      | (name, some v), rest =>
        if g.valued.contains name then scan g { acc with values := acc.values.put name v } rest
        else if g.flags.contains name then .error (.valueUnwanted name)
        else .error (.unknownOption name)
      | (name, none), rest =>
        if g.flags.contains name then scan g { acc with flags := acc.flags ++ [name] } rest
        else if g.valued.contains name then
          match rest with
          | [] => .error (.valueMissing name)
          | v :: rest => scan g { acc with values := acc.values.put name v } rest
        else .error (.unknownOption name)
    else if g.isMixed then scan g { acc with words := acc.words ++ [a] } rest
    else .ok { acc with words := acc.words ++ a :: rest }

/-- Takes arguments apart. -/
def read (g : Grammar) (args : List String) : Except UsageFault Arguments :=
  scan g {} args

/-- The value of an option. -/
def value? (a : Arguments) (name : String) : Option String :=
  a.values.get? name

end Arguments

end MailRules.CommandLine
