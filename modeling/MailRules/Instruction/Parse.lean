import MailRules.Extraction.Assistant
import MailRules.Instruction.Heuristic
import MailRules.Digest.Sha256

set_option autoImplicit false

/-!
# Parsing instructions

An instruction that the heuristic is certain about becomes a rule at once. Any other goes to an
assistant, whose answer has to hold up as a rule record; each time this happens leaves a `Fallback`
for the audit log, which says how it ended.
-/

namespace MailRules.Instruction

open Extraction

/-- How a rule was found. -/
inductive Strategy
  | heuristic
  | assistant
  /-- From the heading of a column. -/
  | column
  deriving Repr, DecidableEq, Inhabited

/-- The name of a strategy in reports. -/
def Strategy.name : Strategy → String
  | heuristic => "heuristic"
  | assistant => "ai"
  | column => "column"

/-- How an appeal to the assistant ended. -/
inductive Outcome
  | unavailable
  | error
  | rejected
  | accepted
  deriving Repr, DecidableEq, Inhabited

/-- The name of an outcome in the audit log. -/
def Outcome.name : Outcome → String
  | unavailable => "unavailable"
  | error => "error"
  | rejected => "rejected"
  | accepted => "accepted"

/-- An appeal to the assistant: the trimmed instruction, and how it ended. -/
structure Fallback where
  text : String
  outcome : Outcome
  deriving Repr, DecidableEq, Inhabited

/-- What the audit log keeps of an instruction: its beginning, with addresses masked first, since a
local part that is cut off no longer looks like an address. -/
def Fallback.excerpt (f : Fallback) : String :=
  Privacy.cut 200 (Privacy.mask f.text)

/-- The identifier of an instruction in the audit log: the beginning of its digest. -/
def Fallback.digest (f : Fallback) : String :=
  Privacy.cut 16 (Digest.sha256 f.text)

/-- Why an instruction gives no rule. -/
inductive ParseFault
  | blank
  | noAssistant
  /-- The assistant gave no answer, for this reason. -/
  | noAnswer (reason : String)
  /-- The assistant's answer is refused. -/
  | refused (f : OutputFault)
  deriving Repr, DecidableEq

namespace ParseFault

/-- The wording of a fault. -/
def message : ParseFault → String
  | blank => "Provide text to parse."
  | noAssistant =>
    "Unable to parse rule: text needs AI-assisted parsing and no extractor is configured."
  | noAnswer reason => "Unable to parse rule: " ++ reason
  | refused (.malformed m) => "AI output is not valid JSON: " ++ m
  | refused (.notObject kind) => "AI output must be a JSON object, got " ++ kind
  | refused (.notRecord r) => "AI output failed schema validation: " ++ r.message
  | refused .emptyPattern => "AI output pattern is empty after normalization"
  | refused (.unreadable f) => f.message ""

/-- The code of a fault. -/
def code : ParseFault → String
  | blank => "E2001"
  | noAssistant => "E2002"
  | noAnswer _ => "E2003"
  | refused _ => "E2004"

end ParseFault

/-- A rule that was found, and how. -/
structure Found where
  draft : Draft
  strategy : Strategy
  deriving Inhabited

/-- Something that parsing does on the side. -/
inductive Effect
  /-- A line for the log. -/
  | log (e : Log.Entry)
  /-- An appeal to the assistant, for the audit log. -/
  | appeal (f : Fallback)
  deriving Repr, DecidableEq, Inhabited

/-- What parsing an instruction comes to. -/
structure Parsing where
  result : Except ParseFault Found
  /-- What was done on the side, in order. -/
  effects : List Effect := []
  asked : Asked := {}
  /-- The assistant that is left. -/
  assistant : Option Assistant

/-- The appeals among things done on the side. -/
def Effect.appeals (effects : List Effect) : List Fallback :=
  effects.filterMap fun e =>
    match e with
    | .appeal f => some f
    | .log _ => none

/-- A line of the log on parsing. -/
def note (level : Log.Level) (message : String) : Log.Entry :=
  ⟨level, "rule_parser", message⟩

/-- Takes an instruction to the assistant. -/
def escalate (assistant : Option Assistant) (text : String) (action : RuleAction) : Parsing :=
  let cleaned := Text.mapText Text.trim text
  match assistant with
  | none =>
    { result := .error .noAssistant
      effects := [.appeal ⟨cleaned, .unavailable⟩]
      assistant := none }
  | some a =>
    let (answer, asked, left) := a.ask cleaned action
    let log := note .info "Heuristics inconclusive, escalating rule text to AI extractor" ::
      asked.exchange.log
    let parsing (result : Except ParseFault Found) (outcome : Option Outcome) : Parsing :=
      { result := result
        effects := log.map .log ++ (outcome.map (fun o => .appeal ⟨cleaned, o⟩)).toList
        asked := asked
        assistant := some left }
    match answer with
    | .error reason => parsing (.error (.noAnswer reason)) (some .error)
    | .ok o =>
      match o.read with
      | .error (.unreadable f) => parsing (.error (.refused (.unreadable f))) none
      | .error f => parsing (.error (.refused f)) (some .rejected)
      | .ok d => parsing (.ok ⟨d, .assistant⟩) (some .accepted)

/-- Parses an instruction. -/
def parse (assistant : Option Assistant) (text : String) (action : RuleAction) : Parsing :=
  if Text.isBlankText text then { result := .error .blank, assistant := assistant }
  else
    match guess text action with
    | .certain d =>
      { result := .ok ⟨d, .heuristic⟩
        effects := [.log (note .debug s!"Heuristic parse produced {d.kind.name} rule")]
        assistant := assistant }
    | .doubtful _ => escalate assistant text action

end MailRules.Instruction
