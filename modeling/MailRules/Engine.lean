import MailRules.Registry.Rules
import MailRules.Registry.Sweep
import MailRules.Sheet.Preview

set_option autoImplicit false

/-!
# The engine

The engine is the registry together with the settings and the assistant. It reads instructions and
sheets with the assistant's help, and records each appeal to the assistant in the audit trail.
-/

namespace MailRules

/-- The rule engine. -/
structure Engine where
  settings : Settings
  registry : Registry
  assistant : Option Extraction.Assistant := none
  /-- What the assistant has been asked so far. -/
  asked : Extraction.Asked := {}

/-- What comes of an operation, and the engine that is left. -/
abbrev Engine.Outcome (α : Type) := Except Failure α × Engine

namespace Registry

/-- The entity that events on appeals name. -/
def parserEntity : String := "rule_parser"

/-- Records an appeal to the assistant. -/
def recordAppeal (g : Registry) (actor : Option String) (f : Instruction.Fallback) : Registry :=
  g.record .parserFallback parserEntity f.digest
    [("input", .str f.excerpt), ("outcome", .str f.outcome.name)] actor

/-- Does one thing that parsing does on the side. -/
def carryOutOne (g : Registry) (actor : Option String) : Instruction.Effect → Registry
  | .log line => g.say line
  | .appeal f => g.recordAppeal actor f

/-- Does what parsing does on the side. -/
def carryOut (g : Registry) (actor : Option String) (effects : List Instruction.Effect) :
    Registry :=
  effects.foldl (fun g e => g.carryOutOne actor e) g

end Registry

namespace Engine

/-- The engine on a store; a service is asked only if the settings say so. -/
def start (settings : Settings) (store : Store) (assistant : Option Extraction.Assistant) :
    Engine where
  settings := settings
  registry := { store := store, isDeferred := settings.asyncAudit }
  assistant := assistant

/-- Does something with the registry. -/
def withRegistry {α : Type} (e : Engine) (work : Registry → Registry.Outcome α) : Outcome α :=
  match work e.registry with
  | (r, g) => (r, { e with registry := g })

/-- Takes in what parsing came to. -/
def after (e : Engine) (actor : Option String) (effects : List Instruction.Effect)
    (asked : Extraction.Asked) (assistant : Option Extraction.Assistant) : Engine :=
  { e with
    registry := e.registry.carryOut actor effects
    asked := e.asked.append asked
    assistant := assistant }

/-- Takes in what parsing came to, and gives its result. -/
def conclude (e : Engine) (actor : Option String) (p : Instruction.Parsing) :
    Outcome Instruction.Found :=
  (p.result.mapError .parse, e.after actor p.effects p.asked p.assistant)

/-- Reads an instruction. -/
def parse (e : Engine) (text : Option String) (action : Json) (actor : Option String) :
    Outcome Instruction.Found :=
  match RuleAction.namedOr e.settings.defaultAction action with
  | .error f => (.error f, e)
  | .ok a => e.conclude actor (Instruction.parse e.assistant (text.getD "") a)

/-- Takes an instruction straight to the assistant. -/
def appeal (e : Engine) (text : Option String) (action : Json) (actor : Option String) :
    Outcome Instruction.Found :=
  match RuleAction.namedOr e.settings.defaultAction action, text with
  | .error f, _ => (.error f, e)
  | .ok _, none => (.error (.noMember Json.null.kindName "strip"), e)
  | .ok a, some t => e.conclude actor (Instruction.escalate e.assistant t a)

/-- The preview of a sheet. -/
def analyze (e : Engine) (text : String) (action : Json) : Outcome Sheet.Preview :=
  match RuleAction.namedOr e.settings.defaultAction action with
  | .error f => (.error f, e)
  | .ok a =>
    match Sheet.analyze e.assistant a text with
    | .error f => (.error (.sheet f), e)
    | .ok analysis =>
      (analysis.result.mapError .parse,
        e.after none analysis.effects analysis.asked analysis.assistant)

/-- Who imports when nobody is named. -/
def importActor : String := "csv-import"

/-- The reason that events on imported rules give. -/
def importReason : String := "bulk-import"

/-- Creates rules from a batch of records and gives their number. -/
def importRules (e : Engine) (records : Json) (actor : Option String) : Outcome Nat :=
  e.withRegistry fun g =>
    let actor := (actor.filter (· ≠ "")).getD importActor
    match g.createBatch records (some actor) (some importReason) with
    | (.ok rs, g) => (.ok rs.length, g)
    | (.error f, g) => (.error f, g)

/-- Creates a rule from a record. -/
def createRule (e : Engine) (record : Json) (actor : Option String) : Outcome Rule :=
  e.withRegistry fun g => g.create record actor

/-- Deletes the rule with an identifier. -/
def deleteRule (e : Engine) (id : String) (actor : Option String) : Outcome Unit :=
  e.withRegistry fun g => g.delete id actor

/-- The rules, newest first. -/
def listRules (e : Engine) : Outcome (List Rule) :=
  e.withRegistry fun g => g.list none

/-- Sweeps with the stored rules. -/
def sweep (e : Engine) : Outcome Tally :=
  e.withRegistry fun g => Sweep.run g none

/-- The events of the audit trail, newest first: as many as are asked for, or as the settings say
when no number or zero is given. -/
def events (e : Engine) (limit : Option Int) : Outcome (List Audit.Event) :=
  let limit := (limit.filter (· ≠ 0)).getD e.settings.listLimit
  e.withRegistry fun g => g.events limit

/-- Writes what waits to be written. -/
def flush (e : Engine) : Engine :=
  { e with registry := e.registry.flush }

/-- Writes what waits to be written and closes the store. -/
def close (e : Engine) : Outcome Unit :=
  e.withRegistry Registry.close

end Engine

/-- A rule that was found, as JSON. -/
def Instruction.Found.toJson (f : Instruction.Found) : Json :=
  .object [("rule", f.draft.toJson), ("strategy", .str f.strategy.name)]

end MailRules
