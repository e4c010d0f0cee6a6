import MailRules.Extraction.Client

set_option autoImplicit false

/-!
# Assistants

An assistant turns an instruction into a model's answer: it replays prepared answers, or asks a
service. Both use up replies, so asking gives the assistant that is left as well.
-/

namespace MailRules.Extraction

/-- A prepared answer of an assistant. -/
inductive Prepared
  | answer (o : Output)
  | failure (r : Raised)
  deriving Inhabited

/-- Something that can be asked for a rule. -/
inductive Assistant
  /-- Gives prepared answers, one a question. -/
  | script (answers : List Prepared)
  /-- Asks a service that has so many replies left. -/
  | service (settings : Settings) (env : Environment) (draw : Nat → Float) (replies : List Reply)

/-- What happened while assistants were asked: the questions, and what services were sent. -/
structure Asked where
  questions : List (String × RuleAction) := []
  exchange : Exchange := {}
  deriving Inhabited

/-- What happened at first and then. -/
def Asked.append (a b : Asked) : Asked :=
  ⟨a.questions ++ b.questions, a.exchange.append b.exchange⟩

/-- Asks for a rule: the answer, or the reason why there is none; what happened; and the assistant
that is left. -/
def Assistant.ask (a : Assistant) (text : String) (action : RuleAction) :
    Except String Output × Asked × Assistant :=
  match a with
  | script answers =>
    let asked : Asked := { questions := [(text, action)] }
    match answers with
    | [] => (.error "script exhausted", asked, script [])
    | .answer o :: rest => (.ok o, asked, script rest)
    | .failure r :: rest => (.error r.text, asked, script rest)
  | service settings env draw replies =>
    let (result, exchange, rest) := Extraction.ask settings env draw replies text action
    let answer := match result with
      | .ok s => .ok (.text s)
      | .error f => .error f.message
    (answer, { exchange := exchange }, service settings env draw rest)

end MailRules.Extraction
