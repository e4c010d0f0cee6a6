import MailRules.Failure.Basic

set_option autoImplicit false

/-!
# Requests to the service

A request names an action and an instruction. The key of the service is looked up first, so that a
set-up without one fails before anything else is looked at.
-/

namespace MailRules.Extraction

/-- Asks the service for a rule with the action that a value names. -/
def request (settings : Settings) (env : Environment) (draw : Nat → Float) (replies : List Reply)
    (text : Option String) (action : Json) : Except Failure String × Exchange × List Reply :=
  match settings.key env, RuleAction.named action, text with
  | .error f, _, _ => (.error (.config f), {}, replies)
  | .ok _, .error f, _ => (.error f, {}, replies)
  | .ok _, .ok _, none => (.error (.noMember Json.null.kindName "strip"), {}, replies)
  | .ok _, .ok a, some t =>
    let (answer, exchange, left) := ask settings env draw replies t a
    (answer.mapError .service, exchange, left)

end MailRules.Extraction
