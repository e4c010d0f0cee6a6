import MailRules.Decimal.Rounded
import MailRules.Extraction.Output
import MailRules.Failure.Family
import MailRules.Json.Access
import MailRules.Json.Encoded
import MailRules.Privacy.Mask
import MailRules.Settings.Load

set_option autoImplicit false

/-!
# Asking a language model

A request for a rule is one call of a chat service. A call that fails in a way that may pass is
repeated, up to the number of attempts in the settings; before each repetition there is a wait that
doubles from one to the next (`Wait`), drawn out by up to a quarter at random.

The service is a list of replies, one a call; calling it when no reply is left fails like a broken
connection. `Exchange` records everything that happens: calls, waits and log lines in order.
-/

namespace MailRules.Extraction

/-- What comes of a call. -/
inductive Reply
  /-- A response with a status and a body. -/
  | response (status : Int) (body : String)
  /-- No response. -/
  | failure (r : Raised)
  deriving Inhabited

/-- A call of the service. -/
structure Call where
  url : String
  payload : Json
  headers : List (String × String)
  timeout : Nat
  deriving Inhabited

/-- A wait before a repetition: so many seconds, drawn out by a quarter of the draw. -/
structure Wait where
  base : Nat
  draw : Float
  deriving Inhabited

/-- The seconds of a wait, unless they are too many for a float. -/
def Wait.seconds? (w : Wait) : Option Float :=
  (Decimal.floatOfInt? w.base).map fun x => x + x * 0.25 * w.draw

/-- What happened while the service was asked. -/
structure Exchange where
  calls : List Call := []
  waits : List Wait := []
  log : List Log.Entry := []
  deriving Inhabited

/-- What happened in one exchange and then in another. -/
def Exchange.append (a b : Exchange) : Exchange :=
  ⟨a.calls ++ b.calls, a.waits ++ b.waits, a.log ++ b.log⟩

/-- Why the service gives no answer. -/
inductive ClientFault
  /-- The key of the service is not set. -/
  | config (f : ConfigFault)
  /-- All attempts failed; the reason of the last one. -/
  | exhausted (attempts : Nat) (last : String)
  /-- A failure that is not repeated. -/
  | raised (r : Raised)
  deriving Repr, DecidableEq

/-- The wording of the instructions to the model. -/
def instructions (action : RuleAction) : String :=
  "You convert natural language VIP/suppression instructions into strict JSON.\n" ++
  "- Only respond with a single JSON object.\n" ++
  "- \"type\" must be one of: EMAIL, DOMAIN, TOPIC.\n" ++
  "- \"pattern\" should be normalized (emails lower-case, domains without leading @).\n" ++
  "- \"action\" must be VIP or SUPPRESS. Use " ++ action.name ++
  " when the instruction does not say.\n" ++
  "- If the instruction includes an exception phrase (\"unless\"), capture it in " ++
  "\"unless_contains\" as lowercase text.\n" ++
  "- Provide short \"notes\" when helpful.\n" ++
  "- \"confidence\" should be a float between 0 and 1 reflecting parsing certainty.\n" ++
  "- If unsure, set type to TOPIC, pattern to the core phrase, and confidence <= 0.4."

/-- The payload of a call. -/
def payload (s : ModelSettings) (text : String) (action : RuleAction) : Json :=
  .object [
    ("model", .str s.model),
    ("messages", .array [
      .object [("role", .str "system"), ("content", .str (instructions action))],
      .object [("role", .str "user"), ("content", .str (Text.mapText Text.trim text))]]),
    ("temperature", .float s.temperature),
    ("response_format", .object [("type", .str "json_object")])]

/-- The address of the service: that of the settings without slashes at its end, and a path. -/
def endpoint (s : ModelSettings) : String :=
  Text.mapText (Text.stripEnd (· = '/')) s.url ++ "/chat/completions"

/-- The call for a payload. -/
def callOf (s : ModelSettings) (key : String) (body : Json) : Call :=
  ⟨endpoint s, body,
    [("Authorization", "Bearer " ++ key), ("Content-Type", "application/json")], s.timeout⟩

/-- How an attempt ends. -/
inductive Attempt
  | content (s : String)
  /-- A failure that may pass, with its reason. -/
  | passing (reason : String)
  | fatal (r : Raised)
  deriving Inhabited

/-- The first message in a decoded response. -/
def messageContent (v : Json) : Except Json.AccessFault Json := do
  let choices ← v.under "choices"
  let choice ← choices.first
  let message ← choice.under "message"
  message.under "content"

/-- What content that is no text runs into when it is logged. -/
def contentFault (v : Json) : String :=
  match v with
  | .object _ => "unhashable type: 'slice'"
  | .array _ => "expected string or bytes-like object, got 'list'"
  | v => (Json.AccessFault.noParts v.kindName).message

/-- What the decoded body of a response amounts to. -/
def readContent (v : Json) : Attempt :=
  match messageContent v with
  | .error f => .passing ("Unexpected API response shape: " ++ f.message)
  | .ok c =>
    if !c.isTruthy then .passing "Empty response content from LLM"
    else
      match c with
      | .str s => .content s
      | v => .fatal ⟨.type, contentFault v⟩

/-- What a failure without a response amounts to. -/
def readFailure (r : Raised) : Attempt :=
  if r.family = .http then .passing "HTTP unknown error from rule extraction API"
  else if r.family.isRequest then .passing ("Network error during API request: " ++ r.text)
  else if r.family = .value then .passing ("Invalid JSON in API response: " ++ r.text)
  else if r.family = .model then .passing r.message
  else .fatal r

/-- What a reply amounts to. -/
def readReply : Reply → Attempt
  | .failure r => readFailure r
  | .response status body =>
    if 400 ≤ status && status < 600 then
      .passing ("HTTP " ++ Json.showInt status ++ " error from rule extraction API")
    else
      let text := Json.decoded body
      match Json.read text with
      | .ok v => readContent v
      | .error .tooDeep => .fatal ⟨.recursion, ""⟩
      | .error (.tooManyDigits n) =>
        .passing ("Invalid JSON in API response: " ++ (Json.Fault.tooManyDigits n).message text)
      | .error f => .passing ("Network error during API request: " ++ f.message text)

/-- What comes of a call when no reply is left. -/
def noReply : Reply :=
  .failure ⟨.connection, "script exhausted"⟩

/-- A line of the log on requests. -/
def note (level : Log.Level) (message : String) : Log.Entry :=
  ⟨level, "llm_client", message⟩

/-- How much of an answer is logged. -/
def loggedLength : Nat := 200

/-- How the service is asked: the call that is made, how often at most, and the waits. -/
structure Plan where
  call : Call
  model : String
  attempts : Nat
  delay : Nat
  /-- What is drawn before each repetition. -/
  draw : Nat → Float

/-- The lines that are logged when an attempt begins. -/
def Plan.opening (p : Plan) (attempt : Nat) : List Log.Entry :=
  [note .info s!"Rule extraction API call attempt {attempt}/{p.attempts}",
    note .debug s!"Making API request to {p.call.url} (model={p.model})"]

/-- The wait after an attempt. -/
def Plan.wait (p : Plan) (attempt : Nat) : Wait :=
  ⟨p.delay * Nat.pow 2 (attempt - 1), p.draw attempt⟩

/-- Makes the attempts from `attempt` on, `left` of them at most. -/
def Plan.run (p : Plan) (attempt : Nat) :
    (left : Nat) → List Reply → Except ClientFault String × Exchange × List Reply
  | 0, replies => (.error (.exhausted p.attempts ""), {}, replies)
  | left + 1, replies =>
    let start : Exchange := { calls := [p.call], log := p.opening attempt }
    match readReply (replies.headD noReply) with
    | .content s =>
      let shown := Privacy.mask (Privacy.cut loggedLength s)
      (.ok s, { start with log := start.log ++
        [note .debug ("Raw rule extraction response: " ++ shown)] }, replies.tail)
    | .fatal r => (.error (.raised r), start, replies.tail)
    | .passing reason =>
      let failed := { start with log := start.log ++
        [note .warning s!"Attempt {attempt} failed: {reason}"] }
      match left with
      | 0 => (.error (.exhausted p.attempts reason), failed, replies.tail)
      | _ + 1 =>
        let w := p.wait attempt
        match w.seconds? with
        | none => (.error (.raised ⟨.overflow, "int too large to convert to float"⟩), failed,
            replies.tail)
        | some x =>
          let shown := Decimal.showHundredths x
          let waited : Exchange :=
            { waits := [w], log := [note .info s!"Retrying in {shown} seconds..."] }
          let (result, rest, replies) := Plan.run p (attempt + 1) left replies.tail
          (result, (failed.append waited).append rest, replies)

/-- How the service is asked for a rule with a key. -/
def planOf (s : ModelSettings) (key : String) (draw : Nat → Float) (text : String)
    (action : RuleAction) : Plan :=
  ⟨callOf s key (payload s text action), s.model, s.attempts, s.delay, draw⟩

/-- Asks the service for a rule: the model's answer, what happened, and the replies that are
left. -/
def ask (settings : Settings) (env : Environment) (draw : Nat → Float) (replies : List Reply)
    (text : String) (action : RuleAction) :
    Except ClientFault String × Exchange × List Reply :=
  match settings.key env with
  | .error e => (.error (.config e), {}, replies)
  | .ok key =>
    -- the first line of the log already shows how many attempts there are
    if !Decimal.isShowable settings.model.attempts then
      (.error (.raised ⟨.value, Decimal.tooLongToShow⟩), {}, replies)
    else (planOf settings.model key draw text action).run 1 settings.model.attempts replies

theorem ask_eq_run {settings : Settings} {env : Environment} {key : String}
    (hkey : settings.key env = .ok key)
    (hshowable : Decimal.isShowable settings.model.attempts = true) (draw : Nat → Float)
    (replies : List Reply) (text : String) (action : RuleAction) :
    ask settings env draw replies text action =
      (planOf settings.model key draw text action).run 1 settings.model.attempts replies := by
  simp only [ask, hkey, hshowable, Bool.not_true, Bool.false_eq_true, if_false]

namespace ClientFault

/-- The wording of a failure. -/
def message : ClientFault → String
  | config f => f.message
  | exhausted attempts last => s!"Failed after {attempts} attempts. Last error: {last}"
  | raised r => r.text

end ClientFault

end MailRules.Extraction
