import MailRules.Engine
import MailRules.Proofs.Registry.Batch
import MailRules.Proofs.Store.Willing
import MailRules.Proofs.Text.Blank

set_option autoImplicit false

/-!
# Appeals to the assistant

An instruction goes to the assistant if it is not blank and the heuristic is in doubt
(`Escalates`). The assistant is then asked once, and one event tells how that ended, with one
exception: an answer whose reading breaks off (`BreaksOff`), for a whole number with too many digits
or for nesting that is too deep, is not refused like others. Its failure is no parse failure, and
leaves no event (`parse_answered`).
-/

namespace MailRules

namespace Registry

/-- Events are written at once, and nothing keeps the store from writing them. -/
structure WritesEvents (g : Registry) : Prop where
  sound : g.store.Sound
  direct : g.isDeferred = false
  writes : ∀ n, Store.refusal? n = none → (g.store.insertEvent n).1 = .ok ()

theorem WritesEvents.sayAll {g : Registry} (h : g.WritesEvents) (es : List Log.Entry) :
    (g.sayAll es).WritesEvents :=
  ⟨h.sound, h.direct, h.writes⟩

/-- A note that can be written is the last in the trail. -/
theorem WritesEvents.submit_trail {g : Registry} (h : g.WritesEvents) {n : Audit.Note}
    (hn : Store.refusal? n = none) : (g.submit n).trail = g.trail ++ [n.content] := by
  obtain ⟨-, -, -, ⟨-, htrail⟩ | ⟨⟨f, hlog⟩, -⟩⟩ := write_cases h.sound n
  · rw [submit_now h.direct, htrail]
  · -- a line would report that the event has not been written
    have hwrites := h.writes n hn
    unfold write at hlog
    rcases hinsert : g.store.insertEvent n with ⟨f | u, s⟩
    · rw [hinsert] at hwrites
      cases hwrites
    · rw [hinsert] at hlog
      simp at hlog

/-- The note on an appeal. -/
def appealNote (actor : Option String) (f : Instruction.Fallback) : Audit.Note where
  actor := Audit.actorOr actor
  kind := .parserFallback
  entity := parserEntity
  entityId := f.digest
  details := [("input", .str (Privacy.mask f.excerpt)), ("outcome", .str f.outcome.name)]

theorem recordAppeal_eq (g : Registry) (actor : Option String) (f : Instruction.Fallback) :
    g.recordAppeal actor f = g.submit (appealNote actor f) := by
  have hname : Privacy.mask f.outcome.name = f.outcome.name := by
    cases f.outcome <;> decide +kernel
  unfold recordAppeal record appealNote
  simp only [Privacy.Detail.ofMembers, Privacy.Detail.ofJson, Privacy.Detail.redactMembers,
    Privacy.Detail.redact, Privacy.Detail.redactScalar, hname]

theorem carryOut_logs (g : Registry) (actor : Option String) (es : List Log.Entry) :
    g.carryOut actor (es.map .log) = g.sayAll es := by
  induction es generalizing g with
  | nil => simp [carryOut, sayAll]
  | cons e es ih =>
    have hfirst : g.carryOut actor ((e :: es).map .log) = (g.say e).carryOut actor (es.map .log) :=
      rfl
    rw [hfirst, ih]
    simp [say, sayAll]

/-- Lines leave the trail alone, and an appeal after them is the last event. -/
theorem WritesEvents.carryOut_trail {g : Registry} (h : g.WritesEvents) (actor : Option String)
    (es : List Log.Entry) (f : Option Instruction.Fallback) :
    (g.carryOut actor (es.map .log ++ (f.map .appeal).toList)).trail =
      g.trail ++ (f.map fun f => (appealNote actor f).content).toList := by
  have hsplit : g.carryOut actor (es.map .log ++ (f.map .appeal).toList) =
      (g.sayAll es).carryOut actor (f.map .appeal).toList := by
    rw [carryOut, List.foldl_append]
    exact congrArg (fun g => List.foldl _ g _) (carryOut_logs g actor es)
  rw [hsplit]
  cases f with
  | none => exact (List.append_nil _).symm
  | some f =>
    have hlast : (g.sayAll es).carryOut actor [.appeal f] =
        (g.sayAll es).submit (appealNote actor f) :=
      recordAppeal_eq _ actor f
    exact (congrArg trail hlast).trans ((h.sayAll es).submit_trail rfl)

end Registry

namespace Instruction

open Extraction

/-- An instruction goes to the assistant. -/
def Escalates (text : String) (action : RuleAction) : Prop :=
  Text.isBlankText text = false ∧ (guess text action).needsHelp = true

/-- The instruction as the assistant gets it. -/
def trimmed (text : String) : String :=
  Text.mapText Text.trim text

/-- The assistant answers with a text, and reading it as JSON breaks off. -/
def BreaksOff (assistant : Option Assistant) (text : String) (action : RuleAction) : Prop :=
  ∃ a s f, assistant = some a ∧ (a.ask (trimmed text) action).1 = .ok (.text s) ∧
    Json.read (Output.body s) = .error f ∧ ∀ p n, f ≠ .malformed p n

/-- An appeal ends in a way: there is no assistant, it gives no answer, its answer is refused, or a
rule is found. -/
def Ends (assistant : Option Assistant) (text : String) (action : RuleAction)
    (result : Except Failure Found) : Outcome → Prop
  | .unavailable => assistant = none
  | .error => ∃ a reason, assistant = some a ∧ (a.ask (trimmed text) action).1 = .error reason
  | .rejected => ∃ a o f, assistant = some a ∧ (a.ask (trimmed text) action).1 = .ok o ∧
      o.read = .error f
  | .accepted => ∃ d, result = .ok ⟨d, .assistant⟩

theorem parse_of_not_escalates {text : String} {action : RuleAction}
    (h : ¬Escalates text action) (assistant : Option Assistant) :
    ∃ es : List Log.Entry, (parse assistant text action).effects = es.map .log ∧
      (parse assistant text action).asked = {} ∧
      (parse assistant text action).assistant = assistant ∧
      ((parse assistant text action).result = .error .blank ∨
        ∃ d, (parse assistant text action).result = .ok ⟨d, .heuristic⟩) := by
  unfold parse
  split
  · exact ⟨[], rfl, rfl, rfl, Or.inl rfl⟩
  · next hblank =>
    split
    · next d hd => exact ⟨[_], rfl, rfl, rfl, Or.inr ⟨d, rfl⟩⟩
    · next d hd => exact absurd ⟨by simpa using hblank, by rw [hd]; rfl⟩ h

theorem parse_of_escalates {text : String} {action : RuleAction} (h : Escalates text action)
    (assistant : Option Assistant) :
    parse assistant text action = escalate assistant text action := by
  unfold parse
  rw [if_neg (by simp [h.1])]
  split
  · next d hd =>
    have hhelp := h.2
    rw [hd] at hhelp
    cases hhelp
  · rfl

theorem toDraft_ne_unreadable (v : Json) (f : Json.Fault) :
    Output.toDraft v ≠ .error (.unreadable f) := by
  unfold Output.toDraft
  split
  · split
    · nofun
    · split <;> nofun
  · nofun

/-- Decoding a text breaks off exactly if reading it as JSON fails, but not for its form. -/
theorem decode_unreadable_iff {s : String} {f : Json.Fault} :
    (Output.text s).decode = .error (.unreadable f) ↔
      Json.read (Output.body s) = .error f ∧ ∀ p n, f ≠ .malformed p n := by
  unfold Output.decode
  cases hread : Json.read (Output.body s) with
  | ok v => simp only [hread, reduceCtorEq, false_and]
  | error g =>
    cases g with
    | malformed p n =>
      simp only [hread, Except.error.injEq, reduceCtorEq, false_iff]
      rintro ⟨rfl, hf⟩
      exact hf p n rfl
    | tooManyDigits n =>
      simp only [hread, Except.error.injEq, OutputFault.unreadable.injEq]
      refine ⟨?_, And.left⟩
      rintro rfl
      exact ⟨rfl, nofun⟩
    | tooDeep =>
      simp only [hread, Except.error.injEq, OutputFault.unreadable.injEq]
      refine ⟨?_, And.left⟩
      rintro rfl
      exact ⟨rfl, nofun⟩

/-- Reading an answer breaks off exactly if reading the JSON text in it does. -/
theorem read_unreadable_iff {o : Output} {f : Json.Fault} :
    o.read = .error (.unreadable f) ↔
      ∃ s, o = .text s ∧ Json.read (Output.body s) = .error f ∧ ∀ p n, f ≠ .malformed p n := by
  have hdecode : o.read = .error (.unreadable f) ↔ o.decode = .error (.unreadable f) := by
    unfold Output.read
    cases o.decode with
    | error e => simp only [Except.error.injEq]
    | ok v => exact ⟨fun h => absurd h (toDraft_ne_unreadable v f), nofun⟩
  rw [hdecode]
  cases o with
  | value v => exact ⟨nofun, nofun⟩
  | text s =>
    rw [decode_unreadable_iff]
    refine ⟨fun h => ⟨s, rfl, h⟩, ?_⟩
    rintro ⟨t, ht, h⟩
    cases ht
    exact h

/-- How the appeal ended is told unless the reading of the answer breaks off. -/
def toldOutcome? (answer : Except String Output) : Option Outcome :=
  match answer.map Output.read with
  | .error _ => some .error
  | .ok (.error (.unreadable _)) => none
  | .ok (.error _) => some .rejected
  | .ok (.ok _) => some .accepted

/-- The result of an appeal that is answered. -/
def answeredResult (answer : Except String Output) : Except ParseFault Found :=
  match answer.map Output.read with
  | .error reason => .error (.noAnswer reason)
  | .ok (.error f) => .error (.refused f)
  | .ok (.ok d) => .ok ⟨d, .assistant⟩

/-- The assistant is asked once; lines are logged, and then one appeal at most is told. -/
theorem escalate_some (a : Assistant) (text : String) (action : RuleAction) :
    ∃ es : List Log.Entry,
      escalate (some a) text action = {
        result := answeredResult (a.ask (trimmed text) action).1
        effects := es.map .log ++
          (((toldOutcome? (a.ask (trimmed text) action).1).map (Fallback.mk (trimmed text))).map
            .appeal).toList
        asked := (a.ask (trimmed text) action).2.1
        assistant := some (a.ask (trimmed text) action).2.2 } := by
  refine ⟨note .info "Heuristics inconclusive, escalating rule text to AI extractor" ::
    (a.ask (trimmed text) action).2.1.exchange.log, ?_⟩
  unfold escalate trimmed
  dsimp only
  generalize a.ask (Text.mapText Text.trim text) action = r
  obtain ⟨reason | o, asked, left⟩ := r
  · rfl
  · simp only [toldOutcome?, answeredResult, Except.map]
    cases o.read with
    | error f => cases f <;> rfl
    | ok d => rfl

end Instruction

namespace Engine

open Extraction Instruction

/-- What becomes of an instruction. -/
structure Answered (e e' : Engine) (text : String) (action : RuleAction) (actor : Option String)
    (result : Except Failure Found) : Prop where
  /-- Without an appeal nobody is asked, and there is no event. -/
  unasked : ¬Escalates text action →
    e'.asked = e.asked ∧ e'.assistant = e.assistant ∧ e'.registry.trail = e.registry.trail
  /-- The assistant is asked once, with the trimmed instruction. -/
  askedOnce : Escalates text action → ∀ a, e.assistant = some a →
    e'.asked = e.asked.append (a.ask (trimmed text) action).2.1 ∧
      e'.assistant = some (a.ask (trimmed text) action).2.2
  question : Escalates text action → ∀ answers, e.assistant = some (.script answers) →
    e'.asked.questions = e.asked.questions ++ [(trimmed text, action)]
  /-- One event tells how the appeal ended. -/
  recorded : Escalates text action → ¬BreaksOff e.assistant text action →
    ∃ o, e'.registry.trail =
        e.registry.trail ++ [(Registry.appealNote actor ⟨trimmed text, o⟩).content] ∧
      ∀ o', Ends e.assistant text action result o' ↔ o' = o
  /-- Other failures than those of parsing come from readings that break off. -/
  family : ¬(Escalates text action ∧ BreaksOff e.assistant text action) →
    ∀ f, result = .error f → f.family = .parse
  /-- An answer whose reading breaks off is not told of, and the failure is none of parsing. -/
  brokenOff : Escalates text action → BreaksOff e.assistant text action →
    e'.registry.trail = e.registry.trail ∧
      ∃ f, result = .error f ∧ (f.family = .value ∨ f.family = .recursion)

theorem append_nothing (a : Asked) : a.append {} = a := by
  simp [Asked.append, Exchange.append]

/-- How an appeal ended is not told exactly if the reading of the answer breaks off. -/
theorem toldOutcome?_eq_none {a : Assistant} {text : String} {action : RuleAction} :
    toldOutcome? (a.ask (trimmed text) action).1 = none ↔ BreaksOff (some a) text action := by
  have hbreaks : BreaksOff (some a) text action ↔
      ∃ o f, (a.ask (trimmed text) action).1 = .ok o ∧ o.read = .error (.unreadable f) := by
    constructor
    · rintro ⟨b, s, f, hb, hask, h⟩
      cases hb
      exact ⟨.text s, f, hask, read_unreadable_iff.mpr ⟨s, rfl, h⟩⟩
    · rintro ⟨o, f, hask, h⟩
      obtain ⟨s, rfl, hread, hf⟩ := read_unreadable_iff.mp h
      exact ⟨a, s, f, rfl, hask, hread, hf⟩
  rw [hbreaks]
  unfold toldOutcome?
  cases hanswer : (a.ask (trimmed text) action).1 with
  | error reason => simp [Except.map]
  | ok o =>
    rcases hread : o.read with f | d
    · cases f <;> simp [Except.map, hread]
    · simp [Except.map, hread]

/-- An appeal ends in the way that is told of. -/
theorem ends_iff {a : Assistant} {text : String} {action : RuleAction} {o : Instruction.Outcome}
    (h : toldOutcome? (a.ask (trimmed text) action).1 = some o) (o' : Instruction.Outcome) :
    Ends (some a) text action
        ((answeredResult (a.ask (trimmed text) action).1).mapError .parse) o' ↔ o' = o := by
  unfold toldOutcome? at h
  cases hanswer : (a.ask (trimmed text) action).1 with
  | error reason =>
    rw [hanswer] at h
    cases h
    cases o' <;> simp [Ends, answeredResult, hanswer, Except.map, Except.mapError]
  | ok out =>
    rw [hanswer] at h
    rcases hread : out.read with f | d
    · have ho : o = .rejected := by
        cases f <;> simp_all [Except.map]
      rw [ho]
      cases o' <;> simp [Ends, answeredResult, hanswer, Except.map, Except.mapError, hread]
    · simp only [Except.map, hread] at h
      cases h
      cases o' <;> simp [Ends, answeredResult, hanswer, Except.map, Except.mapError, hread]

/-- The failure of an appeal is one of parsing unless the reading of the answer breaks off. -/
theorem answeredResult_family {a : Assistant} {text : String} {action : RuleAction} {f : Failure}
    (h : (answeredResult (a.ask (trimmed text) action).1).mapError .parse = .error f) :
    (f.family = .parse ∧ ¬BreaksOff (some a) text action) ∨
      (f.family = .value ∨ f.family = .recursion) ∧ BreaksOff (some a) text action := by
  rw [← toldOutcome?_eq_none]
  unfold answeredResult at h
  unfold toldOutcome?
  cases hanswer : (a.ask (trimmed text) action).1 with
  | error reason =>
    rw [hanswer] at h
    cases h
    simp [Except.map, Failure.family]
  | ok o =>
    rw [hanswer] at h
    rcases hread : o.read with g | d
    · simp only [Except.map, hread, Except.mapError] at h ⊢
      cases h
      cases g with
      | unreadable j => cases j <;> simp [Failure.family]
      | malformed m => simp [Failure.family]
      | notObject kind => simp [Failure.family]
      | notRecord r => simp [Failure.family]
      | emptyPattern => simp [Failure.family]
    · simp only [Except.map, hread, Except.mapError] at h
      cases h

/-- An instruction that does not go to the assistant. -/
theorem answered_of_not_escalates {e : Engine} (he : e.registry.WritesEvents) {text : String}
    {action : RuleAction} (h : ¬Escalates text action) (actor : Option String) :
    Answered e (e.conclude actor (Instruction.parse e.assistant text action)).2 text action actor
      (e.conclude actor (Instruction.parse e.assistant text action)).1 := by
  obtain ⟨es, heffects, hasked, hleft, hresult⟩ := parse_of_not_escalates h e.assistant
  have htrail := he.carryOut_trail actor es none
  have hfamily : ∀ f, (e.conclude actor (Instruction.parse e.assistant text action)).1 = .error f →
      f.family = .parse := by
    intro f hf
    rcases hresult with hblank | ⟨d, hfound⟩
    · simp only [conclude, hblank, Except.mapError] at hf
      cases hf
      rfl
    · simp only [conclude, hfound, Except.mapError] at hf
      cases hf
  refine ⟨fun _ => ⟨?_, hleft, ?_⟩, fun hyes => absurd hyes h, fun hyes => absurd hyes h,
    fun hyes => absurd hyes h, fun _ => hfamily, fun hyes => absurd hyes h⟩
  · exact (congrArg e.asked.append hasked).trans (append_nothing e.asked)
  · simpa [conclude, after, heffects] using htrail

/-- An instruction for which there is no assistant. -/
theorem answered_of_unavailable {e : Engine} (he : e.registry.WritesEvents) {text : String}
    {action : RuleAction} (h : Escalates text action) (hnone : e.assistant = none)
    (actor : Option String) :
    Answered e (e.conclude actor (escalate none text action)).2 text action actor
      (e.conclude actor (escalate none text action)).1 := by
  have htrail := he.carryOut_trail actor [] (some ⟨trimmed text, .unavailable⟩)
  refine ⟨fun hno => absurd h hno, fun _ a ha => ?_, fun _ answers ha => ?_, fun _ _ => ?_,
    fun _ f hf => ?_, fun _ ⟨a, s, f, ha, _⟩ => ?_⟩
  · rw [hnone] at ha
    cases ha
  · rw [hnone] at ha
    cases ha
  · refine ⟨.unavailable, htrail, fun o' => ?_⟩
    cases o' <;> simp [Ends, conclude, escalate, hnone, Except.mapError]
  · cases hf
    rfl
  · rw [hnone] at ha
    cases ha

/-- An instruction that the assistant is asked about. -/
theorem answered_of_asked {e : Engine} (he : e.registry.WritesEvents) {text : String}
    {action : RuleAction} (h : Escalates text action) {a : Assistant}
    (hsome : e.assistant = some a) (actor : Option String) :
    Answered e (e.conclude actor (escalate (some a) text action)).2 text action actor
      (e.conclude actor (escalate (some a) text action)).1 := by
  obtain ⟨es, hescalate⟩ := escalate_some a text action
  have hnone : toldOutcome? (a.ask (trimmed text) action).1 = none ↔
      BreaksOff (some a) text action :=
    toldOutcome?_eq_none
  have htrail : ∀ told, toldOutcome? (a.ask (trimmed text) action).1 = told →
      (e.conclude actor (escalate (some a) text action)).2.registry.trail =
        e.registry.trail ++ ((told.map (Fallback.mk (trimmed text))).map
          fun f => (Registry.appealNote actor f).content).toList := by
    rintro _ rfl
    rw [hescalate]
    exact he.carryOut_trail actor es _
  rw [hescalate] at htrail ⊢
  refine ⟨fun hno => absurd h hno, fun _ b hb => ?_, fun _ answers hanswers => ?_,
    fun _ hreads => ?_, fun hreads f hf => ?_, fun _ hbreaks => ?_⟩
  · rw [hsome] at hb
    cases hb
    exact ⟨rfl, rfl⟩
  · rw [hsome] at hanswers
    cases hanswers
    cases answers with
    | nil => rfl
    | cons p rest => cases p <;> rfl
  · rw [hsome, ← hnone] at hreads
    obtain ⟨o, ho⟩ := Option.ne_none_iff_exists'.mp hreads
    refine ⟨o, htrail _ ho, fun o' => ?_⟩
    rw [hsome]
    exact ends_iff ho o'
  · rw [hsome] at hreads
    rcases answeredResult_family hf with ⟨hfamily, -⟩ | ⟨-, hbreaks⟩
    · exact hfamily
    · exact absurd ⟨h, hbreaks⟩ hreads
  · rw [hsome] at hbreaks
    refine ⟨(htrail _ (hnone.mpr hbreaks)).trans (List.append_nil _), ?_⟩
    obtain ⟨b, s, f, hb, hask, hread, hf⟩ := hbreaks
    cases hb
    have hbroken : (Output.text s).read = .error (.unreadable f) :=
      read_unreadable_iff.mpr ⟨s, rfl, hread, hf⟩
    have hresult : (answeredResult (a.ask (trimmed text) action).1).mapError Failure.parse =
        .error (.parse (.refused (.unreadable f))) := by
      simp only [answeredResult, hask, Except.map, hbroken, Except.mapError]
    exact ⟨_, hresult, by cases f <;> simp [Failure.family]⟩

/-- Every instruction is answered as `Answered` says, in a registry that writes events. -/
theorem parse_answered {e : Engine} (he : e.registry.WritesEvents) {value : Json}
    {action : RuleAction} (haction : RuleAction.namedOr e.settings.defaultAction value = .ok action)
    (text actor : Option String) :
    Answered e (e.parse text value actor).2 (text.getD "") action actor
      (e.parse text value actor).1 := by
  have hparse : e.parse text value actor =
      e.conclude actor (Instruction.parse e.assistant (text.getD "") action) := by
    unfold parse
    rw [haction]
  rw [hparse]
  by_cases hescalates : Escalates (text.getD "") action
  · rw [parse_of_escalates hescalates]
    cases hassistant : e.assistant with
    | none => exact answered_of_unavailable he hescalates hassistant actor
    | some a => exact answered_of_asked he hescalates hassistant actor
  · exact answered_of_not_escalates he hescalates actor

/-! ## Two instructions for the assistant -/

/-- An engine without rows whose assistant gives one answer. -/
def answering (answer : String) : Engine where
  settings := {}
  registry := Registry.unused
  assistant := some (.script [.answer (.text answer)])

/-- An instruction that says whose mail is meant, but not where from. -/
def vague : String := "newsletters about sales"

theorem vague_escalates : Escalates vague .vip := by
  unfold Escalates vague
  decide +kernel

theorem unused_writesEvents : Registry.unused.WritesEvents := by
  have hreach : Registry.Reachable Registry.unused := .start Registry.someMarks false
  refine ⟨hreach.sound, rfl, fun n hn => ?_⟩
  have hwilling : Registry.unused.store.Willing := ⟨rfl, rfl, fun op _ => Store.calm_nil op⟩
  obtain ⟨hwritten, -⟩ :=
    Store.insertEvent_calm hwilling.receptive (Store.calm_nil _) rfl (by decide) hn
  exact hwritten.mpr (by decide)

/-- An answer that is no JSON is refused, and told of. -/
theorem parse_answered_refused :
    ¬BreaksOff (answering "none").assistant vague .vip ∧
      Answered (answering "none") ((answering "none").parse (some vague) .null none).2 vague .vip
        none ((answering "none").parse (some vague) .null none).1 := by
  have hwrites : (answering "none").registry.WritesEvents := unused_writesEvents
  refine ⟨?_, parse_answered hwrites rfl (some vague) none⟩
  have htold : toldOutcome? ((Assistant.script [.answer (.text "none")]).ask (trimmed vague)
      .vip).1 = some .rejected := by decide +kernel
  intro hbreaks
  rw [toldOutcome?_eq_none.mpr hbreaks] at htold
  cases htold

/-- A text of ones. -/
def ones (n : Nat) : String :=
  String.ofList (List.replicate n '1')

theorem takeDigits_ones (n : Nat) :
    Json.takeDigits (List.replicate n '1') = (List.replicate n '1', []) := by
  have hdigit : Char.isDigit '1' = true := by decide
  simp only [Json.takeDigits, List.takeWhile_replicate, List.dropWhile_replicate, hdigit, if_true]

/-- A whole number with too many digits is not read. -/
theorem read_ones {n : Nat} (h : Decimal.digitLimit < n) :
    Json.read (ones n) = .error (.tooManyDigits n) := by
  obtain ⟨m, rfl⟩ : ∃ m, n = m + 1 := ⟨n - 1, by omega⟩
  have hdigits := takeDigits_ones (m + 1)
  have hscalar : Json.readScalar (List.replicate (m + 1) '1') = .error (.tooManyDigits (m + 1)) := by
    rw [List.replicate_succ] at hdigits ⊢
    have hnumber : Json.readNumber ('1' :: List.replicate m '1') false
        ('1' :: List.replicate m '1') = .error (.tooManyDigits (m + 1)) := by
      simp [Json.readNumber, hdigits, Json.takeFraction, Json.takeExponent, h]
    exact hnumber
  have hvalue : Json.readValue Json.depthLimit (List.replicate (m + 1) '1') =
      .error (.tooManyDigits (m + 1)) := by
    rw [← hscalar, List.replicate_succ]
    rfl
  have hspaces : Json.skipSpaces (List.replicate (m + 1) '1') = List.replicate (m + 1) '1' := by
    rw [List.replicate_succ]
    rfl
  unfold Json.read Json.readAll ones
  rw [String.toList_ofList, hspaces, hvalue]
  rfl

/-- There is nothing around a text of ones to be taken off. -/
theorem body_ones (n : Nat) : Output.body (ones n) = ones n := by
  have htrim : Text.trim (List.replicate n '1') = List.replicate n '1' := by
    have hones : ∀ c ∈ List.replicate n '1', Text.isBlank c = false := by
      intro c hc
      rw [List.eq_of_mem_replicate hc]
      decide
    have hpad : Text.trim ([] ++ List.replicate n '1' ++ []) = List.replicate n '1' :=
      Text.trim_pad (by simp) hones (by simp)
    simpa using hpad
  have hfence : Output.withoutFence (List.replicate n '1') = List.replicate n '1' := by
    unfold Output.withoutFence
    cases n with
    | zero => rfl
    | succ n => rfl
  unfold Output.body Text.mapText ones
  simp only [String.toList_ofList, htrim, hfence]

/-- An answer of too many ones is not told of, and the failure is none of parsing. -/
theorem parse_ones {n : Nat} (h : Decimal.digitLimit < n) :
    ((answering (ones n)).parse (some vague) .null none).2.registry.trail = [] ∧
      ((answering (ones n)).parse (some vague) .null none).1 =
        .error (.parse (.refused (.unreadable (.tooManyDigits n)))) := by
  have hread : Json.read (Output.body (ones n)) = .error (.tooManyDigits n) := by
    rw [body_ones, read_ones h]
  have hbreaks : BreaksOff (answering (ones n)).assistant vague .vip :=
    ⟨_, ones n, .tooManyDigits n, rfl, rfl, hread, nofun⟩
  have hanswered := answered_of_asked (e := answering (ones n)) unused_writesEvents
    vague_escalates rfl none
  have hparse : (answering (ones n)).parse (some vague) .null none =
      (answering (ones n)).conclude none
        (escalate (some (.script [.answer (.text (ones n))])) vague .vip) := by
    rw [← parse_of_escalates vague_escalates]
    rfl
  rw [hparse]
  refine ⟨(hanswered.brokenOff vague_escalates hbreaks).1, ?_⟩
  obtain ⟨es, hescalate⟩ := escalate_some (.script [.answer (.text (ones n))]) vague .vip
  have hbroken : (Output.text (ones n)).read = .error (.unreadable (.tooManyDigits n)) :=
    read_unreadable_iff.mpr ⟨_, rfl, hread, nofun⟩
  rw [hescalate]
  simp only [conclude, answeredResult, Assistant.ask, Except.map, hbroken, Except.mapError]

/-- The failure at a whole number of 5000 digits leaves no event, and is none of parsing. -/
theorem long_number_untold :
    Escalates vague .vip ∧
      ((answering (ones 5000)).parse (some vague) .null none).2.registry.trail = [] ∧
      ∃ f, ((answering (ones 5000)).parse (some vague) .null none).1 = .error f ∧
        f.family = .value := by
  obtain ⟨htrail, hresult⟩ := parse_ones (n := 5000) (by decide)
  exact ⟨vague_escalates, htrail, _, hresult, rfl⟩

end Engine

end MailRules
