import MailRules.Proofs.Engine.Appeal
import MailRules.Proofs.Registry.Deferral
import MailRules.Proofs.Store.Issued

set_option autoImplicit false

/-!
# Events that are written later

Calls create and delete rules and read instructions, and so record events. An engine whose events
wait in a queue, from which the worker takes them whenever it likes, replies as one that writes
events at once does, and once the queue is written both show the same events and the same rules
(`callsAmid_refines`). It is only assumed that nothing keeps rules and events from being written:
looking for rules, deleting and listing them may go wrong.

The rows of the two do not have the same ranks, since rules and events get them from one count. So
the two runs are related by what the ranks have in common (`Engine.Awaits`), call by call
(`Call.tracks`), and then over all calls (`callsAmid_tracks`).
-/

namespace MailRules

namespace Registry

theorem carryOutScript_deferrable {α : Type} (actor : Option String)
    (effects : List Instruction.Effect) (r : Except Failure α) :
    (carryOutScript actor effects r).Deferrable := by
  refine .each (.done r) fun change hchange => ?_
  obtain ⟨e, -, rfl⟩ := List.mem_map.mp hchange
  cases e with
  | log line => exact sayAll_deferrable [line]
  | appeal f =>
    simp only [carryOutOne, recordAppeal_eq]
    exact submit_deferrable rfl

end Registry

namespace Engine

/-! ## Calls -/

/-- A call that may record events. -/
inductive Call
  | create (record : Json) (actor : Option String)
  | createBatch (records : Json) (actor reason : Option String)
  | delete (id : String) (actor : Option String)
  | parse (text : Option String) (action : Json) (actor : Option String)

/-- What is given back for a call. -/
inductive Reply
  | rule (r : Rule)
  | rules (rs : List Rule)
  | nothing
  | found (f : Instruction.Found)

/-- An outcome as a reply. -/
def replying {α : Type} (f : α → Reply) (o : Outcome α) : Outcome Reply :=
  (o.1.map f, o.2)

/-- What parsing an instruction comes to, if it is known what the rule is to do. -/
def reading (e : Engine) (text : Option String) (action : Json) :
    Except Failure Instruction.Parsing :=
  (RuleAction.namedOr e.settings.defaultAction action).map
    (Instruction.parse e.assistant (text.getD ""))

namespace Call

/-- Makes a call. -/
def run (e : Engine) : Call → Outcome Reply
  | create record actor => replying .rule (e.createRule record actor)
  | createBatch records actor reason =>
    replying .rules (e.withRegistry fun g => g.createBatch records actor reason)
  | delete id actor => replying (fun _ => .nothing) (e.deleteRule id actor)
  | parse text action actor => replying .found (e.parse text action actor)

/-- What a call does to the registry, step by step. -/
def script (e : Engine) : Call → Registry.Script Reply
  | create record actor => (Registry.createScript record actor).map .rule
  | createBatch records actor reason =>
    (Registry.createBatchScript records actor reason).map .rules
  | delete id actor => (Registry.deleteScript id actor).map fun _ => .nothing
  | parse text action actor =>
    match e.reading text action with
    | .error f => .done (.error f)
    | .ok p =>
      (Registry.carryOutScript actor p.effects (p.result.mapError .parse)).map .found

/-- The engine that a call leaves, with its registry. -/
def left (e : Engine) (g : Registry) : Call → Engine
  | parse text action _ =>
    match e.reading text action with
    | .error _ => { e with registry := g }
    | .ok p =>
      { e with
        registry := g
        asked := e.asked.append p.asked
        assistant := p.assistant }
  | _ => { e with registry := g }

/-- Makes a call, before each step of which, and after which, the worker takes as many steps as the
next of the numbers says. -/
def amid (e : Engine) (c : Call) (pauses : List Nat) : Outcome Reply :=
  let o := (c.script e).amid pauses e.registry
  (o.1, c.left e o.2)

end Call

/-- Calls that are made one after the other: the replies, and the engine that is left. -/
def calls (e : Engine) : List Call → List (Except Failure Reply) × Engine
  | [] => ([], e)
  | c :: cs =>
    let o := c.run e
    let rest := o.2.calls cs
    (o.1 :: rest.1, rest.2)

/-- Calls that are made one after the other while the worker takes its steps. -/
def callsAmid (e : Engine) : List (Call × List Nat) → List (Except Failure Reply) × Engine
  | [] => ([], e)
  | (c, pauses) :: cs =>
    let o := c.amid e pauses
    let rest := o.2.callsAmid cs
    (o.1 :: rest.1, rest.2)

/-- The engine whose events wait, or are written at once. -/
def deferring (e : Engine) (isDeferred : Bool) : Engine :=
  { e with registry := { e.registry with isDeferred := isDeferred } }

/-! ## One call -/

/-- A call does what its script says. -/
theorem Call.run_eq (c : Call) (e : Engine) :
    c.run e =
      (((c.script e).alone e.registry).1, c.left e ((c.script e).alone e.registry).2) := by
  cases c with
  | create record actor =>
    simp only [script, Registry.Script.alone_map, Registry.createScript_alone]
    rfl
  | createBatch records actor reason =>
    simp only [script, Registry.Script.alone_map, Registry.createBatchScript_alone]
    rfl
  | delete id actor =>
    simp only [script, Registry.Script.alone_map, Registry.deleteScript_alone]
    rfl
  | parse text action actor =>
    simp only [run, script, left, Engine.parse, reading]
    rcases RuleAction.namedOr e.settings.defaultAction action with f | a
    · rfl
    · simp only [Except.map, Registry.Script.alone_map, Registry.carryOutScript_alone]
      rfl

theorem Call.script_deferrable (c : Call) (e : Engine) : (c.script e).Deferrable := by
  cases c with
  | create record actor => exact (Registry.createScript_deferrable record actor).map _
  | createBatch records actor reason =>
    exact (Registry.createBatchScript_deferrable records actor reason).map _
  | delete id actor => exact (Registry.deleteScript_deferrable id actor).map _
  | parse text action actor =>
    simp only [script]
    rcases e.reading text action with f | p
    · exact .done _
    · exact (Registry.carryOutScript_deferrable actor p.effects _).map _

@[simp]
theorem Call.left_registry (c : Call) (e : Engine) (g : Registry) : (c.left e g).registry = g := by
  cases c with
  | parse text action actor =>
    simp only [left]
    rcases e.reading text action with f | p <;> rfl
  | _ => rfl

/-- Two engines that differ in their registries only, of which the second is what the first
awaits. -/
structure Awaits (e e' : Engine) : Prop where
  registry : Registry.Awaits e.registry e'.registry
  same : { e with registry := e'.registry } = e'

variable {e e' : Engine}

theorem Awaits.script (h : Awaits e e') (c : Call) : c.script e = c.script e' := by
  rw [← h.same]
  cases c <;> rfl

theorem Awaits.left (h : Awaits e e') (c : Call) {g g' : Registry} (hg : Registry.Awaits g g') :
    Awaits (c.left e g) (c.left e' g') := by
  rw [← h.same]
  refine ⟨by simpa using hg, ?_⟩
  cases c with
  | parse text action actor =>
    simp only [Call.left, reading]
    rcases RuleAction.namedOr e.settings.defaultAction action with f | a <;> rfl
  | _ => rfl

/-- Wherever the worker takes its steps, a call gets the reply that it gets when events are written
at once. -/
theorem Call.tracks (c : Call) (h : Awaits e e') (pauses : List Nat) :
    (c.amid e pauses).2.registry.Overdrawn ∨
      (c.amid e pauses).1 = (c.run e').1 ∧ Awaits (c.amid e pauses).2 (c.run e').2 := by
  rw [c.run_eq e']
  rcases (c.script_deferrable e).tracks h.registry pauses with hover | ⟨hreply, hawaits⟩
  · refine Or.inl ?_
    simpa [amid] using hover
  · rw [h.script c] at hreply hawaits
    refine Or.inr ⟨?_, ?_⟩
    · rw [amid, h.script c]
      exact hreply
    · rw [amid, h.script c]
      exact h.left c hawaits

theorem Call.amid_overdrawn (c : Call) (h : e.registry.Overdrawn) (pauses : List Nat) :
    (c.amid e pauses).2.registry.Overdrawn := by
  simpa [amid] using (c.script_deferrable e).overdrawn h pauses

/-! ## All calls -/

theorem callsAmid_overdrawn (h : e.registry.Overdrawn) (timed : List (Call × List Nat)) :
    (e.callsAmid timed).2.registry.Overdrawn := by
  induction timed generalizing e with
  | nil => exact h
  | cons p timed ih => exact ih (p.1.amid_overdrawn h p.2)

theorem callsAmid_tracks (h : Awaits e e') (timed : List (Call × List Nat)) :
    (e.callsAmid timed).2.registry.Overdrawn ∨
      (e.callsAmid timed).1 = (e'.calls (timed.map Prod.fst)).1 ∧
        Awaits (e.callsAmid timed).2 (e'.calls (timed.map Prod.fst)).2 := by
  induction timed generalizing e e' with
  | nil => exact Or.inr ⟨rfl, h⟩
  | cons p timed ih =>
    obtain ⟨c, pauses⟩ := p
    rcases c.tracks h pauses with hover | ⟨hreply, hawaits⟩
    · -- later calls make no ranks, so there are too few of them in the end as well
      exact Or.inl (callsAmid_overdrawn hover timed)
    · rcases ih hawaits with hover | ⟨hreplies, hrest⟩
      · exact Or.inl hover
      · refine Or.inr ⟨?_, hrest⟩
        exact List.cons_eq_cons.mpr ⟨hreply, hreplies⟩

/-- What comes of calls when events wait, against what comes of them when they do not. -/
structure Refines (o p : List (Except Failure Reply) × Engine) : Prop where
  replies : o.1 = p.1
  /-- No event is lost, doubled or moved: the first ones have been written, and the others wait. -/
  waiting : o.2.registry.trail ++ o.2.registry.queue.map Audit.Note.content = p.2.registry.trail
  flushed : o.2.flush.registry.ShowsAs p.2.flush.registry
  closing : o.2.close.1 = p.2.close.1
  /-- After closing, the same can be seen when the store is opened again. -/
  closed : o.2.close.2.registry.reopened.ShowsAs p.2.close.2.registry.reopened

/-- Writing events later refines writing them at once, wherever the worker takes its steps. -/
theorem callsAmid_refines {e : Engine} (hsturdy : e.registry.store.Sturdy)
    (hidle : e.registry.queue = []) (timed : List (Call × List Nat))
    (hranks : ¬((e.deferring true).callsAmid timed).2.flush.registry.store.IsSpent) :
    Refines ((e.deferring true).callsAmid timed)
      ((e.deferring false).calls (timed.map Prod.fst)) := by
  have hlasts : ¬((e.deferring true).callsAmid timed).2.registry.Overdrawn :=
    fun hover => hranks hover.flush
  rcases hsturdy.awaits with hover | hstore
  · -- not even what is there at first has ranks
    have hstart : (e.deferring true).registry.Overdrawn :=
      ⟨⟨hsturdy, rfl, by simp [deferring, hidle]⟩, by simpa [deferring, hidle] using hover⟩
    exact absurd (callsAmid_overdrawn hstart timed) hlasts
  · have hstart : Awaits (e.deferring true) (e.deferring false) :=
      ⟨⟨by simpa [deferring, hidle] using hstore, rfl, rfl, hidle⟩, rfl⟩
    obtain ⟨hreplies, hend⟩ := (callsAmid_tracks hstart timed).resolve_left hlasts
    exact {
      replies := hreplies
      waiting := hend.registry.trail
      flushed := hend.registry.level.showsAs
      closing := hend.registry.close.1
      closed := hend.registry.close.2 }

/-- An engine without rows whose assistant answers with no JSON, and whose first deletion fails. -/
def stumbling : Engine where
  settings := {}
  registry := {
    store := {
      marks := Store.strokeMarks
      disturbances := [⟨.deleteRule, .nth 1, .failure ⟨.database, "disk I/O error"⟩, 0⟩] } }
  assistant := some (.script [.answer (.text "none")])

theorem stumbling_sturdy : stumbling.registry.store.Sturdy := by
  have hreach : Registry.Reachable stumbling.registry :=
    (Registry.Reachable.start Store.strokeMarks false).step
      (.disturb .deleteRule (.nth 1) ⟨.database, "disk I/O error"⟩)
  refine ⟨hreach.sound, ⟨rfl, rfl, ?_⟩, ?_⟩
  · simp [Store.ruleWriting, Store.Calm, stumbling]
  · simp [Store.Calm, stumbling]

/-- Rules are created one by one and as a batch, the assistant is asked, and a rule is deleted the
second time. The worker lags behind, so that the event on the first rule is written after those on
the batch have been submitted. -/
def laggingCalls : List (Call × List Nat) :=
  [(.create Registry.someRecord none, []),
    (.createBatch (.array [Registry.otherRecord, Registry.someRecord]) none none, [0, 0, 0, 1]),
    (.parse (some vague) .null none, [1]),
    (.delete "|" none, [0, 1]),
    (.delete "|" none, [])]

/-- The ranks of the events that have been written, as quotients. -/
def eventRanks (e : Engine) : List (Int × Nat) :=
  e.registry.store.tables.events.map fun row => row.rank.quotient

/-- Two events still wait after these calls, and once all are written they have other ranks than
those that are written at once. -/
theorem callsAmid_refines_lagging :
    ((stumbling.deferring true).callsAmid laggingCalls).2.registry.trail.length = 3 ∧
      ((stumbling.deferring true).callsAmid laggingCalls).2.registry.queue.length = 2 ∧
      ((stumbling.deferring true).callsAmid laggingCalls).2.flush.eventRanks ≠
        ((stumbling.deferring false).calls (laggingCalls.map Prod.fst)).2.eventRanks ∧
      Refines ((stumbling.deferring true).callsAmid laggingCalls)
        ((stumbling.deferring false).calls (laggingCalls.map Prod.fst)) :=
  ⟨by decide +kernel, by decide +kernel, by decide +kernel,
    callsAmid_refines stumbling_sturdy rfl laggingCalls (by decide +kernel)⟩

end Engine

end MailRules
