import MailRules.Failure.Report
import MailRules.Store.Events
import MailRules.Store.Rules
import MailRules.Store.Threads

set_option autoImplicit false

/-!
# The registry

The registry is the store together with the audit trail of what is done to it, and the log.

Audit events are written at once, or put into a queue from which a single worker writes them in
order. Either way a write that fails is reported in the log and goes no further: recording an event
has no outcome, so nothing that is done to the rules can depend on it.
-/

namespace MailRules

/-- The store, the events that are still to be written, and the log so far. -/
structure Registry where
  store : Store
  /-- Whether events wait in the queue to be written. -/
  isDeferred : Bool := false
  queue : List Audit.Note := []
  log : List Log.Entry := []

/-- What comes of an operation, and the registry that is left. -/
abbrev Registry.Outcome (α : Type) := Except Failure α × Registry

namespace Registry

/-- Adds a line to the log. -/
def say (g : Registry) (e : Log.Entry) : Registry :=
  { g with log := g.log ++ [e] }

/-- Adds lines to the log. -/
def sayAll (g : Registry) (es : List Log.Entry) : Registry :=
  { g with log := g.log ++ es }

/-- Does something with the store. -/
def withStore {α : Type} (g : Registry) (work : Store → Store.Outcome α) : Outcome α :=
  match work g.store with
  | (r, s) => (r, { g with store := s })

/-- Does something with the store and takes its answer; `instead` says what a value in place of the
answer comes to. -/
def taking {α : Type} (g : Registry) (instead : Json → Except Failure α)
    (work : Store → Store.Outcome (Store.Answer α)) : Outcome α :=
  match work g.store with
  | (r, s) => (r.bind (·.take instead), { g with store := s })

/-- Does something with the store and takes the items of its answer, each of which is asked for a
member. -/
def takingEach {α : Type} (g : Registry) (member : String)
    (work : Store → Store.Outcome (Store.Answer (List (Store.Answer α)))) : Outcome (List α) :=
  match work g.store with
  | (r, s) => (r.bind (·.takeEach member), { g with store := s })

/-- The code of failures to write an event. -/
def writeCode : String := "E6001"

/-- The report on a note that could not be written. -/
def writeReport (n : Audit.Note) (f : Failure) : Log.Entry :=
  let fault : Raised := ⟨.auditWrite, "Audit write failed: " ++ f.text⟩
  Log.report .warning writeCode "Recording audit event" fault.family.name fault.text
    [("action", .scalar (.str n.kind.name)), ("entity", .scalar (.str n.entity)),
      ("entity_id", .scalar (.str n.entityId))]

/-- Writes an event; a failure is reported. -/
def write (g : Registry) (n : Audit.Note) : Registry :=
  match g.store.insertEvent n with
  | (.ok _, s) => { g with store := s }
  | (.error f, s) => { g with store := s, log := g.log ++ [writeReport n f] }

/-- Takes an event: into the queue, or into the store at once. -/
def submit (g : Registry) (n : Audit.Note) : Registry :=
  if g.isDeferred then { g with queue := g.queue ++ [n] } else g.write n

/-- Writes the first event of a queue and leaves the rest. -/
def workOn (g : Registry) : List Audit.Note → Registry
  | [] => g
  | n :: rest => { g with queue := rest }.write n

/-- What the worker does next: it writes the first event of the queue. -/
def work (g : Registry) : Registry :=
  g.workOn g.queue

/-- Writes all events of a queue. -/
def writeAll (g : Registry) (notes : List Audit.Note) : Registry :=
  notes.foldl write g

/-- Writes all events that wait in the queue. -/
def flush (g : Registry) : Registry :=
  { g with queue := [] }.writeAll g.queue

/-- Writes what waits in the queue and closes the store. -/
def close (g : Registry) : Outcome Unit :=
  g.flush.withStore Store.close

/-- Records an event with details that are known to be in order. -/
def record (g : Registry) (kind : Audit.Kind) (entity entityId : String) (details : Members Json)
    (actor : Option String) : Registry :=
  g.submit {
    actor := Audit.actorOr actor
    kind := kind
    entity := entity
    entityId := entityId
    details := Privacy.Detail.redactMembers (Privacy.Detail.ofMembers details) }

/-- A note with a kind and details as they come from outside. -/
def noteOf? (kind : Json) (entity : String) (entityId : Json) (details : Privacy.Detail)
    (actor : Option String) : Except Failure Audit.Note :=
  match Audit.Kind.named kind with
  | .error f => .error f
  | .ok k =>
    match Privacy.sanitize details with
    | .error f => .error (.details f)
    | .ok es =>
      let note : Audit.Note := {
        actor := Audit.actorOr actor
        kind := k
        entity := entity
        entityId := entityId.plainText
        details := [] }
      match es.named with
      | .ok ms => .ok { note with details := ms }
      | .error f => .ok { note with refusal := some f }

/-- Records an event with a kind and details as they come from outside; what is wrong with them is
reported. -/
def recordAny (g : Registry) (kind : Json) (entity : String) (entityId : Json)
    (details : Privacy.Detail) (actor : Option String) : Registry :=
  match noteOf? kind entity entityId details actor with
  | .ok n => g.submit n
  | .error f =>
    g.say (Log.report .warning writeCode "Dispatching audit event" f.family.name f.text
      [("entity", .scalar (.str entity)), ("entity_id", .ofJson entityId)])

/-- The events of the audit trail, newest first, up to a number of them. -/
def events (g : Registry) (limit : Int) : Outcome (List Audit.Event) :=
  g.flush.taking (Store.partsLacking "to_dict") fun s => s.listEvents limit

end Registry

end MailRules
