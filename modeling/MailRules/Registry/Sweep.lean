import MailRules.Registry.Basic
import MailRules.Thread.Verdict

set_option autoImplicit false

/-!
# The sweep

A sweep applies the rules that suppress to all tasks and deletes those that they match. Each task is
dealt with by a worker of its own: what fails for one does not stop the others. Only rules or tasks
that cannot be loaded stop the sweep, before anything is deleted.

A worker takes two steps: it looks at its task, and deletes it if a rule suppresses it. The steps of
different workers come in any order (`Schedule`).
-/

namespace MailRules

/-- What became of a task. -/
inductive Fate
  | deleted
  | kept
  | skipped
  | failed
  deriving Repr, DecidableEq, Inhabited

/-- How many tasks had each fate. -/
structure Tally where
  scanned : Nat := 0
  deleted : Nat := 0
  kept : Nat := 0
  skipped : Nat := 0
  failed : Nat := 0
  deriving Repr, DecidableEq, Inhabited

namespace Tally

/-- The tally of fates. -/
def ofFates (fates : List Fate) : Tally :=
  ⟨fates.length, fates.count .deleted, fates.count .kept, fates.count .skipped,
    fates.count .failed⟩

/-- A tally as JSON. -/
def toJson (t : Tally) : Json :=
  .object [("scanned", .int t.scanned), ("deleted", .int t.deleted), ("kept", .int t.kept),
    ("skipped", .int t.skipped), ("failed", .int t.failed)]

end Tally

namespace Sweep

/-- A line of the log on the sweep. -/
def note (level : Log.Level) (message : String) : Log.Entry :=
  ⟨level, "sweep", message⟩

/-- The code of failures on one task. -/
def taskCode : String := "E7001"

/-- The report on a task that failed. -/
def taskReport (operation family text id : String) : Log.Entry :=
  Log.report .warning taskCode operation family text [("task_id", .scalar (.str id))]

/-- What is said of participants that are nested too deeply. -/
def tooDeepText : String :=
  "maximum recursion depth exceeded while decoding a JSON array from a unicode string"

/-- The warnings about rules of unknown kinds that are looked at before one applies. -/
def warnings (rules : List Rule) (s : Subject) : List Log.Entry :=
  ((rules.filter (·.draft.action = .suppress)).takeWhile (fun r => !r.applies s)).filterMap
    fun r =>
      match r.draft.kind with
      | .other name => some ⟨.warning, "matcher", s!"Unknown rule type: {name}"⟩
      | _ => none

/-- How much of a title is logged. -/
def titleLength : Nat := 60

/-- The part of a title that is logged, its addresses masked. -/
def shownTitle (title : String) : String :=
  Privacy.mask (Privacy.cut titleLength title)

/-- The line on a task that was deleted because of a rule. -/
def deletedLine (t : Store.Task) (r : Rule) : Log.Entry :=
  let shown := shownTitle t.title
  note .info s!"Deleted task {t.id}: {shown} (rule {r.id})"

/-- Deletes a task that a rule suppresses. -/
def remove (g : Registry) (t : Store.Task) (r : Rule) : Fate × Registry :=
  match g.withStore fun s => s.deleteTask t.id with
  | (.ok answer, g) =>
    if answer.isTruthy then (.deleted, g.say (deletedLine t r)) else (.skipped, g)
  | (.error f, g) =>
    (.failed, g.say (taskReport "Deleting suppressed task" f.family.name f.text t.id))

/-! ## Workers -/

/-- How far a worker has come with its task. -/
inductive Job
  /-- The task has not been looked at. -/
  | waiting (v : Store.TaskView)
  /-- A rule suppresses the task, which is still to be deleted. -/
  | doomed (t : Store.Task) (r : Rule)
  /-- The task has been dealt with. -/
  | settled (f : Fate)
  deriving Inhabited

/-- Looks at a task. -/
def judge (rules : List Rule) (g : Registry) (v : Store.TaskView) : Job × Registry :=
  match v.thread with
  | none => (.settled .skipped, g)
  | some thread =>
    match Subject.of? thread.participants (some v.task.title) with
    | none =>
      (.settled .skipped, g.say
        (taskReport "Evaluating task" Family.recursion.name tooDeepText v.task.id))
    | some subject =>
      let g := g.sayAll (warnings rules subject)
      match firstApplying .suppress rules subject with
      | none => (.settled .kept, g)
      | some r => (.doomed v.task r, g)

namespace Job

/-- What a worker does next: it looks at its task, and then deletes it if a rule suppresses it. -/
def advance (rules : List Rule) (g : Registry) : Job → Job × Registry
  | waiting v => judge rules g v
  | doomed t r =>
    match remove g t r with
    | (f, g) => (settled f, g)
  | settled f => (settled f, g)

/-- What became of the task, if that is settled. -/
def fate? : Job → Option Fate
  | settled f => some f
  | _ => none

end Job

/-- The jobs of a sweep in the order of the tasks, and the registry that their workers share. -/
structure Pool where
  jobs : List Job
  registry : Registry

namespace Pool

/-- The worker of the task at a place takes its next step. -/
def step (rules : List Rule) (p : Pool) (place : Nat) : Pool :=
  match p.jobs[place]? with
  | none => p
  | some j =>
    match j.advance rules p.registry with
    | (j, g) => ⟨p.jobs.set place j, g⟩

/-- The workers take steps in an order. -/
def run (rules : List Rule) (p : Pool) (order : List Nat) : Pool :=
  order.foldl (step rules) p

/-- What became of the tasks whose fate is settled. -/
def fates (p : Pool) : List Fate :=
  p.jobs.filterMap Job.fate?

end Pool

/-- The order in which the workers of so many tasks take their steps, each worker named by the place
of its task. How many of them work at a time only decides which orders can come about. -/
abbrev Schedule := (tasks : Nat) → List Nat

/-- The tasks one after the other. -/
def inTurn : Schedule :=
  fun n => (List.range n).flatMap fun i => [i, i]

/-! ## Running a sweep -/

/-- The first line on a sweep of so many tasks with so many rules. -/
def openingLine (tasks rules : Nat) : Log.Entry :=
  note .info s!"Sweeping {tasks} task(s) against {rules} suppression rule(s)"

/-- The last line on a sweep. -/
def closingLine (t : Tally) : Log.Entry :=
  let plural := if t.deleted = 1 then "" else "s"
  note .info
    s!"Cleaned up {t.deleted} suppressed task{plural} (skipped={t.skipped}, failed={t.failed})"

/-- Sweeps tasks with rules that suppress. -/
def settle (order : Schedule) (active : List Rule) (g : Registry) (tasks : List Store.TaskView) :
    Registry.Outcome Tally :=
  let start : Pool := ⟨tasks.map .waiting, g.say (openingLine tasks.length active.length)⟩
  let pool := start.run active (order tasks.length)
  let tally := Tally.ofFates pool.fates
  (.ok tally, pool.registry.say (closingLine tally))

/-- What a value in place of the tasks comes to. -/
def settleInstead (order : Schedule) (active : List Rule) (g : Registry) (v : Json) :
    Registry.Outcome Tally :=
  match Store.counted v with
  | .error f => (.error f, g)
  | .ok [] => settle order active g []
  | .ok (w :: ws) =>
    (Store.lacking "has_thread" w, g.say (openingLine (ws.length + 1) active.length))

/-- Applies the rules among these that suppress. -/
def runWith (order : Schedule) (g : Registry) (rules : List Rule) : Registry.Outcome Tally :=
  let active := rules.filter (·.draft.action = .suppress)
  if active.isEmpty then
    (.ok {}, g.say (note .info "No suppression rules found. Nothing to clean."))
  else
    match g.withStore fun s => s.listTasks with
    | (.error f, g) => (.error f, g)
    | (.ok (.given tasks), g) => settle order active g tasks
    | (.ok (.instead v), g) => settleInstead order active g v

/-- Runs a sweep with the rules given, or else those stored. -/
def run (g : Registry) (rules : Option (List Rule)) (order : Schedule := inTurn) :
    Registry.Outcome Tally :=
  match rules with
  | some rs => runWith order g rs
  | none =>
    match g.takingEach "action" fun s => s.listRules (some .suppress) with
    | (.error f, g) => (.error f, g)
    | (.ok rs, g) => runWith order g rs

/-- What says how many workers a sweep has is compared with one, so it has to be a number. -/
def checkWorkers (v : Json) : Except Failure Unit :=
  match Number.ofJson? v with
  | some _ => .ok ()
  | none => .error (.unordered v.kindName)

end Sweep

end MailRules
