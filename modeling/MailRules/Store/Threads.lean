import MailRules.Store.Row

set_option autoImplicit false

/-!
# Threads and tasks in the store

A thread or task may bring its identifier along or get a new one. Identifiers are not used twice,
every task has a title, and the thread of a task has to exist.
-/

namespace MailRules.Store

/-- The identifier that is brought along, unless it is absent or empty. -/
def givenId? (id : Option String) : Option String :=
  id.filter (· ≠ "")

/-- Writes a thread inside a transaction. -/
def writeThread (s : Store) (participants subject id : Option String) : Outcome String :=
  let given := givenId? id
  let new := given.getD (s.marks.thread s.tables.issued.threads)
  s.statement (fun _ => .ok new) fun s =>
    if (s.tables.thread? new).isSome then (.error (.store (.duplicate "threads.id")), s)
    else
      let issued := s.tables.issued
      let issued :=
        if given.isSome then issued else { issued with threads := issued.threads + 1 }
      (.ok new, { s with tables := { s.tables with
        threads := s.tables.threads ++ [⟨new, subject, participants⟩], issued := issued } })

/-- Adds a thread. -/
def insertThread (s : Store) (participants subject id : Option String) :
    Outcome (Answer String) :=
  s.answered .insertThread participants fun s =>
    Outcome.given <| s.transaction fun s => s.writeThread participants subject id

/-- Writes a task inside a transaction. -/
def writeTask (s : Store) (title thread id : Option String) : Outcome String :=
  let given := givenId? id
  let new := given.getD (s.marks.task s.tables.issued.tasks)
  s.statement (fun _ => .ok new) fun s =>
    match title with
    | none => (.error (.store (.missing "tasks.title")), s)
    | some title =>
      if s.tables.tasks.any (·.id = new) then (.error (.store (.duplicate "tasks.id")), s)
      else if thread.any (fun t => (s.tables.thread? t).isNone) then
        (.error (.store .noThread), s)
      else
        let issued := s.tables.issued
        let issued :=
          if given.isSome then issued else { issued with tasks := issued.tasks + 1 }
        (.ok new, { s with tables := { s.tables with
          tasks := s.tables.tasks ++ [⟨new, title, thread⟩], issued := issued } })

/-- Adds a task. -/
def insertTask (s : Store) (title thread id : Option String) : Outcome (Answer String) :=
  s.answered .insertTask title fun s =>
    Outcome.given <| s.transaction fun s => s.writeTask title thread id

/-- The tasks with their threads, in the order in which they came. -/
def listTasks (s : Store) : Outcome (Answer (List TaskView)) :=
  s.answered .listTasks none fun s =>
    match s.question fun t => .ok (t.tasks.map t.view) with
    | (.error f, s) => (.error f, s)
    | (.ok rows, s) =>
      Outcome.given ((eachRow rows).bind fun rows => rows.mapM fun row => row.take taskIn, s)

/-- Erases the task with an identifier inside a transaction and tells whether there was one. -/
def eraseTask (s : Store) (id : String) : Outcome Bool :=
  s.statement (lacking "rowcount") fun s =>
    (.ok (s.tables.tasks.any (·.id = id)), { s with tables := { s.tables with
      tasks := s.tables.tasks.filter (·.id ≠ id) } })

/-- Deletes the task with an identifier and tells whether there was one. -/
def deleteTask (s : Store) (id : String) : Outcome (Answer Bool) :=
  s.answered .deleteTask (some id) fun s =>
    Outcome.given <| s.transaction fun s => s.eraseTask id

/-- The number in the first row of an answer. -/
def countIn : Answer (List Nat) → Except Failure (Answer Nat)
  | .given counts => .ok (.given (counts.headD 0))
  | .instead rows => do
    let row ← rows.first.mapError Failure.access
    return .instead (← row.first.mapError Failure.access)

/-- How many tasks there are. -/
def countTasks (s : Store) : Outcome (Answer Nat) :=
  s.answered .countTasks none fun s =>
    match s.question fun t => .ok [t.tasks.length] with
    | (.error f, s) => (.error f, s)
    | (.ok rows, s) => (countIn rows, s)

end MailRules.Store
