import MailRules.FileTree

set_option autoImplicit false

/-!
# Faults of the store

Why the store refuses an operation. What was being done decides how a report begins: opening the
store, starting a transaction, working inside one, or asking for rows.
-/

namespace MailRules.Store

/-- Why the store cannot be opened. -/
inductive OpenProblem
  /-- The file holds something else. -/
  | notDatabase
  /-- The directory of the file cannot be made. -/
  | directory (f : FileFault)
  /-- There is no place for a file, as where a directory stands. -/
  | noPlace
  /-- There is no place for the journal beside the file. -/
  | noJournal
  /-- A device stands where the file should be. -/
  | device
  deriving Repr, DecidableEq

/-- The wording of a problem. -/
def OpenProblem.message : OpenProblem → String
  | notDatabase => "file is not a database"
  | directory f => f.message
  | noPlace => "unable to open database file"
  | noJournal => "unable to open database file"
  | device => "disk I/O error"

/-- Why the store refuses an operation. -/
inductive StoreFault
  | cannotOpen (path : String) (problem : OpenProblem)
  /-- A transaction after the store was closed. -/
  | closed
  /-- A question after the store was closed. -/
  | closedQuery
  /-- A transaction inside another. -/
  | nested
  /-- A column that may not be empty. -/
  | missing (column : String)
  /-- A value that a column has already. -/
  | duplicate (column : String)
  /-- A task of a thread that does not exist. -/
  | noThread
  /-- A value of a kind that the column at a place does not take. -/
  | unsuitable (place : Nat) (kind : String)
  /-- A statement that failed, for this reason. -/
  | statement (reason : String)
  deriving Repr, DecidableEq

namespace StoreFault

/-- The wording of a fault. -/
def message : StoreFault → String
  | cannotOpen path p => s!"Database initialization failed for {path}: " ++ p.message
  | closed => "Could not start transaction: Cannot operate on a closed database."
  | closedQuery => "Query failed: Cannot operate on a closed database."
  | nested => "Could not start transaction: cannot start a transaction within a transaction"
  | missing column => s!"Database operation failed: NOT NULL constraint failed: {column}"
  | duplicate column => s!"Database operation failed: UNIQUE constraint failed: {column}"
  | noThread => "Database operation failed: FOREIGN KEY constraint failed"
  | unsuitable place kind =>
    s!"Database operation failed: Error binding parameter {place}: type '{kind}' is not supported"
  | statement reason => s!"Database operation failed: {reason}"

end StoreFault

end MailRules.Store
