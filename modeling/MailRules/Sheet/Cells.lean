import MailRules.Text.Blank

set_option autoImplicit false

/-!
# Cells of a sheet

A sheet in comma-separated values is a list of records, a record a list of cells. A cell may be
quoted; inside quotes a quote is written twice, and commas and line ends count as text. A record
ends with its line: at a line feed, or at carriage returns and line feeds before one.

`records` reads all records, blank ones too; `rows` keeps the trimmed cells of those that say
something.
-/

namespace MailRules.Sheet

/-- Why a text is no sheet. -/
inductive Fault
  /-- Text after a carriage return that ended a record. -/
  | strayReturn
  /-- A cell that is too long. -/
  | longCell
  deriving Repr, DecidableEq

/-- The most characters of a cell. -/
def cellLimit : Nat := 131072

/-- The wording of a fault. -/
def Fault.message : Fault → String
  | strayReturn => "new-line character seen in unquoted field - " ++
      "do you need to open the file in universal-newline mode?"
  | longCell => s!"field larger than field limit ({cellLimit})"

/-- Where the reading stands. -/
inductive Place
  | recordStart
  | cellStart
  | inCell
  | inQuotes
  /-- After a quote inside a quoted cell. -/
  | afterQuote
  /-- After the end of a record, before the end of its line. -/
  | afterRecord
  deriving Repr, DecidableEq

/-- What has been read: the characters of the cell, its length, the cells of the record, and the
records, each list with the last first. -/
structure Reader where
  place : Place := .recordStart
  cell : List Char := []
  length : Nat := 0
  cells : List (List Char) := []
  done : List (List (List Char)) := []
  deriving Repr, DecidableEq

namespace Reader

/-- Ends the cell. -/
def endCell (k : Reader) (place : Place) : Reader :=
  { k with place := place, cell := [], length := 0, cells := k.cell.reverse :: k.cells }

/-- Adds a character to the cell. -/
def add (k : Reader) (place : Place) (c : Char) : Except Fault Reader :=
  if cellLimit ≤ k.length then .error .longCell
  else .ok { k with place := place, cell := c :: k.cell, length := k.length + 1 }

/-- Reads a character outside quotes: the end of the record or of the cell, or text. -/
def plain (k : Reader) (c : Char) : Except Fault Reader :=
  if c = '\n' || c = '\r' then .ok (k.endCell .afterRecord)
  else if c = ',' then .ok (k.endCell .cellStart)
  else k.add .inCell c

/-- Reads a character. -/
def step (k : Reader) (c : Char) : Except Fault Reader :=
  match k.place with
  | .recordStart =>
    if c = '\n' || c = '\r' then .ok { k with place := .afterRecord }
    else if c = '"' then .ok { k with place := .inQuotes }
    else k.plain c
  | .cellStart => if c = '"' then .ok { k with place := .inQuotes } else k.plain c
  | .inCell => k.plain c
  | .inQuotes => if c = '"' then .ok { k with place := .afterQuote } else k.add .inQuotes c
  | .afterQuote => if c = '"' then k.add .inQuotes c else k.plain c
  | .afterRecord => if c = '\n' || c = '\r' then .ok k else .error .strayReturn

/-- Ends the record. -/
def endRecord (k : Reader) : Reader :=
  { k with place := .recordStart, cells := [], done := k.cells.reverse :: k.done }

/-- Reads the end of a line; inside quotes the record goes on. -/
def endLine (k : Reader) : Reader :=
  match k.place with
  | .inQuotes => k
  | .recordStart => k.endRecord
  | .afterRecord => k.endRecord
  | _ => (k.endCell .afterRecord).endRecord

/-- Reads the end of the text: the end of its last line, unless it had one already, and of a record
that a quote has left open. -/
def finish (k : Reader) (atLineStart : Bool) : List (List (List Char)) :=
  let k := if atLineStart then k else k.endLine
  let k := if k.place = .inQuotes then (k.endCell .afterRecord).endRecord else k
  k.done.reverse

/-- Reads a text to its end. -/
def run (k : Reader) (atLineStart : Bool) : List Char → Except Fault (List (List (List Char)))
  | [] => .ok (k.finish atLineStart)
  | c :: r =>
    match k.step c with
    | .error e => .error e
    | .ok k => if c = '\n' then run k.endLine true r else run k false r

end Reader

/-- The records of a text, with byte order marks at its start left out. -/
def records (text : String) : Except Fault (List (List (List Char))) :=
  Reader.run {} true (Text.stripStart (· = '\ufeff') text.toList)

/-- The trimmed cells of a record. -/
def trimCells (record : List (List Char)) : List String :=
  record.map (fun cell => String.ofList (Text.trim cell))

/-- Whether a row says something. -/
def hasContent (row : List String) : Bool :=
  row.any (· ≠ "")

/-- The trimmed cells of the records of a text that say something. -/
def rows (text : String) : Except Fault (List (List String)) :=
  (records text).map fun rs => (rs.map trimCells).filter hasContent

end MailRules.Sheet
