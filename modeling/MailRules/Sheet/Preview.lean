import MailRules.Instruction.Parse
import MailRules.Sheet.Cells
import MailRules.Sheet.Column

set_option autoImplicit false

/-!
# Previews

A preview is the rules that a sheet would give. Each cell of a rule column goes to the heuristic
first; where that is in doubt, the kind in the heading decides, and only a cell without one goes to
the assistant. Exceptions, notes and an action come from the other columns of the row. A cell that
gives no rule is listed with its row and column; a rule that an earlier cell has given is dropped.

A sheet has no headings if no column would hold rules, or if its first row has an address in it.
-/

namespace MailRules.Sheet

open Instruction Extraction

/-- A rule of a preview, and where it comes from. -/
structure PreviewEntry where
  draft : Draft
  strategy : Strategy
  row : Nat
  column : String
  deriving Inhabited

/-- A cell that gives no rule, and why. -/
structure CellError where
  row : Nat
  column : String
  message : String
  deriving Repr, DecidableEq, Inhabited

/-- What a sheet would give. -/
structure Preview where
  entries : List PreviewEntry := []
  errors : List CellError := []
  rowCount : Nat := 0
  deriving Inhabited

/-- A cell of a rule column, and what the other columns of its row say. -/
structure RuleCell where
  row : Nat
  column : Column
  value : String
  exception : Option String
  notes : Option String
  rowAction : Option RuleAction
  deriving Repr, DecidableEq, Inhabited

/-- The trimmed cell of a row at a place, empty past its end. -/
def cellAt (row : List String) (index : Nat) : String :=
  Text.mapText Text.trim (row.getD index "")

/-- The cells of a row in some columns that are not empty, joined. -/
def joinedCells (row : List String) (columns : List Column) : Option String :=
  match (columns.map (fun c => cellAt row c.index)).filter (· ≠ "") with
  | [] => none
  | values => some (Text.joinWith "; " values)

/-- The columns of a role. -/
def withRole (r : Role) (columns : List Column) : List Column :=
  columns.filter (·.role = r)

/-- The rule cells of a row that are not empty. -/
def ruleCells (columns : List Column) (number : Nat) (row : List String) : List RuleCell :=
  let exception := joinedCells row (withRole .exception columns)
  let notes := joinedCells row (withRole .notes columns)
  let action := (withRole .action columns).findSome? (fun c => actionIn (cellAt row c.index))
  ((withRole .rule columns).map fun c =>
    ⟨number, c, cellAt row c.index, exception, notes, action⟩).filter (fun cell => cell.value ≠ "")

/-- The action of the rule of a cell: that of its column, of its row, or the default. -/
def RuleCell.action (cell : RuleCell) (default : RuleAction) : RuleAction :=
  (cell.column.action.orElse fun _ => cell.rowAction).getD default

/-- A draft made one of the kind in the heading. -/
def withKind (kind : Option RuleKind) (d : Draft) : Draft :=
  match kind with
  | some k =>
    if d.kind = k then d else { d with kind := k, pattern := Canonical.pattern k d.pattern }
  | none => d

/-- The draft of a cell with what the other columns of its row say. -/
def RuleCell.complete (cell : RuleCell) (default : RuleAction) (d : Draft) : Draft :=
  { d with
    action := cell.action default
    exception := (d.exception.filter (· ≠ "")).orElse fun _ => Canonical.exception cell.exception
    notes := (d.notes.filter (· ≠ "")).orElse fun _ => Canonical.notes cell.notes }

/-- What the first steps make of a cell: a rule, or the instruction left to the assistant. -/
def RuleCell.read (cell : RuleCell) (default : RuleAction) (assistant : Option Assistant) :
    Parsing :=
  let action := cell.action default
  match guess cell.value action, cell.column.kind with
  | .certain d, _ => { result := .ok ⟨d, .heuristic⟩, assistant := assistant }
  | .doubtful _, some k =>
    let d : Draft := { kind := k, pattern := Canonical.pattern k cell.value, action := action }
    { result := .ok ⟨d, .column⟩, assistant := assistant }
  | .doubtful _, none => parse assistant cell.value action

/-- What has come of the cells so far. -/
structure Progress where
  seen : List Draft.Key := []
  entries : List PreviewEntry := []
  errors : List CellError := []
  effects : List Effect := []
  asked : Asked := {}
  assistant : Option Assistant

/-- Notes that a cell gives no rule. -/
def Progress.fail (p : Progress) (cell : RuleCell) (message : String) : Progress :=
  { p with errors := p.errors ++ [⟨cell.row, cell.column.heading, message⟩] }

/-- Takes in the rule of a cell. -/
def Progress.take (p : Progress) (cell : RuleCell) (default : RuleAction) (found : Found) :
    Progress :=
  let kinded := withKind cell.column.kind found.draft
  if kinded.pattern = "" then p.fail cell "Empty pattern"
  else
    let d := cell.complete default kinded
    if p.seen.contains d.key then p
    else { p with
      seen := d.key :: p.seen
      entries := p.entries ++ [⟨d, found.strategy, cell.row, cell.column.heading⟩] }

/-- Takes in what happened while a cell was read. -/
def Progress.after (p : Progress) (parsing : Parsing) : Progress :=
  { p with
    effects := p.effects ++ parsing.effects
    asked := p.asked.append parsing.asked
    assistant := parsing.assistant }

/-- Goes through cells; only a failure of the reading itself breaks off. -/
def Progress.run (default : RuleAction) (p : Progress) :
    List RuleCell → Option ParseFault × Progress
  | [] => (none, p)
  | cell :: cells =>
    let parsing := cell.read default p.assistant
    let p := p.after parsing
    match parsing.result with
    | .ok found => Progress.run default (p.take cell default found) cells
    | .error (.refused (.unreadable f)) => (some (.refused (.unreadable f)), p)
    | .error f => Progress.run default (p.fail cell f.message) cells

/-- Whether a row has an address in it, as no row of headings has. -/
def isDataRow (default : RuleAction) (row : List String) : Bool :=
  row.any (fun cell => cell ≠ "" && !(guess cell default).needsHelp)

/-- The columns of a sheet, the number of its first row of data, and the rows of data. -/
def layout (default : RuleAction) (rows : List (List String)) :
    List Column × Nat × List (List String) :=
  match rows with
  | [] => ([], 1, [])
  | headings :: data =>
    let columns := Column.ofHeadings 0 headings
    if columns.any (·.role = .rule) && !isDataRow default headings then (columns, 2, data)
    else
      let width := rows.foldl (fun w row => max w row.length) 0
      (Column.numbered width, 1, rows)

/-- The rule cells of rows, the first of which has the given number. -/
def allRuleCells (columns : List Column) (number : Nat) : List (List String) → List RuleCell
  | [] => []
  | row :: rest => ruleCells columns number row ++ allRuleCells columns (number + 1) rest

/-- What comes of analysing a sheet. -/
structure Analysis where
  result : Except ParseFault Preview
  effects : List Effect := []
  asked : Asked := {}
  assistant : Option Assistant

/-- The preview of rows. -/
def analyzeRows (assistant : Option Assistant) (default : RuleAction) (rows : List (List String)) :
    Analysis :=
  if rows.isEmpty then { result := .ok {}, assistant := assistant }
  else
    let (columns, number, data) := layout default rows
    let (broken, p) :=
      Progress.run default { assistant := assistant } (allRuleCells columns number data)
    match broken with
    | some f =>
      { result := .error f, effects := p.effects, asked := p.asked, assistant := p.assistant }
    | none =>
      let summary := s!"Analyzed CSV: {data.length} row(s), {p.entries.length} rule(s), " ++
        s!"{p.errors.length} error(s)"
      { result := .ok ⟨p.entries, p.errors, data.length⟩
        effects := p.effects ++ [.log ⟨.info, "csv_import", summary⟩]
        asked := p.asked
        assistant := p.assistant }

/-- The preview of a sheet. -/
def analyze (assistant : Option Assistant) (default : RuleAction) (text : String) :
    Except Fault Analysis :=
  (rows text).map (analyzeRows assistant default)

namespace Preview

/-- How many rules of a preview have an action. -/
def count (p : Preview) (a : RuleAction) : Nat :=
  p.entries.countP (·.draft.action = a)

/-- The numbers that sum a preview up. -/
def summary (p : Preview) : Json :=
  .object [("total_rows", .int p.rowCount), ("total_rules", .int p.entries.length),
    ("vip_count", .int (p.count .vip)), ("suppress_count", .int (p.count .suppress))]

/-- The cells that give no rule. -/
def errorList (p : Preview) : Json :=
  .array (p.errors.map fun e =>
    .object [("row", .int e.row), ("column", .str e.column), ("message", .str e.message)])

/-- A rule of a preview with an identifier of its own. -/
def entryJson (id : String) (e : PreviewEntry) : Json :=
  .object (e.draft.members ++ [("id", .str id), ("strategy", .str e.strategy.name),
    ("source", .object [("row", .int e.row), ("column", .str e.column)])])

/-- A preview, its rules with identifiers by their places. -/
def toJson (p : Preview) (id : Nat → String) : Json :=
  .object [("preview", .array (p.entries.zipIdx.map fun e => entryJson (id e.2) e.1)),
    ("summary", p.summary), ("errors", p.errorList)]

end Preview

end MailRules.Sheet
