import MailRules.Proofs.Sheet.Preview

set_option autoImplicit false

/-!
# Cells that are accounted for

A pass over the cells of a sheet that is not broken off makes one thing of each cell: a rule of the
preview, an error, or nothing where an earlier rule has the same key (`ComesTo`). The rules and the
errors of the preview are these, in the order of the cells, and there is nothing else in it
(`analyze_fates`). So no cell is lost, and none is counted twice (`cells_accounted`).
-/

namespace MailRules.Sheet

open Instruction Extraction

/-! ## What becomes of a cell -/

/-- What becomes of a cell. -/
inductive CellFate
  /-- A rule of the preview. -/
  | listed (e : PreviewEntry)
  | failed (e : CellError)
  /-- Nothing: an earlier rule has the same key. -/
  | repeated

namespace CellFate

/-- The rule that a cell gives. -/
def entry? : CellFate → Option PreviewEntry
  | listed e => some e
  | _ => none

/-- The error that a cell gives. -/
def error? : CellFate → Option CellError
  | failed e => some e
  | _ => none

end CellFate

/-- The draft that a cell comes to in the end: what was found in it, of the kind in the heading, with
what the other columns of its row say. -/
def RuleCell.final (cell : RuleCell) (default : RuleAction) (found : Found) : Draft :=
  cell.complete default (withKind cell.column.kind found.draft)

/-- What a cell that is read with a result comes to, after cells that gave these rules. -/
inductive ComesTo (default : RuleAction) (cell : RuleCell) (earlier : List PreviewEntry) :
    Except ParseFault Found → CellFate → Prop
  | listed {found : Found} (hpattern : (cell.final default found).pattern ≠ "")
      (hnew : ∀ e ∈ earlier, e.draft.key ≠ (cell.final default found).key) :
      ComesTo default cell earlier (.ok found)
        (.listed ⟨cell.final default found, found.strategy, cell.row, cell.column.heading⟩)
  | repeated {found : Found} (hpattern : (cell.final default found).pattern ≠ "")
      (hold : ∃ e ∈ earlier, e.draft.key = (cell.final default found).key) :
      ComesTo default cell earlier (.ok found) .repeated
  | patternless {found : Found} (hpattern : (cell.final default found).pattern = "") :
      ComesTo default cell earlier (.ok found)
        (.failed ⟨cell.row, cell.column.heading, "Empty pattern"⟩)
  | unread {fault : ParseFault} (hreadable : ∀ f, fault ≠ .refused (.unreadable f)) :
      ComesTo default cell earlier (.error fault)
        (.failed ⟨cell.row, cell.column.heading, fault.message⟩)

/-- What cells come to one after the other, the assistant being asked in between. -/
inductive Fates (default : RuleAction) :
    Option Assistant → List PreviewEntry → List RuleCell → List CellFate → Prop
  | nil {assistant : Option Assistant} {earlier : List PreviewEntry} :
      Fates default assistant earlier [] []
  | cons {assistant : Option Assistant} {earlier : List PreviewEntry} {cell : RuleCell}
      {cells : List RuleCell} {fate : CellFate} {fates : List CellFate}
      (hfate : ComesTo default cell earlier (cell.read default assistant).result fate)
      (hrest : Fates default (cell.read default assistant).assistant
        (earlier ++ fate.entry?.toList) cells fates) :
      Fates default assistant earlier (cell :: cells) (fate :: fates)

/-! ## One step of the pass -/

/-- One cell has been taken in, which has come to this. -/
structure Progress.Adds (p q : Progress) (fate : CellFate) : Prop where
  entries : q.entries = p.entries ++ fate.entry?.toList
  errors : q.errors = p.errors ++ fate.error?.toList
  assistant : q.assistant = p.assistant

theorem Progress.fail_adds (p : Progress) (cell : RuleCell) (message : String) :
    p.Adds (p.fail cell message) (.failed ⟨cell.row, cell.column.heading, message⟩) :=
  ⟨(List.append_nil _).symm, rfl, rfl⟩

theorem Progress.adds_repeated (p : Progress) : p.Adds p .repeated :=
  ⟨(List.append_nil _).symm, (List.append_nil _).symm, rfl⟩

/-- The keys that have been seen are those of the rules. -/
theorem Progress.Sorted.mem_seen {p : Progress} (h : p.Sorted) {k : Draft.Key} :
    k ∈ p.seen ↔ ∃ e ∈ p.entries, e.draft.key = k := by
  rw [h.seen]
  simp

/-- A rule that is found is taken in, unless it has no pattern or its key is known. -/
theorem Progress.Sorted.take_adds {p : Progress} (h : p.Sorted) (cell : RuleCell)
    (default : RuleAction) (found : Found) :
    ∃ fate, ComesTo default cell p.entries (.ok found) fate ∧
      p.Adds (p.take cell default found) fate := by
  have hfinal : (withKind cell.column.kind found.draft).pattern =
      (cell.final default found).pattern := rfl
  have hkey : (cell.complete default (withKind cell.column.kind found.draft)).key =
      (cell.final default found).key := rfl
  unfold Progress.take
  dsimp only
  rw [hfinal, hkey]
  by_cases hpattern : (cell.final default found).pattern = ""
  · rw [if_pos hpattern]
    exact ⟨_, .patternless hpattern, p.fail_adds cell _⟩
  · rw [if_neg hpattern]
    by_cases hseen : (cell.final default found).key ∈ p.seen
    · rw [if_pos (List.contains_iff_mem.mpr hseen)]
      exact ⟨_, .repeated hpattern (h.mem_seen.mp hseen), p.adds_repeated⟩
    · rw [if_neg (by simpa using hseen)]
      refine ⟨_, .listed hpattern fun e he heq => hseen (h.mem_seen.mpr ⟨e, he, heq⟩), ?_⟩
      exact ⟨rfl, (List.append_nil _).symm, rfl⟩

/-- What has come of the cells when one more has been taken in. -/
def Progress.settle (p : Progress) (default : RuleAction) (cell : RuleCell) : Progress :=
  match (cell.read default p.assistant).result with
  | .ok found => (p.after (cell.read default p.assistant)).take cell default found
  | .error fault => (p.after (cell.read default p.assistant)).fail cell fault.message

theorem Progress.Sorted.settle {p : Progress} (h : p.Sorted) (default : RuleAction) {cell : RuleCell}
    (hcell : cell.column.HasKnownKind) : (p.settle default cell).Sorted := by
  unfold Progress.settle
  split
  · next found hresult => exact (h.after _).take hcell default (read_wellFormed hcell hresult)
  · exact (h.after _).fail cell _

/-- A cell whose reading does not break off is taken in as what it comes to. -/
theorem Progress.Sorted.settle_adds {p : Progress} (h : p.Sorted) {default : RuleAction}
    {cell : RuleCell}
    (hread : ∀ f, (cell.read default p.assistant).result ≠ .error (.refused (.unreadable f))) :
    ∃ fate, ComesTo default cell p.entries (cell.read default p.assistant).result fate ∧
      (p.after (cell.read default p.assistant)).Adds (p.settle default cell) fate := by
  unfold Progress.settle
  cases hresult : (cell.read default p.assistant).result with
  | ok found => exact (h.after (cell.read default p.assistant)).take_adds cell default found
  | error fault =>
    have hreadable : ∀ f, fault ≠ .refused (.unreadable f) := by
      rintro f rfl
      exact hread f hresult
    exact ⟨_, .unread hreadable, Progress.fail_adds _ cell _⟩

/-- A pass that is not broken off has taken in its first cell and gone on. -/
theorem Progress.run_cons {default : RuleAction} {p q : Progress} {cell : RuleCell}
    {cells : List RuleCell} (h : Progress.run default p (cell :: cells) = (none, q)) :
    (∀ f, (cell.read default p.assistant).result ≠ .error (.refused (.unreadable f))) ∧
      Progress.run default (p.settle default cell) cells = (none, q) := by
  unfold Progress.run at h
  unfold Progress.settle
  dsimp only at h
  split at h
  · next found hresult =>
    rw [hresult]
    exact ⟨fun f => nofun, h⟩
  · cases h
  · next fault hreadable hresult =>
    rw [hresult]
    refine ⟨?_, h⟩
    rintro f heq
    cases heq
    exact hreadable f rfl

/-! ## The whole pass -/

/-- A pass that is not broken off adds what the cells come to, and nothing else. -/
theorem Progress.Sorted.run_fates {default : RuleAction} {p q : Progress} (h : p.Sorted)
    {cells : List RuleCell} (hcells : ∀ cell ∈ cells, cell.column.HasKnownKind)
    (hrun : Progress.run default p cells = (none, q)) :
    ∃ fates, Fates default p.assistant p.entries cells fates ∧
      q.entries = p.entries ++ fates.filterMap CellFate.entry? ∧
      q.errors = p.errors ++ fates.filterMap CellFate.error? := by
  induction cells generalizing p with
  | nil =>
    cases hrun
    exact ⟨[], .nil, (List.append_nil _).symm, (List.append_nil _).symm⟩
  | cons cell cells ih =>
    obtain ⟨hcell, hrest⟩ := List.forall_mem_cons.mp hcells
    obtain ⟨hread, hnext⟩ := Progress.run_cons hrun
    obtain ⟨fate, hfate, hadds⟩ := h.settle_adds hread
    obtain ⟨fates, hfates, hentries, herrors⟩ := ih (h.settle default hcell) hrest hnext
    rw [hadds.assistant, hadds.entries] at hfates
    refine ⟨fate :: fates, .cons hfate hfates, ?_, ?_⟩
    · rw [hentries, hadds.entries, List.append_assoc]
      cases fate <;> rfl
    · rw [herrors, hadds.errors, List.append_assoc]
      cases fate <;> rfl

/-- The rules and errors of the preview of a sheet are what its cells come to. -/
theorem analyze_fates {assistant : Option Assistant} {default : RuleAction} {text : String}
    {a : Analysis} {p : Preview} {rs data : List (List String)} {columns : List Column}
    {number : Nat} (ha : analyze assistant default text = .ok a) (hp : a.result = .ok p)
    (hrows : rows text = .ok rs) (hlayout : layout default rs = (columns, number, data)) :
    ∃ fates, Fates default assistant [] (allRuleCells columns number data) fates ∧
      p.entries = fates.filterMap CellFate.entry? ∧
      p.errors = fates.filterMap CellFate.error? ∧ p.rowCount = data.length := by
  obtain ⟨q, hrun, rfl⟩ := analyze_eq_ok ha hp hrows hlayout
  obtain ⟨fates, hfates, hentries, herrors⟩ :=
    (Progress.Sorted.start assistant).run_fates (known_of_layout hlayout) hrun
  exact ⟨fates, hfates, hentries, herrors, rfl⟩

/-! ## Cells by their places -/

/-- Each cell comes to one thing, after what the cells before it have come to. -/
theorem Fates.getElem? {default : RuleAction} {assistant : Option Assistant}
    {earlier : List PreviewEntry} {cells : List RuleCell} {fates : List CellFate}
    (h : Fates default assistant earlier cells fates) {i : Nat} {cell : RuleCell}
    (hcell : cells[i]? = some cell) :
    ∃ asked fate, fates[i]? = some fate ∧
      ComesTo default cell (earlier ++ (fates.take i).filterMap CellFate.entry?)
        (cell.read default asked).result fate := by
  induction h generalizing i with
  | nil => cases hcell
  | @cons assistant earlier first cells fate fates hfate _ ih =>
    cases i with
    | zero =>
      cases hcell
      refine ⟨assistant, fate, rfl, ?_⟩
      rwa [List.take_zero, List.filterMap_nil, List.append_nil]
    | succ i =>
      obtain ⟨asked, later, hlater, hcomes⟩ := ih hcell
      refine ⟨asked, later, hlater, ?_⟩
      rw [List.append_assoc] at hcomes
      rw [List.take_succ_cons]
      cases fate <;> exact hcomes

theorem Fates.length_eq {default : RuleAction} {assistant : Option Assistant}
    {earlier : List PreviewEntry} {cells : List RuleCell} {fates : List CellFate}
    (h : Fates default assistant earlier cells fates) : fates.length = cells.length := by
  induction h with
  | nil => rfl
  | cons _ _ ih => rw [List.length_cons, List.length_cons, ih]

/-- The cells of the rule columns that say something, row by row and from left to right: the number
of the row, the column, and what the cell says. -/
def filledCells (columns : List Column) (number : Nat) (data : List (List String)) :
    List (Nat × Column × String) :=
  (data.zipIdx number).flatMap fun r =>
    ((withRole .rule columns).map fun c => (r.2, c, cellAt r.1 c.index)).filter (·.2.2 ≠ "")

theorem map_allRuleCells (columns : List Column) (number : Nat) (data : List (List String)) :
    (allRuleCells columns number data).map (fun cell => (cell.row, cell.column, cell.value)) =
      filledCells columns number data := by
  induction data generalizing number with
  | nil => rfl
  | cons row data ih =>
    have hrow : (ruleCells columns number row).map
        (fun cell => (cell.row, cell.column, cell.value)) =
          ((withRole .rule columns).map fun c => (number, c, cellAt row c.index)).filter
            (·.2.2 ≠ "") := by
      simp only [ruleCells, List.filter_map, List.map_map]
      rfl
    rw [allRuleCells, List.map_append, hrow, ih, filledCells, filledCells, List.zipIdx_cons,
      List.flatMap_cons]

/-- The first action that the columns of actions have a word for in a row. -/
def firstAction (columns : List Column) (row : List String) : Option RuleAction :=
  ((withRole .action columns).filterMap fun c => actionIn (cellAt row c.index)).head?

/-- A rule of a preview that comes from a cell, and says what the sheet asks for. -/
structure IsEntryOf (default : RuleAction) (columns : List Column) (number : Nat)
    (data : List (List String)) (cell : RuleCell) (e : PreviewEntry) : Prop where
  row : e.row = cell.row
  column : e.column = cell.column.heading
  pattern : e.draft.pattern ≠ ""
  /-- The kind is that in the heading, if there is one. -/
  kind : ∀ k, cell.column.kind = some k → e.draft.kind = k
  /-- The action is that in the heading, or else the first in the row, or else the default. -/
  action : ∃ i row, cell.row = number + i ∧ data[i]? = some row ∧
    e.draft.action = (cell.column.action.or (firstAction columns row)).getD default

theorem withKind_kind {k : RuleKind} (d : Draft) : (withKind (some k) d).kind = k := by
  simp only [withKind]
  split
  · assumption
  · rfl

theorem RuleCell.action_eq (cell : RuleCell) (default : RuleAction) :
    cell.action default = (cell.column.action.or cell.rowAction).getD default := by
  unfold RuleCell.action
  cases cell.column.action <;> rfl

theorem rowAction_of_mem_ruleCells {columns : List Column} {number : Nat} {row : List String}
    {cell : RuleCell} (h : cell ∈ ruleCells columns number row) :
    cell.row = number ∧ cell.rowAction = firstAction columns row := by
  obtain ⟨c, -, rfl⟩ := List.mem_map.mp (List.mem_filter.mp h).1
  exact ⟨rfl, List.head?_filterMap.symm⟩

/-- What is listed for a cell says what the sheet asks for. -/
theorem ComesTo.isEntryOf {default : RuleAction} {columns : List Column} {number : Nat}
    {data : List (List String)} {cell : RuleCell} {earlier : List PreviewEntry}
    {result : Except ParseFault Found} {e : PreviewEntry}
    (h : ComesTo default cell earlier result (.listed e))
    (hcell : cell ∈ allRuleCells columns number data) :
    IsEntryOf default columns number data cell e := by
  cases h with
  | @listed found hpattern _ =>
    refine ⟨rfl, rfl, hpattern, fun k hk => ?_, ?_⟩
    · show (withKind cell.column.kind found.draft).kind = k
      rw [hk, withKind_kind]
    · obtain ⟨i, row, hrow, hmem⟩ := mem_allRuleCells hcell
      obtain ⟨hnumber, haction⟩ := rowAction_of_mem_ruleCells hmem
      refine ⟨i, row, hnumber, hrow, ?_⟩
      rw [← haction, ← cell.action_eq]
      rfl

theorem ComesTo.error_place {default : RuleAction} {cell : RuleCell} {earlier : List PreviewEntry}
    {result : Except ParseFault Found} {e : CellError}
    (h : ComesTo default cell earlier result (.failed e)) :
    e.row = cell.row ∧ e.column = cell.column.heading := by
  cases h <;> exact ⟨rfl, rfl⟩

/-- Every rule of a preview gives priority or suppresses. -/
theorem Preview.count_add_count (p : Preview) :
    p.count .vip + p.count .suppress = p.entries.length := by
  unfold Preview.count
  induction p.entries with
  | nil => rfl
  | cons e entries ih =>
    simp only [List.countP_cons, List.length_cons]
    cases e.draft.action
    · simp; omega
    · simp; omega

/-- What the cells of a sheet come to is what its preview holds. -/
structure Preview.IsAccount (p : Preview) (default : RuleAction) (assistant : Option Assistant)
    (columns : List Column) (number : Nat) (data : List (List String)) (fates : List CellFate) :
    Prop where
  /-- The cells are all those of rule columns that say something, in order. -/
  cells : (allRuleCells columns number data).map (fun cell => (cell.row, cell.column, cell.value)) =
    filledCells columns number data
  come : Fates default assistant [] (allRuleCells columns number data) fates
  /-- Each of them comes to one thing. -/
  length : fates.length = (filledCells columns number data).length
  entries : p.entries = fates.filterMap CellFate.entry?
  errors : p.errors = fates.filterMap CellFate.error?
  listed : ∀ (i : Nat) (cell : RuleCell) (e : PreviewEntry),
    (allRuleCells columns number data)[i]? = some cell → fates[i]? = some (.listed e) →
      IsEntryOf default columns number data cell e
  failed : ∀ (i : Nat) (cell : RuleCell) (e : CellError),
    (allRuleCells columns number data)[i]? = some cell → fates[i]? = some (.failed e) →
      e.row = cell.row ∧ e.column = cell.column.heading
  /-- No two rules have the same key. -/
  once : (p.entries.map fun e => e.draft.key).Nodup
  summary : p.summary = .object [("total_rows", .int data.length),
    ("total_rules", .int (p.count .vip + p.count .suppress : Nat)),
    ("vip_count", .int (p.count .vip)), ("suppress_count", .int (p.count .suppress))]
  total : p.count .vip + p.count .suppress = p.entries.length

/-- Each cell of a rule column that says something gives a rule of the preview, an error with its
place, or nothing where the key of its draft is that of an earlier rule, and the preview holds
nothing else. -/
theorem cells_accounted {assistant : Option Assistant} {default : RuleAction} {text : String}
    {a : Analysis} {p : Preview} {rs data : List (List String)} {columns : List Column}
    {number : Nat} (ha : analyze assistant default text = .ok a) (hp : a.result = .ok p)
    (hrows : rows text = .ok rs) (hlayout : layout default rs = (columns, number, data)) :
    ∃ fates, p.IsAccount default assistant columns number data fates := by
  obtain ⟨fates, hfates, hentries, herrors, hcount⟩ := analyze_fates ha hp hrows hlayout
  have hcells := map_allRuleCells columns number data
  have honce : (p.entries.map fun e => e.draft.key).Nodup := by
    have hdrafts := (analyze_sound ha hp).once
    rwa [Preview.drafts, List.map_map] at hdrafts
  -- what a cell comes to is what has its place in the list
  have hcomes (i : Nat) (cell : RuleCell) (fate : CellFate)
      (hcell : (allRuleCells columns number data)[i]? = some cell) (hfate : fates[i]? = some fate) :
      ∃ earlier result, ComesTo default cell earlier result fate := by
    obtain ⟨asked, found, hfound, hcomes⟩ := hfates.getElem? hcell
    obtain rfl := Option.some.inj (hfate.symm.trans hfound)
    exact ⟨_, _, hcomes⟩
  refine ⟨fates, hcells, hfates, ?_, hentries, herrors, ?_, ?_, honce, ?_, p.count_add_count⟩
  · rw [hfates.length_eq, ← hcells, List.length_map]
  · intro i cell e hcell hfate
    obtain ⟨earlier, result, hlisted⟩ := hcomes i cell _ hcell hfate
    exact hlisted.isEntryOf (List.mem_of_getElem? hcell)
  · intro i cell e hcell hfate
    obtain ⟨earlier, result, hfailed⟩ := hcomes i cell _ hcell hfate
    exact hfailed.error_place
  · rw [Preview.summary, hcount, p.count_add_count]

/-! ## A sheet with all sorts of cells -/

/-- What the preview of a sheet shows without an assistant: its rules with their rows, kinds and
patterns, and the places of its errors. -/
def shownPreview (text : String) :
    Option (List (Nat × RuleKind × String) × List (Nat × String)) :=
  (analyze none .vip text).toOption.bind fun a => a.result.toOption.map fun p =>
    (p.entries.map fun e => (e.row, e.draft.kind, e.draft.pattern),
      p.errors.map fun e => (e.row, e.column))

theorem exists_of_shownPreview {text : String}
    {shown : List (Nat × RuleKind × String) × List (Nat × String)}
    (h : shownPreview text = some shown) :
    ∃ a p, analyze none .vip text = .ok a ∧ a.result = .ok p ∧
      p.entries.map (fun e => (e.row, e.draft.kind, e.draft.pattern)) = shown.1 ∧
      p.errors.map (fun e => (e.row, e.column)) = shown.2 := by
  unfold shownPreview at h
  rcases ha : analyze none .vip text with f | a
  · rw [ha] at h
    cases h
  · rcases hp : a.result with f | p
    · simp [ha, hp, Except.toOption] at h
    · simp only [ha, hp, Except.toOption, Option.bind_some, Option.map_some,
        Option.some.injEq] at h
      exact ⟨a, p, rfl, hp, congrArg Prod.fst h, congrArg Prod.snd h⟩

/-- A sheet with two rules, one of them twice, and an instruction that needs an assistant. -/
def mixedSheet : String :=
  "Rules,Domain\nann@x.com,y.org\nAnn@X.com,\nnewsletters,\n"

/-- Four cells give two rules and an error, and one of them nothing. -/
theorem cells_accounted_mixed :
    ∃ (a : Analysis) (p : Preview) (fates : List CellFate),
      analyze none .vip mixedSheet = .ok a ∧ a.result = .ok p ∧
      p.entries = fates.filterMap CellFate.entry? ∧
      p.errors = fates.filterMap CellFate.error? ∧ fates.length = 4 ∧
      p.entries.map (fun e => (e.row, e.draft.kind, e.draft.pattern)) =
        [(2, .email, "ann@x.com"), (2, .domain, "y.org")] ∧
      p.errors.map (fun e => (e.row, e.column)) = [(4, "Rules")] := by
  have hshown : shownPreview mixedSheet = some
      ([(2, .email, "ann@x.com"), (2, .domain, "y.org")], [(4, "Rules")]) := by decide +kernel
  obtain ⟨a, p, ha, hp, hentries, herrors⟩ := exists_of_shownPreview hshown
  have hrows : rows mixedSheet = .ok [["Rules", "Domain"], ["ann@x.com", "y.org"],
      ["Ann@X.com", ""], ["newsletters", ""]] := by rfl
  obtain ⟨fates, haccount⟩ := cells_accounted ha hp hrows rfl
  refine ⟨a, p, fates, ha, hp, haccount.entries, haccount.errors, ?_, hentries, herrors⟩
  rw [haccount.length]
  decide +kernel

end MailRules.Sheet
