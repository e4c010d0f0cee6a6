import MailRules.Proofs.Sheet.Account

set_option autoImplicit false

/-!
# Places of records

The rules and errors of a preview tell the row that they come from. Rows are numbered when the
records that say nothing have been left out, so that the number of a row is the place of its record
less the number of such records before it (`reported_row`). To follow a cell to its record, each
record is given its place before any is left out (`placedRows`), and its cells keep the place
(`placedCells`); without the places these are the cells that the pass goes through
(`map_placedCells`).
-/

namespace MailRules.Sheet

open Instruction Extraction

variable {default : RuleAction} {columns : List Column} {number : Nat}

/-! ## Records with their places -/

/-- The rows of records, each with the place of its record, the first of all being 1. -/
def placedRows (rs : List (List (List Char))) : List (List String × Nat) :=
  ((rs.map trimCells).zipIdx 1).filter fun r => hasContent r.1

/-- The rule cells of rows, the first of which has the given number, with the places of their
records. -/
def placedCells (columns : List Column) (number : Nat) :
    List (List String × Nat) → List (Nat × RuleCell)
  | [] => []
  | r :: rest =>
    (ruleCells columns number r.1).map (Prod.mk r.2) ++ placedCells columns (number + 1) rest

/-- How many records before a place say nothing. -/
def blanksBefore (rs : List (List (List Char))) (place : Nat) : Nat :=
  (rs.take (place - 1)).countP fun r => !hasContent (trimCells r)

theorem map_placedRows (rs : List (List (List Char))) :
    (placedRows rs).map Prod.fst = (rs.map trimCells).filter hasContent := by
  rw [placedRows, ← List.zipIdx_map_fst 1 (rs.map trimCells), List.filter_map,
    List.zipIdx_map_fst]
  rfl

theorem map_placedCells (columns : List Column) (number : Nat) (placed : List (List String × Nat)) :
    (placedCells columns number placed).map Prod.snd =
      allRuleCells columns number (placed.map Prod.fst) := by
  induction placed generalizing number with
  | nil => rfl
  | cons r placed ih =>
    rw [placedCells, List.map_append, ih, List.map_map, List.map_cons, allRuleCells]
    congr 1
    exact List.map_id _

/-- A cell with a place is one of the row with that place, and knows the number of the row. -/
theorem mem_placedCells {placed : List (List String × Nat)} {place : Nat} {cell : RuleCell}
    (h : (place, cell) ∈ placedCells columns number placed) :
    ∃ j row, placed[j]? = some (row, place) ∧ cell ∈ ruleCells columns (number + j) row := by
  induction placed generalizing number with
  | nil => cases h
  | cons r placed ih =>
    rcases List.mem_append.mp h with h | h
    · obtain ⟨_, hcell, heq⟩ := List.mem_map.mp h
      cases heq
      exact ⟨0, r.1, rfl, hcell⟩
    · obtain ⟨j, row, hrow, hcell⟩ := ih h
      have hnumber : number + 1 + j = number + (j + 1) := by omega
      exact ⟨j + 1, row, hrow, hnumber ▸ hcell⟩

/-- An item that passes a test, by how many pass it before and how many do not. -/
theorem getElem?_filter_zipIdx {α : Type} {p : α → Bool} {l : List α} {k j n : Nat} {x : α}
    (h : ((l.zipIdx k).filter fun r => p r.1)[j]? = some (x, n)) :
    k ≤ n ∧ l[n - k]? = some x ∧ j + (l.take (n - k)).countP (fun a => !p a) = n - k := by
  induction l generalizing k j with
  | nil => cases h
  | cons a l ih =>
    rw [List.zipIdx_cons, List.filter_cons] at h
    -- what is said of a later item, with the first one before it
    have hlater : ∀ j, ((l.zipIdx (k + 1)).filter fun r => p r.1)[j]? = some (x, n) →
        k < n ∧ (a :: l)[n - k]? = some x ∧
          j + ((a :: l).take (n - k)).countP (fun b => !p b) =
            n - (k + 1) + if p a then 0 else 1 := by
      intro j hj
      obtain ⟨hle, hx, hcount⟩ := ih hj
      have hplace : n - k = n - (k + 1) + 1 := by omega
      refine ⟨hle, by rw [hplace]; exact hx, ?_⟩
      rw [hplace, List.take_succ_cons, List.countP_cons, ← Nat.add_assoc, hcount]
      cases p a <;> rfl
    by_cases hp : p a = true
    · rw [if_pos hp] at h
      cases j with
      | zero =>
        cases h
        simp
      | succ j =>
        obtain ⟨hlt, hx, hcount⟩ := hlater j h
        rw [if_pos hp] at hcount
        exact ⟨hlt.le, hx, by omega⟩
    · rw [if_neg hp] at h
      obtain ⟨hlt, hx, hcount⟩ := hlater j h
      rw [if_neg hp] at hcount
      exact ⟨hlt.le, hx, by omega⟩

/-! ## Rows of data -/

/-- The rows of data are those from the one with the first number. -/
theorem layout_data {rows data : List (List String)}
    (h : layout default rows = (columns, number, data)) :
    1 ≤ number ∧ data = rows.drop (number - 1) := by
  unfold layout at h
  split at h
  · cases h
    exact ⟨le_refl 1, rfl⟩
  · dsimp only at h
    split at h
    · cases h
      exact ⟨by decide, rfl⟩
    · cases h
      exact ⟨le_refl 1, rfl⟩

/-- The row of a cell counts the records up to its own that say something. -/
theorem row_of_mem_placedCells {rs : List (List (List Char))} (hnumber : 1 ≤ number) {place : Nat}
    {cell : RuleCell}
    (h : (place, cell) ∈ placedCells columns number ((placedRows rs).drop (number - 1))) :
    (∃ record, rs[place - 1]? = some record ∧
      cell.value = cellAt (trimCells record) cell.column.index) ∧
        cell.row + blanksBefore rs place = place := by
  obtain ⟨j, row, hrow, hcell⟩ := mem_placedCells h
  rw [List.getElem?_drop] at hrow
  obtain ⟨hle, hrecord, hcount⟩ := getElem?_filter_zipIdx hrow
  rw [List.getElem?_map, Option.map_eq_some_iff] at hrecord
  obtain ⟨record, hrecord, rfl⟩ := hrecord
  obtain ⟨c, -, rfl⟩ := List.mem_map.mp (List.mem_filter.mp hcell).1
  refine ⟨⟨record, hrecord, rfl⟩, ?_⟩
  rw [← List.map_take, List.countP_map] at hcount
  have hblanks : blanksBefore rs place =
    (rs.take (place - 1)).countP ((fun row => !hasContent row) ∘ trimCells) := rfl
  show number + j + blanksBefore rs place = place
  omega

/-! ## Reported rows -/

/-- The row that a cell is reported with. -/
def CellFate.row? : CellFate → Option Nat
  | listed e => some e.row
  | failed e => some e.row
  | repeated => none

theorem ComesTo.row_eq {cell : RuleCell} {earlier : List PreviewEntry}
    {result : Except ParseFault Found} {fate : CellFate} {row : Nat}
    (h : ComesTo default cell earlier result fate) (hrow : fate.row? = some row) :
    row = cell.row := by
  cases h <;> cases hrow <;> rfl

/-- A rule or an error is reported with the place of its record, less the records before it that say
nothing: with the place itself just if there are none. -/
theorem reported_row {assistant : Option Assistant} {text : String} {a : Analysis} {p : Preview}
    {rs : List (List (List Char))} {data : List (List String)}
    (ha : analyze assistant default text = .ok a) (hp : a.result = .ok p)
    (hrecords : records text = .ok rs)
    (hlayout : layout default ((rs.map trimCells).filter hasContent) = (columns, number, data)) :
    ∃ placed fates, placed = placedCells columns number ((placedRows rs).drop (number - 1)) ∧
      placed.map Prod.snd = allRuleCells columns number data ∧
      Fates default assistant [] (placed.map Prod.snd) fates ∧
      p.entries = fates.filterMap CellFate.entry? ∧ p.errors = fates.filterMap CellFate.error? ∧
      ∀ (i place : Nat) (cell : RuleCell) (fate : CellFate) (row : Nat),
        placed[i]? = some (place, cell) → fates[i]? = some fate → fate.row? = some row →
        (∃ record, rs[place - 1]? = some record ∧
          cell.value = cellAt (trimCells record) cell.column.index) ∧
        row + blanksBefore rs place = place ∧
        (row = place ↔ ∀ record ∈ rs.take (place - 1), hasContent (trimCells record) = true) := by
  have hrows : rows text = .ok ((rs.map trimCells).filter hasContent) := by
    rw [rows, hrecords]
    rfl
  obtain ⟨fates, hfates, hentries, herrors, -⟩ := analyze_fates ha hp hrows hlayout
  obtain ⟨hnumber, hdata⟩ := layout_data hlayout
  have hplaced : (placedCells columns number ((placedRows rs).drop (number - 1))).map Prod.snd =
      allRuleCells columns number data := by
    rw [map_placedCells, List.map_drop, map_placedRows, hdata]
  refine ⟨_, fates, rfl, hplaced, hplaced ▸ hfates, hentries, herrors, ?_⟩
  intro i place cell fate row hi hfate hrow
  have hcell : (allRuleCells columns number data)[i]? = some cell := by
    rw [← hplaced, List.getElem?_map, hi]
    rfl
  obtain ⟨asked, fate', hfate', hcomes⟩ := hfates.getElem? hcell
  obtain rfl := Option.some.inj (hfate.symm.trans hfate')
  obtain ⟨hrecord, hplace⟩ := row_of_mem_placedCells hnumber (List.mem_of_getElem? hi)
  rw [hcomes.row_eq hrow]
  refine ⟨hrecord, hplace, ?_⟩
  -- the two numbers are the same just if nothing is counted
  have hnone : blanksBefore rs place = 0 ↔
      ∀ record ∈ rs.take (place - 1), hasContent (trimCells record) = true := by
    simp [blanksBefore, List.countP_eq_zero]
  rw [← hnone]
  omega

/-- A sheet with a blank line between two rows of data. -/
def gapSheet : String :=
  "Email\nann@x.com\n\nbob@y.org\n"

/-- The rule before the blank line is reported with its place, the one behind it is not. -/
theorem reported_row_around_gap :
    ∃ (a : Analysis) (p : Preview) (placed : List (Nat × RuleCell)) (fates : List CellFate),
      analyze none .vip gapSheet = .ok a ∧ a.result = .ok p ∧
      p.entries = fates.filterMap CellFate.entry? ∧ placed.map Prod.fst = [2, 4] ∧
      (∀ fate row, fates[0]? = some fate → fate.row? = some row → row = 2) ∧
      ∀ fate row, fates[1]? = some fate → fate.row? = some row → row + 1 = 4 := by
  have hshown : shownPreview gapSheet = some
      ([(2, .email, "ann@x.com"), (3, .email, "bob@y.org")], []) := by decide +kernel
  obtain ⟨a, p, ha, hp, -⟩ := exists_of_shownPreview hshown
  have hrecords : records gapSheet =
      .ok [["Email".toList], ["ann@x.com".toList], [], ["bob@y.org".toList]] := by rfl
  obtain ⟨placed, fates, hplaced, -, -, hentries, -, hrow⟩ := reported_row ha hp hrecords rfl
  refine ⟨a, p, placed, fates, ha, hp, hentries, ?_, fun fate row hfate h => ?_,
    fun fate row hfate h => ?_⟩
  · rw [hplaced]
    decide +kernel
  · exact (hrow 0 2 _ fate row (by rw [hplaced]; rfl) hfate h).2.1
  · exact (hrow 1 4 _ fate row (by rw [hplaced]; rfl) hfate h).2.1

/-- A blank line is a record, and the rule from the record behind it is reported with the number of
the blank one. -/
theorem row_behind_blank :
    ∃ (a : Analysis) (p : Preview), analyze none .vip "Email\n\nann@x.com\n" = .ok a ∧
      a.result = .ok p ∧
      p.entries.map (fun e => (e.row, e.draft.kind, e.draft.pattern)) =
        [(2, .email, "ann@x.com")] ∧
      records "Email\n\nann@x.com\n" = .ok [["Email".toList], [], ["ann@x.com".toList]] := by
  have hshown : shownPreview "Email\n\nann@x.com\n" = some
      ([(2, .email, "ann@x.com")], []) := by decide +kernel
  obtain ⟨a, p, ha, hp, hentries, -⟩ := exists_of_shownPreview hshown
  exact ⟨a, p, ha, hp, hentries, rfl⟩

end MailRules.Sheet
