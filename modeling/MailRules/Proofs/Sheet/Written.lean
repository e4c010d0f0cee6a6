import MailRules.Proofs.Text.Join
import MailRules.Sheet.Cells

set_option autoImplicit false

/-!
# Sheets that are written down

What is written as a sheet is read back as it was (`rows_written`): rows of trimmed cells, each cell
in quotes, and between them lines that are blank or have commas only, which say nothing. Byte order
marks may come before it all.

The reader is followed cell by cell. A cell is left by a comma or by the end of its line, and in
either case nothing but the cells before it is remembered (`run_cell`); so a line adds one record,
whatever has been read before (`run_line`).
-/

namespace MailRules.Sheet

open Text

/-! ## Cells as they are written -/

/-- A character between quotes: a quote is written twice. -/
def quotedChar (c : Char) : List Char :=
  if c = '"' then ['"', '"'] else [c]

/-- Whether a character is no mark of a sheet. -/
def isPlain (c : Char) : Bool :=
  c ≠ ',' && c ≠ '"' && c ≠ '\n' && c ≠ '\r'

/-- A cell with the way in which it is written. -/
inductive Cell
  | quoted (text : List Char)
  | bare (text : List Char)
  deriving Repr, DecidableEq

namespace Cell

/-- What a cell says. -/
def text : Cell → List Char
  | quoted s => s
  | bare s => s

/-- A cell as it is written. -/
def written : Cell → List Char
  | quoted s => '"' :: (s.flatMap quotedChar ++ ['"'])
  | bare s => s

/-- A cell is not too long, and has no marks unless it is in quotes. -/
structure IsReadable (cell : Cell) : Prop where
  fits : cell.text.length ≤ cellLimit
  plain : ∀ s, cell = bare s → ∀ c ∈ s, Sheet.isPlain c = true

end Cell

/-- The cells of a line, and how many carriage returns there are at its end. -/
structure Line where
  cells : List Cell
  returns : Nat := 0
  deriving Repr, DecidableEq

/-- A line as it is written. -/
def Line.written (l : Line) : List Char :=
  join [','] (l.cells.map Cell.written) ++ (List.replicate l.returns '\r' ++ ['\n'])

/-! ## Reading a cell -/

namespace Reader

/-- The reader before a cell. -/
def before (place : Place) (cells : List (List Char)) (done : List (List (List Char))) : Reader :=
  { place := place, cells := cells, done := done }

/-- The reader when it has read more text of its cell. -/
def more (k : Reader) (place : Place) (s : List Char) : Reader where
  place := place
  cell := s.reverse ++ k.cell
  length := k.length + s.length
  cells := k.cells
  done := k.done

@[simp] theorem more_place (k : Reader) (place : Place) (s : List Char) :
    (k.more place s).place = place := rfl

@[simp] theorem more_more (k : Reader) (place next : Place) (s t : List Char) :
    (k.more place s).more next t = k.more next (s ++ t) := by
  simp [more, Nat.add_assoc]

theorem add_eq_more {k : Reader} (h : k.length < cellLimit) (place : Place) (c : Char) :
    k.add place c = .ok (k.more place [c]) := by
  rw [add, if_neg (by omega)]
  rfl

theorem run_cons {k k' : Reader} {c : Char} (hstep : k.step c = .ok k') (hc : c ≠ '\n')
    (b : Bool) (t : List Char) : run k b (c :: t) = run k' false t := by
  rw [run, hstep]
  simp [hc]

theorem run_lineFeed {k k' : Reader} (hstep : k.step '\n' = .ok k') (b : Bool) (t : List Char) :
    run k b ('\n' :: t) = run k'.endLine true t := by
  rw [run, hstep]
  simp

/-- A quoted text is read up to its last quote. -/
theorem run_quoted {k : Reader} (hplace : k.place = .inQuotes) {s : List Char}
    (hfits : k.length + s.length ≤ cellLimit) (b : Bool) (t : List Char) :
    run k b (s.flatMap quotedChar ++ '"' :: t) = run (k.more .afterQuote s) false t := by
  induction s generalizing k b with
  | nil =>
    rw [List.flatMap_nil, List.nil_append]
    exact run_cons (by simp [step, hplace, more]) (by decide) b t
  | cons c s ih =>
    rw [List.length_cons] at hfits
    have hadd := add_eq_more (k := k) (by omega) .inQuotes c
    have hrest (b : Bool) : run (k.more .inQuotes [c]) b (s.flatMap quotedChar ++ '"' :: t) =
        run (k.more .afterQuote (c :: s)) false t := by
      rw [ih (more_place _ _ _) (by simp [more]; omega), more_more, List.singleton_append]
    rw [List.flatMap_cons, List.append_assoc]
    by_cases hquote : c = '"'
    · -- the second of two quotes is the one that is kept
      subst hquote
      have hfirst : k.step '"' = .ok (k.more .afterQuote []) := by simp [step, hplace, more]
      have hsecond : (k.more .afterQuote []).step '"' = .ok (k.more .inQuotes ['"']) := hadd
      rw [quotedChar, if_pos rfl, List.cons_append, List.singleton_append,
        run_cons hfirst (by decide), run_cons hsecond (by decide)]
      exact hrest false
    · have hstep : k.step c = .ok (k.more .inQuotes [c]) := by simp [step, hplace, hquote, hadd]
      rw [quotedChar, if_neg hquote, List.singleton_append]
      by_cases hline : c = '\n'
      · -- a line feed is kept, and the record goes on
        rw [hline] at hstep hrest ⊢
        rw [run_lineFeed hstep]
        exact hrest true
      · rw [run_cons hstep hline]
        exact hrest false

/-- Outside quotes a plain character belongs to the cell. -/
theorem step_plain {k : Reader}
    (hplace : k.place = .recordStart ∨ k.place = .cellStart ∨ k.place = .inCell) {c : Char}
    (hc : isPlain c = true) : k.step c = k.add .inCell c := by
  simp only [isPlain, Bool.and_eq_true, decide_eq_true_eq] at hc
  obtain ⟨⟨⟨hcomma, hquote⟩, hfeed⟩, hreturn⟩ := hc
  rcases hplace with h | h | h <;> simp [step, h, plain, hcomma, hquote, hfeed, hreturn]

/-- A text outside quotes is read. -/
theorem run_bare {k : Reader}
    (hplace : k.place = .recordStart ∨ k.place = .cellStart ∨ k.place = .inCell) {s : List Char}
    (hne : s ≠ []) (hplain : ∀ c ∈ s, isPlain c = true) (hfits : k.length + s.length ≤ cellLimit)
    (b : Bool) (t : List Char) : run k b (s ++ t) = run (k.more .inCell s) false t := by
  induction s generalizing k b with
  | nil => exact absurd rfl hne
  | cons c s ih =>
    rw [List.length_cons] at hfits
    obtain ⟨hc, hs⟩ := List.forall_mem_cons.mp hplain
    have hstep : k.step c = .ok (k.more .inCell [c]) := by
      rw [step_plain hplace hc, add_eq_more (by omega)]
    have hline : c ≠ '\n' := by
      rintro rfl
      cases hc
    rw [List.cons_append, run_cons hstep hline]
    by_cases hnil : s = []
    · rw [hnil, List.nil_append]
    · rw [ih (Or.inr (Or.inr (more_place _ _ _))) hnil hs (by simp [more]; omega), more_more,
        List.singleton_append]

/-- Where a cell has been read that began at a place: an empty one without quotes leaves no
trace. -/
def placeAfter (place : Place) : Cell → Place
  | .quoted _ => .afterQuote
  | .bare s => if s = [] then place else .inCell

theorem run_cell {place : Place} (hplace : place = .recordStart ∨ place = .cellStart)
    (cells : List (List Char)) (done : List (List (List Char))) {cell : Cell}
    (hcell : cell.IsReadable) (b : Bool) (c : Char) (t : List Char) :
    run (before place cells done) b (cell.written ++ c :: t) =
      run ((before place cells done).more (placeAfter place cell) cell.text) false (c :: t) := by
  have hfits : (before place cells done).length + cell.text.length ≤ cellLimit := by
    simp [before, hcell.fits]
  cases cell with
  | quoted s =>
    have hstep : (before place cells done).step '"' = .ok (before .inQuotes cells done) := by
      rcases hplace with rfl | rfl <;> rfl
    simp only [Cell.written, List.cons_append, List.append_assoc, List.nil_append]
    rw [run_cons hstep (by decide)]
    exact run_quoted (k := before .inQuotes cells done) rfl hfits false _
  | bare s =>
    by_cases hnil : s = []
    · subst hnil
      rfl
    · simp only [placeAfter, hnil, if_false, Cell.written, Cell.text]
      refine run_bare ?_ hnil (hcell.plain s rfl) hfits b _
      rcases hplace with rfl | rfl
      · exact Or.inl rfl
      · exact Or.inr (Or.inl rfl)

/-! ## Reading a line -/

/-- A cell can be left when it has been read, and before anything has been read of it. -/
def IsDone (place : Place) : Prop :=
  place ≠ .inQuotes ∧ place ≠ .afterRecord

theorem isDone_placeAfter {place : Place} (h : IsDone place) (cell : Cell) :
    IsDone (placeAfter place cell) := by
  cases cell with
  | quoted s => exact ⟨nofun, nofun⟩
  | bare s =>
    simp only [placeAfter]
    split
    · exact h
    · exact ⟨nofun, nofun⟩

/-- A comma ends the cell. -/
theorem run_comma {k : Reader} (hplace : IsDone k.place) (b : Bool) (t : List Char) :
    run k b (',' :: t) = run (before .cellStart (k.cell.reverse :: k.cells) k.done) false t := by
  refine run_cons ?_ (by decide) b t
  cases h : k.place with
  | inQuotes => exact absurd h hplace.1
  | afterRecord => exact absurd h hplace.2
  | recordStart | cellStart | inCell | afterQuote =>
    simp [step, h, plain, endCell, before]

/-- Carriage returns behind a record are passed, up to the line feed. -/
theorem run_afterRecord {k : Reader} (hplace : k.place = .afterRecord) (n : Nat) (b : Bool)
    (t : List Char) :
    run k b (List.replicate n '\r' ++ '\n' :: t) = run k.endRecord true t := by
  have hreturn : k.step '\r' = .ok k := by simp [step, hplace]
  have hfeed : k.step '\n' = .ok k := by simp [step, hplace]
  induction n generalizing b with
  | zero =>
    rw [List.replicate_zero, List.nil_append, run_lineFeed hfeed]
    simp [endLine, hplace]
  | succ n ih =>
    rw [List.replicate_succ, List.cons_append, run_cons hreturn (by decide), ih]

/-- The record that ends here. -/
def record (k : Reader) : List (List Char) :=
  if k.place = .recordStart then k.cells.reverse else (k.cell.reverse :: k.cells).reverse

/-- The end of a line ends the record. -/
theorem run_lineEnd {k : Reader} (hplace : IsDone k.place)
    (hstart : k.place = .recordStart → k.cell = [] ∧ k.length = 0) (n : Nat) (b : Bool)
    (t : List Char) :
    run k b (List.replicate n '\r' ++ '\n' :: t) =
      run (before .recordStart [] (k.record :: k.done)) true t := by
  let ended : Reader :=
    if k.place = .recordStart then { k with place := .afterRecord } else k.endCell .afterRecord
  have hstep : ∀ c, c = '\n' ∨ c = '\r' → k.step c = .ok ended := by
    intro c hc
    cases h : k.place with
    | inQuotes => exact absurd h hplace.1
    | afterRecord => exact absurd h hplace.2
    | recordStart | cellStart | inCell | afterQuote =>
      rcases hc with rfl | rfl <;> simp [step, h, plain, ended]
  have hended : ended.place = .afterRecord := by
    simp only [ended]
    split <;> rfl
  have hrecord : ended.endRecord = before .recordStart [] (k.record :: k.done) := by
    by_cases h : k.place = .recordStart
    · obtain ⟨hcell, hlength⟩ := hstart h
      simp [ended, h, endRecord, record, before, hcell, hlength]
    · simp [ended, h, endRecord, record, before, endCell]
  rw [← hrecord]
  cases n with
  | zero =>
    rw [List.replicate_zero, List.nil_append, run_lineFeed (hstep _ (Or.inl rfl))]
    simp [endLine, hended]
  | succ n =>
    rw [List.replicate_succ, List.cons_append, run_cons (hstep _ (Or.inr rfl)) (by decide)]
    exact run_afterRecord hended n false t

/-- What is at the end of a line. -/
def lineEnd (n : Nat) (t : List Char) : List Char :=
  List.replicate n '\r' ++ '\n' :: t

theorem exists_lineEnd (n : Nat) (t : List Char) : ∃ c u, lineEnd n t = c :: u := by
  cases n with
  | zero => exact ⟨_, _, rfl⟩
  | succ n => exact ⟨_, _, rfl⟩

/-- The last cell of a line. -/
theorem run_lastCell {place : Place} (hplace : place = .recordStart ∨ place = .cellStart)
    (cells : List (List Char)) (done : List (List (List Char))) {cell : Cell}
    (hcell : cell.IsReadable) (n : Nat) (b : Bool) (t : List Char) :
    run (before place cells done) b (cell.written ++ lineEnd n t) =
      run (before .recordStart [] (((before place cells done).more (placeAfter place cell)
        cell.text).record :: done)) true t := by
  obtain ⟨c, u, hend⟩ := exists_lineEnd n t
  have hdone : IsDone place := by rcases hplace with rfl | rfl <;> exact ⟨nofun, nofun⟩
  rw [hend, run_cell hplace cells done hcell, ← hend]
  refine run_lineEnd (isDone_placeAfter hdone cell) (fun hstart => ?_) n false t
  cases cell with
  | quoted s => cases hstart
  | bare s =>
    by_cases hnil : s = []
    · subst hnil
      exact ⟨rfl, rfl⟩
    · simp [placeAfter, hnil] at hstart

/-- A cell that others follow. -/
theorem run_firstCell {place : Place} (hplace : place = .recordStart ∨ place = .cellStart)
    (cells : List (List Char)) (done : List (List (List Char))) {cell : Cell}
    (hcell : cell.IsReadable) (b : Bool) (t : List Char) :
    run (before place cells done) b (cell.written ++ ',' :: t) =
      run (before .cellStart (cell.text :: cells) done) false t := by
  have hdone : IsDone place := by rcases hplace with rfl | rfl <;> exact ⟨nofun, nofun⟩
  rw [run_cell hplace cells done hcell, run_comma (isDone_placeAfter hdone cell)]
  simp [more, before]

/-- The cells after a comma. -/
theorem run_furtherCells {rest : List Cell} (hne : rest ≠ []) (hrest : ∀ c ∈ rest, c.IsReadable)
    (cells : List (List Char)) (done : List (List (List Char))) (n : Nat) (b : Bool)
    (t : List Char) :
    run (before .cellStart cells done) b
        (join [','] (rest.map Cell.written) ++ lineEnd n t) =
      run (before .recordStart [] ((cells.reverse ++ rest.map Cell.text) :: done)) true t := by
  induction rest generalizing cells b with
  | nil => exact absurd rfl hne
  | cons cell rest ih =>
    obtain ⟨hcell, hrest⟩ := List.forall_mem_cons.mp hrest
    by_cases hnil : rest = []
    · subst hnil
      have hplace : placeAfter .cellStart cell ≠ .recordStart := by
        cases cell with
        | quoted s => exact nofun
        | bare s =>
          simp only [placeAfter]
          split <;> exact nofun
      have hrecord : ((before .cellStart cells done).more (placeAfter .cellStart cell)
          cell.text).record = cells.reverse ++ [cell.text] := by
        simp [record, hplace, more, before]
      rw [List.map_singleton, join, run_lastCell (Or.inr rfl) cells done hcell, hrecord]
      rfl
    · rw [List.map_cons, join_cons_of_ne_nil _ _ (by simpa using hnil), List.append_assoc,
        List.append_assoc, List.singleton_append, run_firstCell (Or.inr rfl) cells done hcell,
        ih hnil hrest]
      simp

/-- The record that the cells of a line come to; nothing at all is a record without cells. -/
def recordOf (cells : List Cell) : List (List Char) :=
  if cells = [.bare []] then [] else cells.map Cell.text

/-- A line adds a record to those before it. -/
theorem run_line {l : Line} (hne : l.cells ≠ []) (hcells : ∀ c ∈ l.cells, c.IsReadable)
    (done : List (List (List Char))) (b : Bool) (t : List Char) :
    run (before .recordStart [] done) b (l.written ++ t) =
      run (before .recordStart [] (recordOf l.cells :: done)) true t := by
  obtain ⟨cells, n⟩ := l
  have hend : Line.written ⟨cells, n⟩ ++ t =
      join [','] (cells.map Cell.written) ++ lineEnd n t := by
    simp [Line.written, lineEnd]
  rw [hend]
  cases cells with
  | nil => exact absurd rfl hne
  | cons cell rest =>
    obtain ⟨hcell, hrest⟩ := List.forall_mem_cons.mp hcells
    by_cases hnil : rest = []
    · subst hnil
      have hrecord : ((before .recordStart [] done).more (placeAfter .recordStart cell)
          cell.text).record = recordOf [cell] := by
        cases cell with
        | quoted s => simp [record, placeAfter, recordOf, more, before, Cell.text]
        | bare s =>
          by_cases hs : s = []
          · subst hs
            rfl
          · simp [record, placeAfter, recordOf, hs, more, before, Cell.text]
      rw [List.map_singleton, join, run_lastCell (Or.inl rfl) [] done hcell, hrecord]
    · have hrecord : recordOf (cell :: rest) = cell.text :: rest.map Cell.text := by
        simp [recordOf, hnil]
      rw [List.map_cons, join_cons_of_ne_nil _ _ (by simpa using hnil), List.append_assoc,
        List.append_assoc, List.singleton_append, run_firstCell (Or.inl rfl) [] done hcell,
        run_furtherCells hnil hrest, hrecord]
      rfl

theorem run_lines {lines : List Line} (h : ∀ l ∈ lines, l.cells ≠ [] ∧ ∀ c ∈ l.cells, c.IsReadable)
    (done : List (List (List Char))) :
    run (before .recordStart [] done) true (lines.flatMap Line.written) =
      .ok (done.reverse ++ lines.map fun l => recordOf l.cells) := by
  induction lines generalizing done with
  | nil => simp [run, finish, before]
  | cons l lines ih =>
    obtain ⟨⟨hne, hcells⟩, hrest⟩ := List.forall_mem_cons.mp h
    rw [List.flatMap_cons, run_line hne hcells, ih hrest]
    simp

end Reader

/-! ## Whole sheets -/

/-- A part of a sheet: a row, each of its cells in quotes, or a line of cells without quotes that
has so many carriage returns at its end. -/
inductive Part
  | row (cells : List String)
  | gap (cells : List String) (returns : Nat)
  deriving Repr, DecidableEq

namespace Part

/-- The line that a part is. -/
def line : Part → Line
  | row cells => ⟨cells.map fun c => .quoted c.toList, 0⟩
  | gap cells returns => ⟨cells.map fun c => .bare c.toList, returns⟩

/-- The row that a part is, if it is one. -/
def row? : Part → Option (List String)
  | row cells => some cells
  | gap _ _ => none

end Part

/-- Parts written one after the other, after so many byte order marks. -/
def sheet (marks : Nat) (parts : List Part) : String :=
  String.ofList (List.replicate marks '\ufeff' ++ parts.flatMap fun p => p.line.written)

/-- A row that says something, of trimmed cells that are not too long. -/
structure IsRow (cells : List String) : Prop where
  trimmed : ∀ c ∈ cells, IsTrimmed c.toList
  fits : ∀ c ∈ cells, c.toList.length ≤ cellLimit
  content : hasContent cells = true

/-- The cells of a line that says nothing: blanks of one line, and not too many. -/
structure IsGap (cells : List String) : Prop where
  nonempty : cells ≠ []
  blank : ∀ c ∈ cells, ∀ x ∈ c.toList, isBlank x = true ∧ x ≠ '\n' ∧ x ≠ '\r'
  fits : ∀ c ∈ cells, c.toList.length ≤ cellLimit

instance (cells : List String) : Decidable (IsRow cells) :=
  decidable_of_iff ((∀ c ∈ cells, IsTrimmed c.toList) ∧ (∀ c ∈ cells, c.toList.length ≤ cellLimit) ∧
      hasContent cells = true)
    ⟨fun h => ⟨h.1, h.2.1, h.2.2⟩, fun h => ⟨h.trimmed, h.fits, h.content⟩⟩

instance (cells : List String) : Decidable (IsGap cells) :=
  decidable_of_iff (cells ≠ [] ∧
      (cells.all fun c => c.toList.all fun x => isBlank x && x ≠ '\n' && x ≠ '\r') = true ∧
      ∀ c ∈ cells, c.toList.length ≤ cellLimit)
    (by simp only [List.all_eq_true, Bool.and_eq_true, decide_eq_true_eq, and_assoc]
        exact ⟨fun h => ⟨h.1, h.2.1, h.2.2⟩, fun h => ⟨h.nonempty, h.blank, h.fits⟩⟩)

/-- A part is a row that says something or a line that says nothing. -/
def Part.WellFormed : Part → Prop
  | row cells => IsRow cells
  | gap cells _ => IsGap cells

/-- Every cell of a part can be read. -/
theorem Part.WellFormed.readable {p : Part} (h : p.WellFormed) :
    p.line.cells ≠ [] ∧ ∀ c ∈ p.line.cells, c.IsReadable := by
  cases p with
  | row cells =>
    have h : IsRow cells := h
    refine ⟨fun hnil => ?_, fun cell hcell => ?_⟩
    · obtain rfl := List.map_eq_nil_iff.mp hnil
      exact absurd h.content (by decide)
    · obtain ⟨c, hc, rfl⟩ := List.mem_map.mp hcell
      exact ⟨h.fits c hc, nofun⟩
  | gap cells returns =>
    have h : IsGap cells := h
    refine ⟨fun hnil => h.nonempty (List.map_eq_nil_iff.mp hnil), fun cell hcell => ?_⟩
    obtain ⟨c, hc, rfl⟩ := List.mem_map.mp hcell
    refine ⟨h.fits c hc, ?_⟩
    rintro s ⟨⟩ x hx
    obtain ⟨hblank, hfeed, hreturn⟩ := h.blank c hc x hx
    have hcomma : x ≠ ',' := by
      rintro rfl
      exact absurd hblank (by decide)
    have hquote : x ≠ '"' := by
      rintro rfl
      exact absurd hblank (by decide)
    simp [isPlain, hcomma, hquote, hfeed, hreturn]

/-- No part begins with a byte order mark. -/
theorem Part.WellFormed.head {p : Part} (h : p.WellFormed) {c : Char}
    (hc : p.line.written.head? = some c) : c ≠ '\ufeff' := by
  cases p with
  | row cells =>
    have h : IsRow cells := h
    cases cells with
    | nil => exact absurd h.content (by decide)
    | cons cell cells =>
      have hquote : (Part.row (cell :: cells)).line.written.head? = some '"' := by
        cases cells <;> rfl
      rw [hquote] at hc
      cases hc
      decide
  | gap cells returns =>
    have h : IsGap cells := h
    rintro rfl
    have hmem := List.mem_of_head? hc
    rw [Line.written, List.mem_append] at hmem
    rcases hmem with hmem | hmem
    · rcases mem_join hmem with hcomma | ⟨s, hs, hmem⟩
      · exact absurd hcomma (by decide)
      · simp only [Part.line, List.map_map, List.mem_map] at hs
        obtain ⟨cell, hcell, rfl⟩ := hs
        exact absurd (h.blank cell hcell _ hmem).1 (by decide)
    · simp at hmem

/-- What is kept of the record that a part is read as: the row that it is, or nothing. -/
theorem Part.WellFormed.kept {p : Part} (h : p.WellFormed) :
    [trimCells (Reader.recordOf p.line.cells)].filter hasContent = p.row?.toList := by
  cases p with
  | row cells =>
    have h : IsRow cells := h
    have hquoted : (Part.row cells).line.cells ≠ [.bare []] := by
      intro heq
      obtain ⟨c, -, hc⟩ := List.map_eq_singleton_iff.mp heq
      cases hc
    have htexts : trimCells (Reader.recordOf (Part.row cells).line.cells) = cells := by
      rw [Reader.recordOf, if_neg hquoted]
      simp only [Part.line, trimCells, List.map_map]
      refine (List.map_congr_left fun c hc => ?_).trans (List.map_id cells)
      simp [Cell.text, (h.trimmed c hc).trim_eq]
    rw [htexts]
    simp [h.content, Part.row?]
  | gap cells returns =>
    have h : IsGap cells := h
    have hblank : ∀ text ∈ trimCells (Reader.recordOf (Part.gap cells returns).line.cells),
        text = "" := by
      intro text htext
      obtain ⟨s, hs, rfl⟩ := List.mem_map.mp htext
      unfold Reader.recordOf at hs
      split at hs
      · cases hs
      · simp only [Part.line, List.map_map, List.mem_map] at hs
        obtain ⟨cell, hcell, rfl⟩ := hs
        have htrim := trim_of_blank fun x hx => (h.blank cell hcell x hx).1
        simp [Cell.text, htrim]
    have hnone : hasContent (trimCells (Reader.recordOf (Part.gap cells returns).line.cells)) =
        false := by
      rw [hasContent, List.any_eq_false]
      intro text htext
      simp [hblank text htext]
    simp [hnone, Part.row?]

theorem rows_sheet {parts : List Part} (h : ∀ p ∈ parts, p.WellFormed) (marks : Nat) :
    rows (sheet marks parts) = .ok (parts.filterMap Part.row?) := by
  have hhead : ∀ c, (parts.flatMap fun p => p.line.written).head? = some c →
      decide (c = '\ufeff') = false := by
    intro c hc
    cases parts with
    | nil => cases hc
    | cons p parts =>
      have hne : p.line.written ≠ [] := by simp [Line.written]
      rw [List.flatMap_cons, List.head?_append_of_ne_nil _ hne] at hc
      simpa using (h p List.mem_cons_self).head hc
  have hmarks : stripStart (· = '\ufeff') (sheet marks parts).toList =
      (parts.map Part.line).flatMap Line.written := by
    have hall : ∀ c ∈ List.replicate marks '\ufeff', decide (c = '\ufeff') = true := by
      intro c hc
      simp [List.eq_of_mem_replicate hc]
    rw [sheet, String.toList_ofList, stripStart, List.dropWhile_append_of_pos hall,
      List.flatMap_map]
    exact stripStart_of_head hhead
  have hlines : ∀ l ∈ parts.map Part.line, l.cells ≠ [] ∧ ∀ c ∈ l.cells, c.IsReadable := by
    intro l hl
    obtain ⟨p, hp, rfl⟩ := List.mem_map.mp hl
    exact (h p hp).readable
  have hread := Reader.run_lines hlines []
  have hkept : (((parts.map Part.line).map fun l => Reader.recordOf l.cells).map trimCells).filter
      hasContent = parts.filterMap Part.row? := by
    clear hhead hmarks hlines hread
    induction parts with
    | nil => rfl
    | cons p parts ih =>
      obtain ⟨hp, hrest⟩ := List.forall_mem_cons.mp h
      have hfirst := hp.kept
      rw [List.filterMap_cons, List.map_cons, List.map_cons, List.map_cons,
        ← List.singleton_append, List.filter_append, hfirst, ih hrest]
      cases p <;> rfl
  unfold rows records
  rw [hmarks, show Reader.run {} true _ = _ from hread, ← hkept]
  rfl

/-- A sheet of quoted cells is read as the rows that were written, and lines that say nothing
between them make no difference. -/
theorem rows_written {rs : List (List String)} (hrs : ∀ cells ∈ rs, IsRow cells) (marks : Nat) :
    rows (sheet marks (rs.map .row)) = .ok rs ∧
      ∀ parts, parts.filterMap Part.row? = rs →
        (∀ cells returns, Part.gap cells returns ∈ parts → IsGap cells) →
        rows (sheet marks parts) = .ok rs := by
  have hall : ∀ parts, parts.filterMap Part.row? = rs →
      (∀ cells returns, Part.gap cells returns ∈ parts → IsGap cells) →
      rows (sheet marks parts) = .ok rs := by
    intro parts hparts hgaps
    rw [rows_sheet ?_ marks, hparts]
    intro p hp
    cases p with
    | row cells =>
      have hmem : cells ∈ parts.filterMap Part.row? := List.mem_filterMap.mpr ⟨_, hp, rfl⟩
      exact hrs cells (hparts ▸ hmem)
    | gap cells returns => exact hgaps cells returns hp
  refine ⟨hall _ ?_ ?_, hall⟩
  · simp [List.filterMap_map, Function.comp_def, Part.row?]
  · simp

/-- Rows with marks of sheets in their cells. -/
def someRows : List (List String) :=
  [["say \"hi\",\r\n\nthen go", "", ","], ["\"\""], ["\ufeffb", "ж"]]

/-- An empty line, one with commas and blanks, and one that ends with two characters. -/
theorem rows_written_marks :
    (∀ cells ∈ someRows, IsRow cells) ∧
      rows (sheet 2 (someRows.map .row)) = .ok someRows ∧
      rows (sheet 2 [.gap [""] 0, .row ["say \"hi\",\r\n\nthen go", "", ","],
        .gap ["", " ", "\t"] 0, .row ["\"\""], .row ["\ufeffb", "ж"], .gap [""] 1]) =
        .ok someRows := by
  have hrows : ∀ cells ∈ someRows, IsRow cells := by decide +kernel
  obtain ⟨hplain, hamong⟩ := rows_written hrows 2
  refine ⟨hrows, hplain, hamong _ rfl fun cells returns hmem => ?_⟩
  simp only [List.mem_cons, Part.gap.injEq, List.not_mem_nil, or_false, reduceCtorEq,
    false_or] at hmem
  rcases hmem with ⟨rfl, -⟩ | ⟨rfl, -⟩ | ⟨rfl, -⟩ <;> decide +kernel

end MailRules.Sheet
