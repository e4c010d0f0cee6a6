import MailRules.Proofs.Sheet.Origin
import MailRules.Proofs.Text.Join
import MailRules.Proofs.Thread.Verdict

set_option autoImplicit false

/-!
# Exceptions of a row

The cells of a row that say something in columns of exceptions make one exception, joined in the
order of the columns (`exception_joined`). It is that of every rule of the row that the assistant
has made no exception for, and titles are excepted by all of it or not at all. So titles with what
one cell says are excepted just where the cell is the only one, or says what the assistant did.
-/

namespace MailRules.Sheet

open Instruction Extraction Text

/-! ## Cells of exceptions -/

/-- What a row says in the columns of exceptions. -/
def exceptionCells (columns : List Column) (row : List String) : List String :=
  ((withRole .exception columns).map fun c => cellAt row c.index).filter (· ≠ "")

/-- Texts in lower case with semicolons in between, if there are any. -/
def joinedLower (cells : List String) : Option String :=
  if cells = [] then none else some (joinWith "; " (cells.map lowered))

theorem joinedCells_exception (columns : List Column) (row : List String) :
    joinedCells row (withRole .exception columns) =
      if exceptionCells columns row = [] then none
      else some (joinWith "; " (exceptionCells columns row)) := by
  have hcells : ((withRole .exception columns).map fun c => cellAt row c.index).filter (· ≠ "") =
      exceptionCells columns row := rfl
  unfold joinedCells
  rw [hcells]
  cases exceptionCells columns row <;> simp

/-- A cell that says something neither begins nor ends with a blank. -/
theorem of_mem_exceptionCells {columns : List Column} {row : List String} {e : String}
    (h : e ∈ exceptionCells columns row) : e ≠ "" ∧ IsTrimmed e.toList := by
  obtain ⟨hmem, hne⟩ := List.mem_filter.mp h
  obtain ⟨c, -, rfl⟩ := List.mem_map.mp hmem
  refine ⟨by simpa using hne, ?_⟩
  rw [cellAt, toList_mapText]
  exact isTrimmed_trim _

theorem exception_of_trimmed {e : String} (hne : e ≠ "") (h : IsTrimmed e.toList) :
    Canonical.exception (some e) = some (lowered e) := by
  rw [Canonical.exception_of_not_blank (Canonical.isBlankText_of_isTrimmed h hne), lowered, mapText,
    mapText, h.trim_eq]

/-- A semicolon and a space keep what stands before them apart from what follows. -/
theorem isBreak_semicolon : IsBreak "; ".toList where
  plain := by decide
  parting := by decide +kernel
  ahead := by decide +kernel
  behind := by decide +kernel

/-- Cells are brought into canonical form one by one. -/
theorem exception_joined {cells : List String} (hne : cells ≠ [])
    (h : ∀ e ∈ cells, e ≠ "" ∧ IsTrimmed e.toList) :
    Canonical.exception (some (joinWith "; " cells)) =
      some (joinWith "; " (cells.map lowered)) := by
  have hparts : ∀ s ∈ cells.map String.toList, s ≠ [] ∧ IsTrimmed s := by
    intro s hs
    obtain ⟨e, he, rfl⟩ := List.mem_map.mp hs
    obtain ⟨hempty, htrimmed⟩ := h e he
    exact ⟨fun hnil => hempty (String.toList_eq_nil_iff.mp hnil), htrimmed⟩
  have hchars : (joinWith "; " cells).toList = join "; ".toList (cells.map String.toList) :=
    String.toList_ofList
  obtain ⟨hjoin, htrimmed⟩ := isTrimmed_join "; ".toList (by simpa using hne) hparts
  rw [← hchars] at hjoin htrimmed
  rw [exception_of_trimmed (fun hempty => hjoin (String.toList_eq_nil_iff.mpr hempty)) htrimmed]
  have hlower : lower "; ".toList = "; ".toList := by decide +kernel
  rw [lowered, mapText, hchars, isBreak_semicolon.lower_join, hlower, joinWith, List.map_map,
    List.map_map]
  have hcells : lower ∘ String.toList = String.toList ∘ lowered := by
    funext e
    simp [lowered]
  rw [hcells]

theorem canonical_joinedCells (columns : List Column) (row : List String) :
    Canonical.exception (joinedCells row (withRole .exception columns)) =
      joinedLower (exceptionCells columns row) := by
  rw [joinedCells_exception]
  unfold joinedLower
  by_cases hnil : exceptionCells columns row = []
  · simp [hnil, Canonical.exception]
  · rw [if_neg hnil, if_neg hnil]
    exact exception_joined hnil fun e he => of_mem_exceptionCells he

/-- A canonical exception is not empty. -/
theorem ne_of_exception {e : Option String} {x : String} (h : Canonical.exception e = some x) :
    x ≠ "" := by
  rintro rfl
  have hblank : isBlankText "" = false := Canonical.isBlankText_exception h
  cases hblank

/-! ## Titles -/

/-- Every title that has a text in canonical form is excepted from the rules of a draft. -/
def Excepts (d : Draft) (e : String) : Prop :=
  ∀ x, Canonical.exception (some e) = some x → ∀ (r : Rule) (s : Subject), r.draft = d →
    includes s.title x = true → r.excepts s = true

theorem includes_self (s : String) : includes s s = true :=
  occursIn_iff.mpr List.infix_rfl

/-- A rule excepts the titles that have the whole of its exception. -/
theorem excepts_eq_true_iff {r : Rule} {s : Subject} (hne : r.draft.exception ≠ some "") :
    r.excepts s = true ↔ ∃ x, r.draft.exception = some x ∧ includes s.title x = true := by
  unfold Rule.excepts
  cases hexception : r.draft.exception with
  | none => simp
  | some x =>
    have hx : x ≠ "" := by
      rintro rfl
      exact hne hexception
    simp [hx]

/-- Titles with a text are excepted if the exception is part of the text, and only then, since the
text may be all of the title. -/
theorem excepts_iff {d : Draft} {e x : String} (hne : e ≠ "") (htrimmed : IsTrimmed e.toList)
    (hd : d.exception = some x) (hx : x ≠ "") : Excepts d e ↔ includes (lowered e) x = true := by
  have hcanonical : Canonical.exception (some e) = some (lowered e) :=
    exception_of_trimmed hne htrimmed
  constructor
  · intro h
    have hwhole := h (lowered e) hcanonical ⟨"", d, ""⟩ ⟨"", "", lowered e⟩ rfl (includes_self _)
    simpa [Rule.excepts, hd, hx] using hwhole
  · intro h y hy r s hr htitle
    obtain rfl : lowered e = y := Option.some.inj (hcanonical.symm.trans hy)
    have hinfix : includes s.title x = true :=
      occursIn_iff.mpr ((occursIn_iff.mp h).trans (occursIn_iff.mp htitle))
    simp [Rule.excepts, hr, hd, hx, hinfix]

/-- Of joined cells, one has all of the text just if it is the only one. -/
theorem includes_joined_iff {cells : List String} {e : String} (he : e ∈ cells) :
    includes (lowered e) (joinWith "; " (cells.map lowered)) = true ↔ cells = [e] := by
  constructor
  · intro h
    by_contra hmore
    have hpart : (lowered e).toList ∈ (cells.map lowered).map String.toList :=
      List.mem_map_of_mem (List.mem_map_of_mem he)
    have hseveral : (cells.map lowered).map String.toList ≠ [(lowered e).toList] := by
      intro hone
      obtain ⟨c, hc, -⟩ := List.map_eq_singleton_iff.mp hone
      obtain ⟨f, hf, -⟩ := List.map_eq_singleton_iff.mp hc
      rw [hf, List.mem_singleton] at he
      exact hmore (he ▸ hf)
    have hsep : "; ".toList ≠ [] := by decide
    have hshorter := length_lt_join hsep hpart hseveral
    have hlonger := (occursIn_iff.mp h).length_le
    rw [joinWith, String.toList_ofList] at hlonger
    omega
  · rintro rfl
    rw [List.map_singleton, joinWith, List.map_singleton, join, String.ofList_toList]
    exact includes_self _

/-! ## Rules of a preview -/

@[simp] theorem withKind_exception (kind : Option RuleKind) (d : Draft) :
    (withKind kind d).exception = d.exception := by
  unfold withKind
  split
  · split <;> rfl
  · rfl

/-- The exception of a draft for a rule that was found in a row. -/
structure HasExceptionOf (cells : List String) (found : Found) (d : Draft) : Prop where
  /-- What was found has an exception of its own only if the assistant has made it. -/
  assistant : found.draft.exception ≠ none → found.strategy = .assistant
  /-- That of the row stands where there is none of its own. -/
  exception : d.exception = found.draft.exception.or (joinedLower cells)
  /-- Titles are excepted that have all of it. -/
  whole : ∀ (r : Rule) (s : Subject), r.draft = d →
    (r.excepts s = true ↔ ∃ x, d.exception = some x ∧ includes s.title x = true)
  /-- Where the row has a say, titles with what one cell says are excepted just if it is the only
  one. -/
  row : found.draft.exception = none → ∀ e ∈ cells, Excepts d e ↔ cells = [e]
  /-- Where the assistant has made an exception, they are just if the cell says that too. -/
  own : ∀ x, found.draft.exception = some x → ∀ e ∈ cells,
    Excepts d e ↔ includes (lowered e) x = true

theorem own_exception_ne {found : Found} (h : found.draft.WellFormed) {x : String}
    (hx : found.draft.exception = some x) : x ≠ "" := by
  obtain ⟨e, he⟩ := h.exception
  exact ne_of_exception (he.symm.trans hx)

/-- A completed draft has its own exception, or else that of the row. -/
theorem complete_exception {columns : List Column} {number : Nat} {row : List String}
    {cell : RuleCell} (hcell : cell ∈ ruleCells columns number row) {found : Found}
    (h : found.draft.WellFormed) (default : RuleAction) (kind : Option RuleKind) :
    (cell.complete default (withKind kind found.draft)).exception =
      found.draft.exception.or (joinedLower (exceptionCells columns row)) := by
  have hrow : Canonical.exception cell.exception = joinedLower (exceptionCells columns row) := by
    rw [(of_mem_ruleCells hcell).2, canonical_joinedCells]
  show ((withKind kind found.draft).exception.filter (· ≠ "")).orElse
    (fun _ => Canonical.exception cell.exception) = _
  rw [withKind_exception, hrow]
  cases hx : found.draft.exception with
  | none => rfl
  | some x => simp [own_exception_ne h hx]

theorem hasExceptionOf {cells : List String} (hcells : ∀ e ∈ cells, e ≠ "" ∧ IsTrimmed e.toList)
    {found : Found} (hfound : found.draft.WellFormed)
    (hassistant : found.draft.exception ≠ none → found.strategy = .assistant) {d : Draft}
    (hd : d.exception = found.draft.exception.or (joinedLower cells)) :
    HasExceptionOf cells found d := by
  have hjoined : ∀ x, joinedLower cells = some x → x ≠ "" := by
    intro x hx
    unfold joinedLower at hx
    by_cases hnil : cells = []
    · rw [if_pos hnil] at hx
      cases hx
    · rw [if_neg hnil, ← exception_joined hnil hcells] at hx
      exact ne_of_exception hx
  have hne : d.exception ≠ some "" := by
    intro hempty
    rw [hd] at hempty
    cases hown : found.draft.exception with
    | none =>
      rw [hown, Option.none_or] at hempty
      exact hjoined "" hempty rfl
    | some x =>
      rw [hown, Option.some_or] at hempty
      exact own_exception_ne hfound hown (Option.some.inj hempty)
  refine ⟨hassistant, hd, ?_, ?_, ?_⟩
  · intro r s hr
    rw [← hr] at hne ⊢
    exact excepts_eq_true_iff hne
  · intro hnone e he
    obtain ⟨hempty, htrimmed⟩ := hcells e he
    rw [hnone, Option.none_or] at hd
    have hwhole : joinedLower cells = some (joinWith "; " (cells.map lowered)) :=
      if_neg (List.ne_nil_of_mem he)
    rw [excepts_iff hempty htrimmed (hd.trans hwhole) (hjoined _ hwhole), includes_joined_iff he]
  · intro x hx e he
    obtain ⟨hempty, htrimmed⟩ := hcells e he
    rw [hx, Option.some_or] at hd
    exact excepts_iff hempty htrimmed hd (own_exception_ne hfound hx)

/-- Each rule of a preview that comes from a row has one exception: the one that the assistant has
made for its cell, if there is one, and otherwise all that the row says in the columns of
exceptions, joined. -/
theorem previewed_exception {assistant : Option Assistant} {default : RuleAction} {text : String}
    {a : Analysis} {p : Preview} {rs data : List (List String)} {columns : List Column}
    {number i : Nat} {row : List String} {entry : PreviewEntry}
    (ha : analyze assistant default text = .ok a) (hp : a.result = .ok p)
    (hrows : rows text = .ok rs) (hlayout : layout default rs = (columns, number, data))
    (hrow : data[i]? = some row) (hentry : entry ∈ p.entries) (hnumber : entry.row = number + i) :
    ∃ cell ∈ ruleCells columns (number + i) row, ∃ found,
      IsFrom default { assistant := assistant } (allRuleCells columns number data) entry cell
        found ∧
      HasExceptionOf (exceptionCells columns row) found entry.draft := by
  obtain ⟨cell, found, hfrom⟩ := analyze_isFrom ha hp hrows hlayout hentry
  obtain ⟨j, other, hother, hcell⟩ := mem_allRuleCells hfrom.mem
  have hcolumn : cell.column ∈ (layout default rs).1 := by
    rw [hlayout]
    exact column_of_mem_allRuleCells hfrom.mem
  have hfound : found.draft.WellFormed ∧ (found.draft.exception ≠ none →
      found.strategy = .assistant) := by
    obtain ⟨before, after, -, hread⟩ := hfrom.turn
    exact ⟨read_wellFormed (layout_known hcolumn) hread, read_exception hread⟩
  -- the number of the row tells which row it is
  have hplace : j = i := by
    have hnumbered := (of_mem_ruleCells hcell).1
    rw [hfrom.entry] at hnumber
    have hsame : cell.row = number + i := hnumber
    omega
  subst hplace
  obtain rfl : row = other := Option.some.inj (hrow.symm.trans hother)
  refine ⟨cell, hcell, found, hfrom, ?_⟩
  rw [hfrom.entry]
  exact hasExceptionOf (fun e he => of_mem_exceptionCells he) hfound.1 hfound.2
    (complete_exception hcell hfound.1 default cell.column.kind)

/-! ## Sheets with one cell of exceptions, and with more to say -/

/-- The number of the first row of data of a sheet, and what the rows say in columns of
exceptions. -/
def rowExceptions (text : String) : Option (Nat × List (List String)) :=
  (rows text).toOption.map fun rs =>
    ((layout .vip rs).2.1, (layout .vip rs).2.2.map (exceptionCells (layout .vip rs).1))

/-- The rules in the preview of a sheet: their rows, how they were found, and their exceptions. -/
def shownExceptions (assistant : Option Assistant) (text : String) :
    Option (List (Nat × Strategy × Option String)) :=
  (analyze assistant .vip text).toOption.bind fun a => a.result.toOption.map fun p =>
    p.entries.map fun e => (e.row, e.strategy, e.draft.exception)

theorem exists_of_shown {assistant : Option Assistant} {text : String} {row : Nat}
    {strategy : Strategy} {exception : Option String}
    (h : shownExceptions assistant text = some [(row, strategy, exception)]) :
    ∃ a p entry, analyze assistant .vip text = .ok a ∧ a.result = .ok p ∧ entry ∈ p.entries ∧
      entry.row = row ∧ entry.strategy = strategy ∧ entry.draft.exception = exception := by
  unfold shownExceptions at h
  rcases ha : analyze assistant .vip text with f | a
  · rw [ha] at h
    cases h
  · rcases hp : a.result with f | p
    · simp [ha, hp, Except.toOption] at h
    · have hshown : p.entries.map (fun e => (e.row, e.strategy, e.draft.exception)) =
          [(row, strategy, exception)] := by
        simpa [ha, hp, Except.toOption] using h
      obtain ⟨entry, hentries, hentry⟩ := List.map_eq_singleton_iff.mp hshown
      cases hentry
      exact ⟨a, p, entry, rfl, hp, by simp [hentries], rfl, rfl, rfl⟩

/-- A sheet with two columns of exceptions, of which the row uses one. -/
def oneUnless : String :=
  "Blocked senders,Unless,Skip if\nann@x.com,,Urgent\n"

/-- A single exception stands. -/
theorem previewed_exception_single :
    ∃ a p entry, analyze none .vip oneUnless = .ok a ∧ a.result = .ok p ∧ entry ∈ p.entries ∧
      entry.row = 2 ∧ Excepts entry.draft "Urgent" := by
  have hshown : shownExceptions none oneUnless = some [(2, .heuristic, some "urgent")] := by
    decide +kernel
  obtain ⟨a, p, entry, ha, hp, hentry, hnumber, hstrategy, -⟩ := exists_of_shown hshown
  refine ⟨a, p, entry, ha, hp, hentry, hnumber, ?_⟩
  have hrows : rows oneUnless = .ok [["Blocked senders", "Unless", "Skip if"],
      ["ann@x.com", "", "Urgent"]] := by rfl
  obtain ⟨cell, -, found, hfrom, hexception⟩ :=
    previewed_exception (i := 0) ha hp hrows rfl rfl hentry hnumber
  have hnone : found.draft.exception = none := by
    by_contra hne
    have hassistant := hexception.assistant hne
    rw [hfrom.entry] at hstrategy
    cases hstrategy.symm.trans hassistant
  exact (hexception.row hnone "Urgent" (by decide +kernel)).mpr (by decide +kernel)

/-- A sheet whose row uses both. -/
def twoUnless : String :=
  "Blocked senders,Unless,Skip if\nann@x.com,urgent,payroll\n"

/-- A sheet with an instruction that makes an exception, and a column that makes another. -/
def unlessTwice : String :=
  "Block,Unless\nnewsletters with no invoice,urgent\n"

/-- An assistant that reads that instruction. -/
def reader : Assistant :=
  .script [.answer (.value (.object [("type", .str "TOPIC"), ("pattern", .str "newsletter"),
    ("action", .str "SUPPRESS"), ("unless_contains", .str "invoice")]))]

/-- What a cell says in a column of exceptions is lost where another cell says something, and where
the assistant makes an exception. -/
theorem exception_lost :
    (rowExceptions twoUnless = some (2, [["urgent", "payroll"]]) ∧
      ∃ a p entry, analyze none .vip twoUnless = .ok a ∧ a.result = .ok p ∧ entry ∈ p.entries ∧
        entry.row = 2 ∧ entry.draft.exception = some "urgent; payroll" ∧
        ¬Excepts entry.draft "urgent") ∧
    (rowExceptions unlessTwice = some (2, [["urgent"]]) ∧
      ∃ a p entry, analyze (some reader) .vip unlessTwice = .ok a ∧ a.result = .ok p ∧
        entry ∈ p.entries ∧ entry.row = 2 ∧ entry.draft.exception = some "invoice" ∧
        ¬Excepts entry.draft "urgent") := by
  have htrimmed : IsTrimmed "urgent".toList :=
    ⟨by rintro c ⟨⟩; decide, by rintro c ⟨⟩; decide⟩
  refine ⟨⟨by decide +kernel, ?_⟩, by decide +kernel, ?_⟩
  · have hshown : shownExceptions none twoUnless =
        some [(2, .heuristic, some "urgent; payroll")] := by decide +kernel
    obtain ⟨a, p, entry, ha, hp, hentry, hnumber, -, hexception⟩ := exists_of_shown hshown
    refine ⟨a, p, entry, ha, hp, hentry, hnumber, hexception, fun h => ?_⟩
    have hwhole := (excepts_iff (by decide) htrimmed hexception (by decide)).mp h
    exact absurd hwhole (by decide +kernel)
  · have hshown : shownExceptions (some reader) unlessTwice =
        some [(2, .assistant, some "invoice")] := by decide +kernel
    obtain ⟨a, p, entry, ha, hp, hentry, hnumber, -, hexception⟩ := exists_of_shown hshown
    refine ⟨a, p, entry, ha, hp, hentry, hnumber, hexception, fun h => ?_⟩
    have hwhole := (excepts_iff (by decide) htrimmed hexception (by decide)).mp h
    exact absurd hwhole (by decide +kernel)

end MailRules.Sheet
