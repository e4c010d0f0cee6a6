import Mathlib.Data.List.Nodup
import MailRules.Proofs.Instruction.WellFormed
import MailRules.Sheet.Preview

set_option autoImplicit false

/-!
# Rules of a preview

Each cell of a sheet adds at most one rule to the preview. The rules of a preview are well-formed,
have patterns, and are told apart by their keys (`analyze_sound`).
-/

namespace MailRules.Sheet

open Instruction Extraction

/-! ## Columns -/

/-- The kind that a heading has a word for is a known one. -/
theorem kindIn_isKnown (heading : String) {kind : RuleKind} (h : kindIn heading = some kind) :
    kind.IsKnown := by
  simp only [kindIn] at h
  split at h
  · cases h
    exact fun _ => nofun
  · split at h
    · cases h
      exact fun _ => nofun
    · split at h
      · cases h
        exact fun _ => nofun
      · cases h

/-- A column whose cells are of a known kind, if the column says of which. -/
def Column.HasKnownKind (c : Column) : Prop :=
  ∀ kind, c.kind = some kind → kind.IsKnown

theorem Column.ofHeading_known (index : Nat) (heading : String) :
    (Column.ofHeading index heading).HasKnownKind := by
  simp only [Column.ofHeading]
  split
  · exact nofun
  · split
    · exact nofun
    · split
      · exact nofun
      · intro kind h
        dsimp only at h
        exact kindIn_isKnown heading h

theorem Column.ofHeadings_known {index : Nat} {headings : List String} {c : Column}
    (h : c ∈ Column.ofHeadings index headings) : c.HasKnownKind := by
  induction headings generalizing index with
  | nil => cases h
  | cons heading headings ih =>
    rcases List.mem_cons.mp h with hc | h
    · rw [hc]
      exact Column.ofHeading_known index heading
    · exact ih h

theorem Column.numbered_known {width : Nat} {c : Column} (h : c ∈ Column.numbered width) :
    c.HasKnownKind := by
  obtain ⟨i, -, rfl⟩ := List.mem_map.mp h
  exact nofun

theorem layout_known {default : RuleAction} {rows : List (List String)} {c : Column}
    (h : c ∈ (layout default rows).1) : c.HasKnownKind := by
  unfold layout at h
  split at h
  · cases h
  · simp only at h
    split at h
    · exact Column.ofHeadings_known h
    · exact Column.numbered_known h

theorem column_of_mem_ruleCells {columns : List Column} {number : Nat} {row : List String}
    {cell : RuleCell} (h : cell ∈ ruleCells columns number row) : cell.column ∈ columns := by
  unfold ruleCells withRole at h
  obtain ⟨c, hc, rfl⟩ := List.mem_map.mp (List.mem_filter.mp h).1
  exact (List.mem_filter.mp hc).1

/-- The cells of all rows are those of each, and rows are numbered one after the other. -/
theorem mem_allRuleCells {columns : List Column} {number : Nat} {rows : List (List String)}
    {cell : RuleCell} (h : cell ∈ allRuleCells columns number rows) :
    ∃ i row, rows[i]? = some row ∧ cell ∈ ruleCells columns (number + i) row := by
  induction rows generalizing number with
  | nil => cases h
  | cons row rows ih =>
    rcases List.mem_append.mp h with h | h
    · exact ⟨0, row, rfl, h⟩
    · obtain ⟨i, other, hother, hcell⟩ := ih h
      have hnumber : number + 1 + i = number + (i + 1) := by omega
      exact ⟨i + 1, other, hother, hnumber ▸ hcell⟩

theorem column_of_mem_allRuleCells {columns : List Column} {number : Nat}
    {rows : List (List String)} {cell : RuleCell} (h : cell ∈ allRuleCells columns number rows) :
    cell.column ∈ columns := by
  obtain ⟨i, row, -, hcell⟩ := mem_allRuleCells h
  exact column_of_mem_ruleCells hcell

/-! ## Cells -/

/-- Bringing a draft to the kind in the heading keeps it well-formed. -/
theorem withKind_wellFormed {kind : Option RuleKind} (hkind : ∀ k, kind = some k → k.IsKnown)
    {d : Draft} (h : d.WellFormed) : (withKind kind d).WellFormed := by
  cases kind with
  | none => exact h
  | some k =>
    simp only [withKind]
    split
    · exact h
    · exact ⟨hkind k rfl, ⟨d.pattern, rfl⟩, h.exception, h.notes, h.confidence⟩

/-- A text that is canonical, or else one from another column. -/
theorem orElse_canonical {canonical : Option String → Option String} {t u : Option String}
    (h : ∃ e, t = canonical e) :
    ∃ e, ((t.filter (· ≠ "")).orElse fun _ => canonical u) = canonical e := by
  cases hfilter : t.filter (· ≠ "") with
  | none => exact ⟨u, rfl⟩
  | some s =>
    obtain ⟨e, rfl⟩ := h
    obtain ⟨heq, -⟩ := Option.filter_eq_some_iff.mp hfilter
    exact ⟨e, heq.symm⟩

/-- What the other columns say keeps a draft well-formed. -/
theorem complete_wellFormed (cell : RuleCell) (default : RuleAction) {d : Draft}
    (h : d.WellFormed) : (cell.complete default d).WellFormed where
  kind := h.kind
  pattern := h.pattern
  exception := orElse_canonical h.exception
  notes := orElse_canonical h.notes
  confidence := h.confidence

/-- What is read from a cell is well-formed. -/
theorem read_wellFormed {cell : RuleCell} (hcell : cell.column.HasKnownKind) {default : RuleAction}
    {assistant : Option Assistant} {found : Found}
    (h : (cell.read default assistant).result = .ok found) : found.draft.WellFormed := by
  simp only [RuleCell.read] at h
  split at h
  · rename_i d hguess
    cases h
    exact guess_wellFormed hguess
  · rename_i g k _ hkind
    cases h
    exact ⟨hcell k hkind, ⟨cell.value, rfl⟩, ⟨none, rfl⟩, ⟨none, rfl⟩, nofun⟩
  · exact parse_wellFormed h

/-! ## The pass over the cells -/

/-- What holds of the rules that a pass has found so far: they are well-formed and have patterns,
and their keys are what has been seen, each once. -/
structure Progress.Sorted (p : Progress) : Prop where
  wellFormed : ∀ d ∈ p.entries.map (fun e => e.draft), d.WellFormed ∧ d.pattern ≠ ""
  seen : p.seen = ((p.entries.map fun e => e.draft).map Draft.key).reverse
  once : p.seen.Nodup

/-- Nothing has been found at the start. -/
theorem Progress.Sorted.start (assistant : Option Assistant) :
    Progress.Sorted { assistant := assistant } :=
  ⟨fun _ hd => absurd hd List.not_mem_nil, rfl, List.nodup_nil⟩

theorem Progress.Sorted.fail {p : Progress} (h : p.Sorted) (cell : RuleCell) (message : String) :
    (p.fail cell message).Sorted :=
  ⟨h.wellFormed, h.seen, h.once⟩

theorem Progress.Sorted.after {p : Progress} (h : p.Sorted) (parsing : Parsing) :
    (p.after parsing).Sorted :=
  ⟨h.wellFormed, h.seen, h.once⟩

/-- A rule is taken in if it has a pattern and its key has not been seen. -/
theorem Progress.Sorted.take {p : Progress} (h : p.Sorted) {cell : RuleCell}
    (hcell : cell.column.HasKnownKind) (default : RuleAction) {found : Found}
    (hfound : found.draft.WellFormed) : (p.take cell default found).Sorted := by
  simp only [Progress.take]
  split
  · exact h.fail cell _
  · rename_i hpattern
    split
    · exact h
    · -- the draft has a pattern, and its key is new
      rename_i hseen
      refine ⟨?_, ?_, ?_⟩
      · intro d hd
        rw [List.map_append, List.mem_append] at hd
        rcases hd with hd | hd
        · exact h.wellFormed d hd
        · obtain rfl := List.mem_singleton.mp hd
          exact ⟨complete_wellFormed cell default (withKind_wellFormed hcell hfound), hpattern⟩
      · simp [h.seen]
      · exact List.nodup_cons.mpr ⟨by simpa using hseen, h.once⟩

theorem Progress.Sorted.run {p : Progress} (h : p.Sorted) (default : RuleAction)
    {cells : List RuleCell} (hcells : ∀ cell ∈ cells, cell.column.HasKnownKind) :
    (Progress.run default p cells).2.Sorted := by
  induction cells generalizing p with
  | nil => exact h
  | cons cell cells ih =>
    obtain ⟨hcell, hrest⟩ := List.forall_mem_cons.mp hcells
    have hafter := h.after (cell.read default p.assistant)
    unfold Progress.run
    simp only
    split
    · rename_i found hfound
      exact ih (hafter.take hcell default (read_wellFormed hcell hfound)) hrest
    · exact hafter
    · exact ih (hafter.fail cell _) hrest

/-! ## Previews -/

/-- The drafts of a preview, in order. -/
def Preview.drafts (p : Preview) : List Draft :=
  p.entries.map fun e => e.draft

/-- The rules of a preview are well-formed, have patterns, and are told apart by their keys. -/
structure Preview.IsSound (p : Preview) : Prop where
  wellFormed : ∀ d ∈ p.drafts, d.WellFormed ∧ d.pattern ≠ ""
  once : (p.drafts.map Draft.key).Nodup

/-- A preview is what a pass over all cells that is not broken off comes to. -/
theorem analyze_eq_ok {assistant : Option Assistant} {default : RuleAction} {text : String}
    {a : Analysis} {p : Preview} {rs data : List (List String)} {columns : List Column}
    {number : Nat} (ha : analyze assistant default text = .ok a) (hp : a.result = .ok p)
    (hrows : rows text = .ok rs) (hlayout : layout default rs = (columns, number, data)) :
    ∃ q, Progress.run default { assistant := assistant } (allRuleCells columns number data) =
        (none, q) ∧ p = ⟨q.entries, q.errors, data.length⟩ := by
  rw [analyze, hrows] at ha
  cases ha
  unfold analyzeRows at hp
  split at hp
  · next hempty =>
    -- without rows there are no cells
    rw [List.isEmpty_iff] at hempty
    subst hempty
    cases hlayout
    cases hp
    exact ⟨_, rfl, rfl⟩
  · simp only [hlayout] at hp
    split at hp
    · cases hp
    · next hbroken =>
      cases hp
      exact ⟨_, Prod.ext hbroken rfl, rfl⟩

theorem known_of_layout {default : RuleAction} {rows data : List (List String)}
    {columns : List Column} {number : Nat}
    (hlayout : layout default rows = (columns, number, data)) :
    ∀ cell ∈ allRuleCells columns number data, cell.column.HasKnownKind := by
  intro cell hcell
  have hcolumn : cell.column ∈ (layout default rows).1 := by
    rw [hlayout]
    exact column_of_mem_allRuleCells hcell
  exact layout_known hcolumn

/-- The rules of the preview of a sheet. -/
theorem analyze_sound {assistant : Option Assistant} {default : RuleAction} {text : String}
    {a : Analysis} {p : Preview} (ha : analyze assistant default text = .ok a)
    (hp : a.result = .ok p) : p.IsSound := by
  obtain ⟨rs, hrows, -⟩ := map_eq_ok.mp ha
  rcases hlayout : layout default rs with ⟨columns, number, data⟩
  obtain ⟨q, hrun, rfl⟩ := analyze_eq_ok ha hp hrows hlayout
  have hsorted := (Progress.Sorted.start assistant).run default (known_of_layout hlayout)
  rw [hrun] at hsorted
  -- keys are noted with the last one first
  have honce := hsorted.once
  rw [hsorted.seen] at honce
  exact ⟨hsorted.wellFormed, List.nodup_reverse.mp honce⟩

end MailRules.Sheet
