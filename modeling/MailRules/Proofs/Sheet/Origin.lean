import MailRules.Proofs.Sheet.Preview

set_option autoImplicit false

/-!
# Where the rules of a preview come from

Each rule of a preview comes from a cell: it is what the cell was read as when its turn came, with
what the heading and the other columns of its row say (`analyze_isFrom`). Only a cell that went to
the assistant can bring an exception of its own (`read_exception`).
-/

namespace MailRules.Sheet

open Instruction Extraction

/-! ## Cells -/

/-- Only the assistant makes exceptions. -/
theorem read_exception {cell : RuleCell} {default : RuleAction} {assistant : Option Assistant}
    {found : Found} (h : (cell.read default assistant).result = .ok found)
    (hne : found.draft.exception ≠ none) : found.strategy = .assistant := by
  simp only [RuleCell.read] at h
  split at h
  · rename_i d hguess
    cases h
    exact absurd (guess_exception hguess) hne
  · cases h
    exact absurd rfl hne
  · exact parse_exception h hne

/-- A cell knows its row, and what the columns of exceptions say there. -/
theorem of_mem_ruleCells {columns : List Column} {number : Nat} {row : List String}
    {cell : RuleCell} (h : cell ∈ ruleCells columns number row) :
    cell.row = number ∧ cell.exception = joinedCells row (withRole .exception columns) := by
  obtain ⟨c, -, rfl⟩ := List.mem_map.mp (List.mem_filter.mp h).1
  exact ⟨rfl, rfl⟩

/-! ## The pass over the cells -/

/-- A rule that a pass over cells finds, the cell that it comes from, and what the cell was read as
when its turn came. -/
structure IsFrom (default : RuleAction) (start : Progress) (cells : List RuleCell)
    (entry : PreviewEntry) (cell : RuleCell) (found : Found) : Prop where
  turn : ∃ before after, cells = before ++ cell :: after ∧
    (cell.read default (Progress.run default start before).2.assistant).result = .ok found
  entry : entry = ⟨cell.complete default (withKind cell.column.kind found.draft), found.strategy,
    cell.row, cell.column.heading⟩

theorem IsFrom.mem {default : RuleAction} {start : Progress} {cells : List RuleCell}
    {entry : PreviewEntry} {cell : RuleCell} {found : Found}
    (h : IsFrom default start cells entry cell found) : cell ∈ cells := by
  obtain ⟨before, after, hcells, -⟩ := h.turn
  rw [hcells]
  exact List.mem_append_right before List.mem_cons_self

/-- What is found in later cells is found after a first one. -/
theorem IsFrom.cons {default : RuleAction} {start next : Progress} {first : RuleCell}
    {cells : List RuleCell} {entry : PreviewEntry} {cell : RuleCell} {found : Found}
    (hnext : ∀ rest, Progress.run default start (first :: rest) = Progress.run default next rest)
    (h : IsFrom default next cells entry cell found) :
    IsFrom default start (first :: cells) entry cell found := by
  obtain ⟨before, after, rfl, hread⟩ := h.turn
  exact ⟨⟨first :: before, after, rfl, by rw [hnext]; exact hread⟩, h.entry⟩

/-- Taking in a rule adds nothing but the rule. -/
theorem Progress.mem_take {p : Progress} {cell : RuleCell} {default : RuleAction} {found : Found}
    {entry : PreviewEntry} (h : entry ∈ (p.take cell default found).entries) :
    entry ∈ p.entries ∨ entry = ⟨cell.complete default (withKind cell.column.kind found.draft),
      found.strategy, cell.row, cell.column.heading⟩ := by
  simp only [Progress.take] at h
  split at h
  · exact Or.inl h
  · split at h
    · exact Or.inl h
    · rw [List.mem_append, List.mem_singleton] at h
      exact h

/-- A pass adds nothing but what it finds in cells. -/
theorem Progress.mem_run {default : RuleAction} {p : Progress} {cells : List RuleCell}
    {entry : PreviewEntry} (h : entry ∈ (Progress.run default p cells).2.entries) :
    entry ∈ p.entries ∨ ∃ cell found, IsFrom default p cells entry cell found := by
  induction cells generalizing p with
  | nil => exact Or.inl h
  | cons cell cells ih =>
    cases hresult : (cell.read default p.assistant).result with
    | ok found =>
      have hnext : ∀ rest, Progress.run default p (cell :: rest) = Progress.run default
          ((p.after (cell.read default p.assistant)).take cell default found) rest := by
        intro rest
        simp only [Progress.run, hresult]
      rw [hnext] at h
      rcases ih h with h | ⟨later, found', hfrom⟩
      · rcases Progress.mem_take h with h | hentry
        · exact Or.inl h
        · exact Or.inr ⟨cell, found, ⟨[], cells, rfl, hresult⟩, hentry⟩
      · exact Or.inr ⟨later, found', hfrom.cons hnext⟩
    | error fault =>
      by_cases hbreaks : ∃ f, fault = .refused (.unreadable f)
      · obtain ⟨f, rfl⟩ := hbreaks
        simp only [Progress.run, hresult] at h
        exact Or.inl h
      · have hnext : ∀ rest, Progress.run default p (cell :: rest) = Progress.run default
            ((p.after (cell.read default p.assistant)).fail cell fault.message) rest := by
          intro rest
          simp only [Progress.run, hresult]
          split
          · next heq => cases heq
          · next f heq =>
            cases heq
            exact absurd ⟨f, rfl⟩ hbreaks
          · next heq =>
            cases heq
            rfl
        rw [hnext] at h
        rcases ih h with h | ⟨later, found', hfrom⟩
        · exact Or.inl h
        · exact Or.inr ⟨later, found', hfrom.cons hnext⟩

/-- Each rule of the preview of a sheet comes from one of its cells. -/
theorem analyze_isFrom {assistant : Option Assistant} {default : RuleAction} {text : String}
    {a : Analysis} {p : Preview} {rs data : List (List String)} {columns : List Column}
    {number : Nat} {entry : PreviewEntry} (ha : analyze assistant default text = .ok a)
    (hp : a.result = .ok p) (hrows : rows text = .ok rs)
    (hlayout : layout default rs = (columns, number, data)) (hentry : entry ∈ p.entries) :
    ∃ cell found, IsFrom default { assistant := assistant } (allRuleCells columns number data) entry
      cell found := by
  obtain ⟨q, hrun, rfl⟩ := analyze_eq_ok ha hp hrows hlayout
  have hmem : entry ∈ (Progress.run default { assistant := assistant }
      (allRuleCells columns number data)).2.entries := by
    rw [hrun]
    exact hentry
  exact (Progress.mem_run hmem).resolve_left List.not_mem_nil

end MailRules.Sheet
