import MailRules.Proofs.Sheet.Account

set_option autoImplicit false

/-!
# Rows that are added to a sheet

The first row decides whether a sheet has headings, the longest one how many columns there are
without headings. So rows at the end of a sheet add columns at most, and in these the rows before
them have no cells (`layout_append`). The pass over the cells goes on from where it was
(`Progress.run_append`): the rules and errors of the rows before stay what they were, and where they
were (`analyze_extended`).
-/

namespace MailRules.Sheet

open Instruction Extraction

variable {default : RuleAction} {columns : List Column} {number : Nat}

/-! ## Columns without headings -/

theorem le_foldl_length (rows : List (List String)) (width : Nat) :
    width ≤ rows.foldl (fun w row => max w row.length) width := by
  induction rows generalizing width with
  | nil => exact le_refl width
  | cons row rows ih => exact (le_max_left _ _).trans (ih _)

theorem length_le_foldl {rows : List (List String)} {row : List String} (h : row ∈ rows)
    (width : Nat) : row.length ≤ rows.foldl (fun w row => max w row.length) width := by
  induction rows generalizing width with
  | nil => cases h
  | cons other rows ih =>
    rcases List.mem_cons.mp h with rfl | h
    · exact (le_max_right _ _).trans (le_foldl_length rows _)
    · exact ih h _

/-- Past its end a row has empty cells. -/
theorem cellAt_past {row : List String} {index : Nat} (h : row.length ≤ index) :
    cellAt row index = "" := by
  rw [cellAt, List.getD_eq_getElem?_getD, List.getElem?_eq_none h]
  rfl

theorem withRole_numbered (r : Role) (width : Nat) :
    withRole r (Column.numbered width) = if r = .rule then Column.numbered width else [] := by
  have hrole : ∀ c ∈ Column.numbered width, c.role = .rule := by
    intro c hc
    obtain ⟨i, -, rfl⟩ := List.mem_map.mp hc
    rfl
  unfold withRole
  split
  · next hr => exact List.filter_eq_self.mpr fun c hc => by simp [hrole c hc, hr]
  · next hr => exact List.filter_eq_nil_iff.mpr fun c hc => by simp [hrole c hc, Ne.symm hr]

/-- Columns to the right of all cells of a row make no difference to its rule cells. -/
theorem ruleCells_numbered {row : List String} {width wider : Nat} (h : row.length ≤ width)
    (hwider : width ≤ wider) :
    ruleCells (Column.numbered wider) number row =
      ruleCells (Column.numbered width) number row := by
  obtain ⟨k, rfl⟩ := Nat.exists_eq_add_of_le hwider
  have hcolumns : Column.numbered (width + k) = Column.numbered width ++
      (List.range k).map fun i => ⟨width + i, s!"Column {width + i + 1}", .rule, none, none⟩ := by
    rw [Column.numbered, List.range_add, List.map_append, List.map_map]
    rfl
  simp only [ruleCells, withRole_numbered, reduceCtorEq, if_true, if_false]
  rw [hcolumns, List.map_append, List.filter_append, List.append_right_eq_self,
    List.filter_eq_nil_iff, List.map_map]
  intro cell hcell
  obtain ⟨i, -, rfl⟩ := List.mem_map.mp hcell
  have hempty : cellAt row (width + i) = "" := cellAt_past (by omega)
  simpa using hempty

theorem allRuleCells_numbered {rows : List (List String)} {width wider : Nat}
    (h : ∀ row ∈ rows, row.length ≤ width) (hwider : width ≤ wider) (number : Nat) :
    allRuleCells (Column.numbered wider) number rows =
      allRuleCells (Column.numbered width) number rows := by
  induction rows generalizing number with
  | nil => rfl
  | cons row rows ih =>
    obtain ⟨hrow, hrest⟩ := List.forall_mem_cons.mp h
    rw [allRuleCells, allRuleCells, ruleCells_numbered hrow hwider, ih hrest]

/-! ## The layout -/

theorem allRuleCells_append (columns : List Column) (number : Nat)
    (data more : List (List String)) :
    allRuleCells columns number (data ++ more) =
      allRuleCells columns number data ++ allRuleCells columns (number + data.length) more := by
  induction data generalizing number with
  | nil => rfl
  | cons row data ih =>
    have hnumber : number + (row :: data).length = number + 1 + data.length := by
      rw [List.length_cons]
      omega
    rw [List.cons_append, allRuleCells, allRuleCells, ih, hnumber, List.append_assoc]

/-- Rows at the end are data, and leave the cells of the others alone. -/
theorem layout_append {rows data : List (List String)} (hne : rows ≠ [])
    (h : layout default rows = (columns, number, data)) (more : List (List String)) :
    ∃ columns', layout default (rows ++ more) = (columns', number, data ++ more) ∧
      allRuleCells columns' number data = allRuleCells columns number data := by
  obtain ⟨headings, rest, rfl⟩ := List.exists_cons_of_ne_nil hne
  unfold layout at h ⊢
  dsimp only [List.cons_append] at h ⊢
  split at h
  · next hheadings =>
    rw [if_pos hheadings]
    cases h
    exact ⟨_, rfl, rfl⟩
  · next hheadings =>
    rw [if_neg hheadings]
    cases h
    refine ⟨_, rfl, allRuleCells_numbered (fun row hrow => length_le_foldl hrow 0) ?_ 1⟩
    rw [← List.cons_append, List.foldl_append]
    exact le_foldl_length more _

/-! ## The pass -/

/-- A pass over more cells goes on from where the pass over the first ones has come to, if it is not
broken off. -/
theorem Progress.run_append (default : RuleAction) (p : Progress) (cells more : List RuleCell) :
    Progress.run default p (cells ++ more) =
      match Progress.run default p cells with
      | (none, q) => Progress.run default q more
      | broken => broken := by
  induction cells generalizing p with
  | nil => rfl
  | cons cell cells ih =>
    simp only [List.cons_append, Progress.run]
    split
    · exact ih _
    · rfl
    · exact ih _

/-- What a pass that is not broken off comes to is the preview. -/
theorem analyze_of_run {assistant : Option Assistant} {text : String}
    {rs data : List (List String)} {q : Progress} (hrows : rows text = .ok rs)
    (hlayout : layout default rs = (columns, number, data))
    (hrun : Progress.run default { assistant := assistant } (allRuleCells columns number data) =
      (none, q)) :
    ∃ a, analyze assistant default text = .ok a ∧
      a.result = .ok ⟨q.entries, q.errors, data.length⟩ := by
  refine ⟨analyzeRows assistant default rs, by rw [analyze, hrows]; rfl, ?_⟩
  unfold analyzeRows
  split
  · next hempty =>
    rw [List.isEmpty_iff] at hempty
    subst hempty
    cases hlayout
    cases hrun
    rfl
  · simp only [hlayout, hrun]

/-- If rows are added at the end of a sheet that has some, and the preview of the whole is made,
then that of the first rows is made too. The rules and the errors in it, with their rows and
columns, are those that the preview of the whole begins with. -/
theorem analyze_extended {assistant : Option Assistant} {text text' : String}
    {rs more : List (List String)} {a' : Analysis} {p' : Preview} (hrows : rows text = .ok rs)
    (hne : rs ≠ []) (hrows' : rows text' = .ok (rs ++ more))
    (ha' : analyze assistant default text' = .ok a') (hp' : a'.result = .ok p') :
    ∃ a p, analyze assistant default text = .ok a ∧ a.result = .ok p ∧
      p.entries <+: p'.entries ∧ p.errors <+: p'.errors ∧
      p'.rowCount = p.rowCount + more.length := by
  rcases hlayout : layout default rs with ⟨columns, number, data⟩
  obtain ⟨columns', hlayout', hcells⟩ := layout_append hne hlayout more
  obtain ⟨q', hrun', rfl⟩ := analyze_eq_ok ha' hp' hrows' hlayout'
  have hknown := known_of_layout hlayout'
  rw [allRuleCells_append, hcells] at hrun' hknown
  obtain ⟨hfirst, hmore⟩ := List.forall_mem_append.mp hknown
  rw [Progress.run_append] at hrun'
  rcases hrun : Progress.run default { assistant := assistant }
      (allRuleCells columns number data) with ⟨_ | fault, q⟩
  · rw [hrun] at hrun'
    obtain ⟨a, ha, hp⟩ := analyze_of_run hrows hlayout hrun
    -- what is found in the first cells is sorted, so that later ones only add to it
    have hsorted := (Progress.Sorted.start assistant).run default hfirst
    rw [hrun] at hsorted
    obtain ⟨fates, -, hentries, herrors⟩ := hsorted.run_fates hmore hrun'
    exact ⟨a, _, ha, hp, ⟨_, hentries.symm⟩, ⟨_, herrors.symm⟩, List.length_append⟩
  · rw [hrun] at hrun'
    cases hrun'

/-- A sheet without headings, to which a longer row is added, one that repeats a rule, and one that
needs an assistant. -/
theorem analyze_extended_wider :
    ∃ a p a' p', analyze none .vip "mute,ann@x.com\n" = .ok a ∧ a.result = .ok p ∧
      analyze none .vip "mute,ann@x.com\n,,y.org\nAnn@X.com\nnewsletters\n" = .ok a' ∧
      a'.result = .ok p' ∧ p.entries <+: p'.entries ∧ p.errors <+: p'.errors ∧
      p'.rowCount = p.rowCount + 3 ∧
      p'.entries.map (fun e => (e.row, e.draft.kind, e.draft.pattern)) =
        [(1, .email, "ann@x.com"), (2, .domain, "y.org")] ∧
      p'.errors.map (fun e => (e.row, e.column)) = [(1, "Column 1"), (4, "Column 1")] := by
  have hshown : shownPreview "mute,ann@x.com\n,,y.org\nAnn@X.com\nnewsletters\n" = some
      ([(1, .email, "ann@x.com"), (2, .domain, "y.org")], [(1, "Column 1"), (4, "Column 1")]) := by
    decide +kernel
  obtain ⟨a', p', ha', hp', hentries', herrors'⟩ := exists_of_shownPreview hshown
  have hrows : rows "mute,ann@x.com\n" = .ok [["mute", "ann@x.com"]] := by rfl
  have hrows' : rows "mute,ann@x.com\n,,y.org\nAnn@X.com\nnewsletters\n" =
      .ok ([["mute", "ann@x.com"]] ++ [["", "", "y.org"], ["Ann@X.com"], ["newsletters"]]) := by rfl
  obtain ⟨a, p, ha, hp, hentries, herrors, hcount⟩ :=
    analyze_extended hrows (by decide) hrows' ha' hp'
  exact ⟨a, p, a', p', ha, hp, ha', hp', hentries, herrors, hcount, hentries', herrors'⟩

end MailRules.Sheet
