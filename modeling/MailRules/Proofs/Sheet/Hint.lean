import MailRules.Proofs.Instruction.Shape
import MailRules.Proofs.Sheet.Account
import MailRules.Thread.Verdict

set_option autoImplicit false

/-!
# Cells that a heading overrules

What a cell is read as with certainty is an address or a domain, its pattern in canonical form for
every kind (`IsSettled.pattern_eq`). A heading that names a kind puts it in the place of the kind
that was read and leaves the pattern alone (`withKind_settled`). No subject has the same text for
its address and its domain, nor does every title have it, so that a rule of another kind misses what
the cell asks for: the rule that stands for a cell covers what was read there just if the heading
names no other kind (`recognised_kept_iff`).
-/

namespace MailRules

/-- Rules from a draft fit every subject that rules of a kind with a pattern fit. -/
def Draft.Covers (e : Draft) (kind : RuleKind) (pattern : String) : Prop :=
  ∀ (r r' : Rule) (s : Subject), r.draft.kind = kind → r.draft.pattern = pattern → r'.draft = e →
    r.fits s = true → r'.fits s = true

namespace Instruction

open Text

/-! ## Patterns under another kind -/

theorem IsShaped.unblank {kind : RuleKind} {p : List Char} (h : IsShaped kind p) :
    ∀ c ∈ p, isBlank c = false := by
  cases h with
  | email huser hhost => exact (isSolid_of_parts rfl huser.chars hhost.chars).unblank
  | domain hhost => exact hhost.unblank

/-- Nothing that may stand before a domain is at the start of a pattern. -/
theorem IsShaped.stripStart_eq {kind : RuleKind} {p : List Char} (h : IsShaped kind p) :
    stripStart Canonical.isDomainLead p = p := by
  cases h with
  | email huser hhost =>
    refine stripStart_of_head fun c hc => huser.not_lead ?_
    rw [List.head?_append_of_ne_nil _ huser.ne_nil] at hc
    exact List.mem_of_head? hc
  | domain hhost => exact hhost.stripStart_eq

/-- A settled pattern is in canonical form for any kind. -/
theorem IsSettled.patternChars_eq_self {kind : RuleKind} {p : List Char} (h : IsSettled kind p)
    (other : RuleKind) : Canonical.patternChars other p = p := by
  have htrim : trim p = p := (isTrimmed_of_unblank h.shape.unblank).trim_eq
  cases other with
  | domain => rw [Canonical.patternChars, htrim, h.shape.stripStart_eq, h.low]
  | _ =>
    show lower (trim p) = p
    rw [htrim, h.low]

theorem IsSettled.pattern_eq {kind : RuleKind} {p : String} (h : IsSettled kind p.toList)
    (other : RuleKind) : Canonical.pattern other p = p := by
  rw [Canonical.pattern, mapText, h.patternChars_eq_self other, String.ofList_toList]

theorem IsSettled.ne_empty {kind : RuleKind} {p : String} (h : IsSettled kind p.toList) :
    p ≠ "" := by
  rintro rfl
  obtain ⟨c, hc, -⟩ := h.shape.head?
  cases hc

/-! ## Subjects that tell the kinds apart -/

theorem domain_of_parts {user : List Char} (huser : '@' ∉ user) (host : List Char)
    (name title : String) :
    (Subject.mk name (String.ofList (user ++ '@' :: host)) title).domain = String.ofList host := by
  simp only [Subject.domain, String.toList_ofList, cutAt_append huser]

theorem includes_empty {p : String} (h : p ≠ "") : includes "" p = false := by
  rw [← Bool.not_eq_true, includes, occursIn_iff]
  intro hinfix
  exact h (String.toList_eq_nil_iff.mp (List.infix_nil.mp hinfix))

/-- A thread without a title is found by its address or its domain. -/
theorem fits_untitled {r : Rule} {s : Subject} (htitle : s.title = "") (hne : r.draft.pattern ≠ "") :
    r.fits s = true ↔ (r.draft.kind = .email ∧ s.email = r.draft.pattern) ∨
      (r.draft.kind = .domain ∧ s.domain = r.draft.pattern) := by
  unfold Rule.fits
  cases hkind : r.draft.kind with
  | email => simp
  | domain =>
    simp only [ne_eq, Bool.and_eq_true, decide_eq_true_eq, reduceCtorEq, false_and, true_and,
      false_or, and_iff_right_iff_imp]
    rintro heq
    rwa [heq]
  | topic => simp [htitle, includes_empty hne]
  | other name => simp

/-- A pattern fits some subject under its own kind, and under no other: for an address a thread from
there, whose domain is shorter, and for a domain a thread from an address with that domain. -/
theorem IsShaped.exists_fits_iff {kind : RuleKind} {p : List Char} (h : IsShaped kind p) :
    ∃ s : Subject, ∀ r : Rule, r.draft.pattern = String.ofList p →
      (r.fits s = true ↔ r.draft.kind = kind) := by
  have hne : String.ofList p ≠ "" := by
    obtain ⟨c, hc, -⟩ := h.head?
    rw [ne_eq, String.ofList_eq_empty_iff]
    rintro rfl
    cases hc
  have hlonger (user host : List Char) :
      String.ofList (user ++ '@' :: host) ≠ String.ofList host := by
    intro heq
    have hlength := congrArg List.length (String.ofList_injective heq)
    simp at hlength
    omega
  cases h with
  | @email user host huser hhost =>
    refine ⟨⟨"", String.ofList (user ++ '@' :: host), ""⟩, fun r hr => ?_⟩
    have hdomain := domain_of_parts (at_not_mem huser.chars) host "" ""
    rw [fits_untitled rfl (hr ▸ hne), hdomain, hr]
    simp only [(hlonger user host).symm, and_true, and_false, or_false]
  | domain hhost =>
    refine ⟨⟨"", String.ofList (['a'] ++ '@' :: p), ""⟩, fun r hr => ?_⟩
    have huser : '@' ∉ ['a'] := by decide
    have hdomain := domain_of_parts huser p "" ""
    rw [fits_untitled rfl (hr ▸ hne), hdomain, hr]
    simp only [hlonger ['a'] p, and_false, and_true, false_or]

/-- Rules of some kind with a settled pattern cover it just if they are of the same kind. -/
theorem IsSettled.covers_iff {kind : RuleKind} {p : String} (h : IsSettled kind p.toList)
    {e : Draft} (he : e.pattern = p) : e.Covers kind p ↔ e.kind = kind := by
  constructor
  · intro hcovers
    obtain ⟨s, hs⟩ := h.shape.exists_fits_iff
    rw [String.ofList_toList] at hs
    have hasked := (hs ⟨"", { e with kind := kind }, ""⟩ he).mpr rfl
    exact (hs ⟨"", e, ""⟩ he).mp (hcovers _ ⟨"", e, ""⟩ s rfl he rfl hasked)
  · rintro hkind r r' s hrkind hrpattern hr' hfits
    -- the same test decides for both
    unfold Rule.fits at hfits ⊢
    rwa [hr', hkind, he, ← hrkind, ← hrpattern]

/-! ## Actions -/

/-- What is certain of a text does not depend on the action. -/
theorem readTrimmed_action {s : List Char} {action : RuleAction} {d : Draft}
    (h : readTrimmed s action = .certain d) (other : RuleAction) :
    readTrimmed s other = .certain { d with action := other } := by
  unfold readTrimmed at h ⊢
  split at h
  · next hdomain =>
    cases h
    rw [if_pos hdomain]
    rfl
  rename_i hdomain
  rw [if_neg hdomain]
  split at h
  · next hbare =>
    cases h
    rw [if_pos hbare]
    rfl
  rename_i hbare
  rw [if_neg hbare]
  split at h
  · next hhost =>
    cases h
    rw [if_pos hhost]
    rfl
  rename_i hhost
  rw [if_neg hhost]
  split at h
  · next c hc =>
    split at h
    · cases h
    · next hexception =>
      cases h
      rw [if_neg hexception]
      rfl
  · cases h
  · cases h

theorem guess_action {text : String} {action : RuleAction} {d : Draft}
    (h : guess text action = .certain d) (other : RuleAction) :
    guess text other = .certain { d with action := other } := by
  have hread := readTrimmed_action (readTrimmed_of_guess h) other
  simp only [guess] at h ⊢
  split at h
  · cases h
  · next hblank => rwa [if_neg hblank]

end Instruction

namespace Sheet

open Instruction Extraction

/-! ## Cells -/

/-- The kind in a heading takes the place of the one that was read, and the pattern stays. -/
theorem withKind_settled {d : Draft} (h : IsSettled d.kind d.pattern.toList)
    (kind : Option RuleKind) : withKind kind d = { d with kind := kind.getD d.kind } := by
  cases kind with
  | none => rfl
  | some k =>
    simp only [withKind, Option.getD_some, h.pattern_eq k]
    split
    · next hkind => rw [← hkind]
    · rfl

/-- What a cell comes to that is read as an address or a domain. -/
theorem RuleCell.final_settled (cell : RuleCell) (default : RuleAction) {d : Draft}
    (h : IsSettled d.kind d.pattern.toList) (strategy : Strategy) :
    (cell.final default ⟨d, strategy⟩).kind = cell.column.kind.getD d.kind ∧
      (cell.final default ⟨d, strategy⟩).pattern = d.pattern := by
  rw [RuleCell.final, withKind_settled h]
  exact ⟨rfl, rfl⟩

/-- The action that was read does not count. -/
theorem RuleCell.final_action (cell : RuleCell) (default : RuleAction) {d : Draft}
    (h : IsSettled d.kind d.pattern.toList) (strategy : Strategy) (action : RuleAction) :
    cell.final default ⟨{ d with action := action }, strategy⟩ =
      cell.final default ⟨d, strategy⟩ := by
  have haction : IsSettled ({ d with action := action } : Draft).kind d.pattern.toList := h
  rw [RuleCell.final, RuleCell.final, withKind_settled h, withKind_settled haction]
  rfl

/-- A cell whose text is certain is read as that, whatever the assistant would say. -/
theorem RuleCell.read_of_certain {cell : RuleCell} {action : RuleAction} {d : Draft}
    (h : guess cell.value action = .certain d) (default : RuleAction)
    (assistant : Option Assistant) :
    (cell.read default assistant).result =
      .ok ⟨{ d with action := cell.action default }, .heuristic⟩ := by
  unfold RuleCell.read
  simp only [guess_action h (cell.action default)]

/-- The rule of a preview that stands for the cell at a place: that of the cell itself, or an
earlier one that has the key of what the cell comes to. -/
structure StandsFor (fates : List CellFate) (i : Nat) (d : Draft) (e : PreviewEntry) : Prop where
  key : e.draft.key = d.key
  place : fates[i]? = some (.listed e) ∨
    fates[i]? = some .repeated ∧ ∃ j < i, fates[j]? = some (.listed e)

theorem exists_listed {fates : List CellFate} {i : Nat} {e : PreviewEntry}
    (h : e ∈ (fates.take i).filterMap CellFate.entry?) : ∃ j < i, fates[j]? = some (.listed e) := by
  obtain ⟨fate, hfate, hentry⟩ := List.mem_filterMap.mp h
  obtain ⟨j, hj⟩ := List.getElem?_of_mem hfate
  rw [List.getElem?_take] at hj
  split at hj
  · next hlt =>
    refine ⟨j, hlt, ?_⟩
    cases fate with
    | listed e' =>
      cases hentry
      exact hj
    | failed _ => cases hentry
    | repeated => cases hentry
  · cases hj

/-- A rule stands for each cell that is read as one with a pattern. -/
theorem Fates.exists_standsFor {default : RuleAction} {assistant : Option Assistant}
    {cells : List RuleCell} {fates : List CellFate} (h : Fates default assistant [] cells fates)
    {i : Nat} {cell : RuleCell} (hcell : cells[i]? = some cell) {found : Found}
    (hread : ∀ asked, (cell.read default asked).result = .ok found)
    (hpattern : (cell.final default found).pattern ≠ "") :
    ∃ e, StandsFor fates i (cell.final default found) e := by
  obtain ⟨asked, fate, hfate, hcomes⟩ := h.getElem? hcell
  rw [hread asked, List.nil_append] at hcomes
  cases hcomes with
  | listed _ _ => exact ⟨_, rfl, Or.inl hfate⟩
  | repeated _ hold =>
    obtain ⟨e, he, hkey⟩ := hold
    exact ⟨e, hkey, Or.inr ⟨hfate, exists_listed he⟩⟩
  | patternless hempty => exact absurd hempty hpattern

theorem StandsFor.mem {fates : List CellFate} {i : Nat} {d : Draft} {e : PreviewEntry}
    (h : StandsFor fates i d e) : e ∈ fates.filterMap CellFate.entry? := by
  rcases h.place with hplace | ⟨-, j, -, hplace⟩
  all_goals exact List.mem_filterMap.mpr ⟨_, List.mem_of_getElem? hplace, rfl⟩

/-! ## What a heading may overrule -/

/-- A cell that is read with certainty has a rule in the preview that stands for it, and this rule
fits all that the cell asks for just if the heading does not name another kind. -/
theorem recognised_kept_iff {assistant : Option Assistant} {default : RuleAction} {text : String}
    {a : Analysis} {p : Preview} {rs data : List (List String)} {columns : List Column}
    {number : Nat} (ha : analyze assistant default text = .ok a) (hp : a.result = .ok p)
    (hrows : rows text = .ok rs) (hlayout : layout default rs = (columns, number, data)) :
    ∃ fates, Fates default assistant [] (allRuleCells columns number data) fates ∧
      p.entries = fates.filterMap CellFate.entry? ∧
      ∀ (i : Nat) (cell : RuleCell) (action : RuleAction) (d : Draft),
        (allRuleCells columns number data)[i]? = some cell →
        guess cell.value action = .certain d →
        ∃ e ∈ p.entries, StandsFor fates i (cell.final default ⟨d, .heuristic⟩) e ∧
          (e.draft.Covers d.kind d.pattern ↔ ∀ k, cell.column.kind = some k → k = d.kind) := by
  obtain ⟨fates, hfates, hentries, -⟩ := analyze_fates ha hp hrows hlayout
  refine ⟨fates, hfates, hentries, fun i cell action d hcell hguess => ?_⟩
  obtain ⟨hsettled, -⟩ := readTrimmed_shaped (readTrimmed_of_guess hguess)
  obtain ⟨hkind, hpattern⟩ := cell.final_settled default hsettled .heuristic
  have hread : ∀ asked, (cell.read default asked).result = .ok _ :=
    RuleCell.read_of_certain hguess default
  obtain ⟨e, he⟩ := hfates.exists_standsFor hcell hread (by
    rw [cell.final_action default hsettled, hpattern]
    exact hsettled.ne_empty)
  rw [cell.final_action default hsettled] at he
  -- the key tells the kind and the pattern
  have hekind : e.draft.kind = cell.column.kind.getD d.kind :=
    (congrArg Draft.Key.kind he.key).trans hkind
  have hepattern : e.draft.pattern = d.pattern := (congrArg Draft.Key.pattern he.key).trans hpattern
  refine ⟨e, hentries ▸ he.mem, he, ?_⟩
  rw [hsettled.covers_iff hepattern, hekind]
  cases cell.column.kind <;> simp

/-- A sender under a heading for senders, and a domain under one that says nothing. -/
def agreeingSheet : String :=
  "Blocked senders,Who\nspam@x.com,ads.example.com\n"

/-- Headings that name the same kind, or none, keep what the cells ask for. -/
theorem recognised_kept_agreeing :
    ∃ (a : Analysis) (p : Preview), analyze none .vip agreeingSheet = .ok a ∧ a.result = .ok p ∧
      (∃ e ∈ p.entries, e.draft.Covers .email "spam@x.com") ∧
      ∃ e ∈ p.entries, e.draft.Covers .domain "ads.example.com" := by
  have hshown : shownPreview agreeingSheet = some
      ([(2, .email, "spam@x.com"), (2, .domain, "ads.example.com")], []) := by decide +kernel
  obtain ⟨a, p, ha, hp, -⟩ := exists_of_shownPreview hshown
  have hrows : rows agreeingSheet =
      .ok [["Blocked senders", "Who"], ["spam@x.com", "ads.example.com"]] := by rfl
  obtain ⟨fates, -, -, hkept⟩ := recognised_kept_iff ha hp hrows rfl
  obtain ⟨e, he, -, hsender⟩ := hkept 0 _ .vip
    (draftOf .email "spam@x.com".toList .vip bareConfidence) rfl rfl
  obtain ⟨e', he', -, hhost⟩ := hkept 1 _ .vip
    (draftOf .domain "ads.example.com".toList .vip bareConfidence) rfl rfl
  refine ⟨a, p, ha, hp, ⟨e, he, ?_⟩, ⟨e', he', ?_⟩⟩
  · exact hsender.mpr (by decide +kernel)
  · exact hhost.mpr (by decide +kernel)

/-- A domain under a heading for senders gives a rule that misses the mail from there. -/
theorem domain_under_senders :
    ∃ (a : Analysis) (p : Preview) (d : Draft),
      analyze none .vip "Blocked senders\nads.example.com\n" = .ok a ∧ a.result = .ok p ∧
      guess "ads.example.com" .suppress = .certain d ∧ p.entries.length = 1 ∧
      ∀ e ∈ p.entries, ¬ e.draft.Covers d.kind d.pattern := by
  have hshown : shownPreview "Blocked senders\nads.example.com\n" = some
      ([(2, .email, "ads.example.com")], []) := by decide +kernel
  obtain ⟨a, p, ha, hp, hentries, -⟩ := exists_of_shownPreview hshown
  have hguess : guess "ads.example.com" .suppress =
    .certain (draftOf .domain "ads.example.com".toList .suppress bareConfidence) := rfl
  refine ⟨a, p, _, ha, hp, hguess, by simpa using congrArg List.length hentries, ?_⟩
  intro e he hcovers
  have hmem := List.mem_map_of_mem
    (f := fun e : PreviewEntry => (e.row, e.draft.kind, e.draft.pattern)) he
  rw [hentries, List.mem_singleton, Prod.mk.injEq, Prod.mk.injEq] at hmem
  obtain ⟨-, hkind, hpattern⟩ := hmem
  obtain ⟨hsettled, -⟩ := readTrimmed_shaped (readTrimmed_of_guess hguess)
  rw [hsettled.covers_iff (hpattern.trans (by decide +kernel)), hkind] at hcovers
  cases hcovers

end Sheet

end MailRules
