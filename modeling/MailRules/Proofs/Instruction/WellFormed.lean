import MailRules.Instruction.Parse
import MailRules.Proofs.Rule.WellFormed

set_option autoImplicit false

/-!
# What instructions are read as

Whatever an instruction is parsed to is a well-formed draft (`parse_wellFormed`), be it read by the
heuristic (`guess_wellFormed`) or found by the assistant (`escalate_wellFormed`), whose answer is
trusted no further than the record in it goes.
-/

namespace MailRules

/-- An answer of a language model that is read has become a well-formed draft. -/
theorem Output.read_wellFormed {o : Output} {d : Draft} (h : o.read = .ok d) : d.WellFormed := by
  unfold read at h
  split at h
  · cases h
  · unfold toDraft at h
    split at h
    · split at h
      · cases h
      · rename_i e hread
        split at h
        · -- the answer is trusted as far as the record in it is
          rename_i c hcanonical
          cases h
          exact Draft.wellFormed_of_record hread hcanonical
        · cases h
    · cases h

namespace Instruction

/-! ## The heuristic -/

theorem draftOf_wellFormed {kind : RuleKind} (hkind : kind.IsKnown) (text : List Char)
    (action : RuleAction) {x : Float} (hx : Record.checkUnit x = .ok x) :
    (draftOf kind text action x).WellFormed where
  kind := hkind
  pattern := ⟨String.ofList text, by simp [draftOf, Canonical.pattern, Text.mapText]⟩
  exception := ⟨none, rfl⟩
  notes := ⟨none, rfl⟩
  confidence := by
    intro n hn
    cases hn
    exact ⟨x, rfl, hx⟩

theorem domain_isKnown : RuleKind.domain.IsKnown :=
  fun _ => nofun

theorem email_isKnown : RuleKind.email.IsKnown :=
  fun _ => nofun

/-- What a token is that names something: a domain after an `@`, an address, or a host name. -/
theorem classify?_eq_some {token : List Char} {c : Candidate} (h : classify? token = some c) :
    (isAtDomain token = true ∧ c = .of .domain token) ∨
      (isAddress token = true ∧ c = .of .email token) ∨
      (looksLikeHost token = true ∧ c = .of .domain token) := by
  unfold classify? at h
  split at h
  · next hdomain =>
    cases h
    exact Or.inl ⟨(Bool.and_eq_true_iff.mp hdomain).1, rfl⟩
  · split at h
    · next haddress =>
      cases h
      exact Or.inr (Or.inl ⟨haddress, rfl⟩)
    · split at h
      · next hhost =>
        cases h
        exact Or.inr (Or.inr ⟨hhost, rfl⟩)
      · cases h

/-- A token names an e-mail address or a domain. -/
theorem classify?_isKnown {token : List Char} {c : Candidate} (h : classify? token = some c) :
    c.kind.IsKnown := by
  rcases classify?_eq_some h with ⟨-, rfl⟩ | ⟨-, rfl⟩ | ⟨-, rfl⟩
  · exact domain_isKnown
  · exact email_isKnown
  · exact domain_isKnown

theorem mem_addNew {acc : List Candidate} {b c : Candidate} :
    c ∈ addNew acc b ↔ c ∈ acc ∨ c = b := by
  unfold addNew
  by_cases hb : b ∈ acc
  · rw [if_pos (List.contains_iff_mem.mpr hb)]
    exact ⟨Or.inl, fun h => h.elim id fun heq => heq ▸ hb⟩
  · rw [if_neg (by simpa using hb)]
    simp

theorem mem_foldl_addNew {cs acc : List Candidate} {c : Candidate} :
    c ∈ cs.foldl addNew acc ↔ c ∈ acc ∨ c ∈ cs := by
  induction cs generalizing acc with
  | nil => simp
  | cons b cs ih => rw [List.foldl_cons, ih, mem_addNew, List.mem_cons, or_assoc]

/-- The addresses of a sentence are what its tokens name. -/
theorem mem_candidates {s : List Char} {c : Candidate} :
    c ∈ candidates s ↔ ∃ token ∈ tokens s, classify? token = some c := by
  rw [candidates, mem_foldl_addNew, List.mem_filterMap]
  simp

theorem candidates_isKnown {s : List Char} {c : Candidate} (h : c ∈ candidates s) :
    c.kind.IsKnown := by
  obtain ⟨token, -, htoken⟩ := mem_candidates.mp h
  exact classify?_isKnown htoken

theorem bareConfidence_unit : Record.checkUnit bareConfidence = .ok bareConfidence := rfl

theorem sentenceConfidence_unit : Record.checkUnit sentenceConfidence = .ok sentenceConfidence :=
  rfl

/-- What a text is read as with certainty: it is an address or a host name, or it names one and
makes no exception. -/
theorem readTrimmed_certain {s : List Char} {action : RuleAction} {d : Draft}
    (h : readTrimmed s action = .certain d) :
    (isAtDomain s = true ∧ d = draftOf .domain s action bareConfidence) ∨
      (isBareAddress s = true ∧ d = draftOf .email s action bareConfidence) ∨
      (looksLikeHost s = true ∧ d = draftOf .domain s action bareConfidence) ∨
      ∃ c, candidates s = [c] ∧ hasException s = false ∧
        d = draftOf c.kind c.pattern action sentenceConfidence := by
  unfold readTrimmed at h
  split at h
  · next hdomain =>
    cases h
    exact Or.inl ⟨hdomain, rfl⟩
  split at h
  · next hbare =>
    cases h
    exact Or.inr (Or.inl ⟨hbare, rfl⟩)
  split at h
  · next hhost =>
    cases h
    exact Or.inr (Or.inr (Or.inl ⟨hhost, rfl⟩))
  split at h
  · next c hc =>
    split at h
    · cases h
    · next hexception =>
      cases h
      exact Or.inr (Or.inr (Or.inr ⟨c, hc, by simpa using hexception, rfl⟩))
  · cases h
  · cases h

theorem readTrimmed_of_guess {text : String} {action : RuleAction} {d : Draft}
    (h : guess text action = .certain d) :
    readTrimmed (Text.trim text.toList) action = .certain d := by
  simp only [guess] at h
  split at h
  · cases h
  · exact h

/-- What the heuristic is certain of is well-formed. -/
theorem guess_wellFormed {text : String} {action : RuleAction} {d : Draft}
    (h : guess text action = .certain d) : d.WellFormed := by
  rcases readTrimmed_certain (readTrimmed_of_guess h) with
    ⟨-, rfl⟩ | ⟨-, rfl⟩ | ⟨-, rfl⟩ | ⟨c, hc, -, rfl⟩
  · exact draftOf_wellFormed domain_isKnown _ action bareConfidence_unit
  · exact draftOf_wellFormed email_isKnown _ action bareConfidence_unit
  · exact draftOf_wellFormed domain_isKnown _ action bareConfidence_unit
  · have hmem : c ∈ candidates (Text.trim text.toList) := by
      rw [hc]
      exact List.mem_singleton_self c
    exact draftOf_wellFormed (candidates_isKnown hmem) _ action sentenceConfidence_unit

/-- The heuristic makes no exceptions. -/
theorem guess_exception {text : String} {action : RuleAction} {d : Draft}
    (h : guess text action = .certain d) : d.exception = none := by
  rcases readTrimmed_certain (readTrimmed_of_guess h) with
    ⟨-, rfl⟩ | ⟨-, rfl⟩ | ⟨-, rfl⟩ | ⟨c, -, -, rfl⟩ <;> rfl

/-! ## The assistant -/

/-- What an assistant finds is well-formed. -/
theorem escalate_wellFormed {assistant : Option Extraction.Assistant} {text : String}
    {action : RuleAction} {found : Found}
    (h : (escalate assistant text action).result = .ok found) : found.draft.WellFormed := by
  unfold escalate at h
  split at h
  · cases h
  · rename_i a
    simp only at h
    split at h
    · cases h
    · rename_i o _
      split at h
      · cases h
      · cases h
      · rename_i d hread
        cases h
        exact Output.read_wellFormed hread

theorem escalate_strategy {assistant : Option Extraction.Assistant} {text : String}
    {action : RuleAction} {found : Found}
    (h : (escalate assistant text action).result = .ok found) : found.strategy = .assistant := by
  unfold escalate at h
  split at h
  · cases h
  · simp only at h
    split at h
    · cases h
    · split at h
      · cases h
      · cases h
      · cases h
        rfl

/-- What an instruction is parsed to is well-formed. -/
theorem parse_wellFormed {assistant : Option Extraction.Assistant} {text : String}
    {action : RuleAction} {found : Found}
    (h : (parse assistant text action).result = .ok found) : found.draft.WellFormed := by
  unfold parse at h
  split at h
  · cases h
  · split at h
    · rename_i d hguess
      cases h
      exact guess_wellFormed hguess
    · exact escalate_wellFormed h

/-- Exceptions are made by the assistant alone. -/
theorem parse_exception {assistant : Option Extraction.Assistant} {text : String}
    {action : RuleAction} {found : Found}
    (h : (parse assistant text action).result = .ok found) (hne : found.draft.exception ≠ none) :
    found.strategy = .assistant := by
  unfold parse at h
  split at h
  · cases h
  · split at h
    · rename_i d hguess
      cases h
      exact absurd (guess_exception hguess) hne
    · exact escalate_strategy h

end Instruction

end MailRules
