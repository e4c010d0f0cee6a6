import MailRules.Proofs.Instruction.Exception
import MailRules.Proofs.Instruction.Shape

set_option autoImplicit false

/-!
# The layout of instructions

An instruction is read by its words, and an address or a host name has no blanks, so that it does
not matter which blanks stand between the words of an instruction and how many of them. There is one
exception: an exception announced by `but not` is seen only if the two words have a single space in
between. An instruction that is otherwise certain is then read as if it made no exception
(`guess_respaced`).
-/

namespace MailRules.Instruction

open Text

/-- A text with single spaces between its words, and nothing before and after them. -/
def respaced (text : String) : String :=
  String.ofList (condense text.toList)

/-! ## Single spaces -/

theorem condense_trim (s : List Char) : condense (trim s) = condense s := by
  rw [condense, words_trim, ← condense]

theorem isTrimmed_condense (s : List Char) : IsTrimmed (condense s) := by
  by_cases hnil : words s = []
  · rw [condense, hnil]
    exact ⟨nofun, nofun⟩
  · refine (isTrimmed_join [' '] hnil fun w hw => ?_).2
    obtain ⟨hne, hsolid⟩ := solid_of_mem_words hw
    exact ⟨hne, isTrimmed_of_unblank hsolid⟩

theorem candidates_condense (s : List Char) : candidates (condense s) = candidates s := by
  rw [candidates, tokens, words_condense, ← tokens, ← candidates]

theorem condense_condense (s : List Char) : condense (condense s) = condense s := by
  rw [condense, words_condense, ← condense]

/-- Nothing is left of a trimmed text only if there was nothing. -/
theorem condense_ne_nil {s : List Char} (h : IsTrimmed s) (hne : s ≠ []) : condense s ≠ [] := by
  intro hnil
  obtain ⟨c, r, rfl⟩ := List.exists_cons_of_ne_nil hne
  refine words_cons_ne_nil (h.head c rfl) r ?_
  rw [← words_condense, hnil, words_nil]

theorem condense_of_unblank {s : List Char} (h : ∀ c ∈ s, isBlank c = false) : condense s = s := by
  by_cases hne : s = []
  · rw [hne]
    rfl
  · rw [condense, words_of_plain hne h]
    rfl

/-- A trimmed text that has no blanks when its words are joined had none. -/
theorem condense_eq_self {s : List Char} (htrimmed : IsTrimmed s) (hne : s ≠ [])
    (h : ∀ c ∈ condense s, isBlank c = false) : condense s = s := by
  have hwords : words s = [condense s] := by
    rw [← words_condense, words_of_plain (condense_ne_nil htrimmed hne) h]
  obtain ⟨-, before, after, hs, hbefore, -, hafter⟩ := words_eq_cons hwords
  have htrim := trim_pad hbefore h (blank_of_words_eq_nil hafter)
  rw [← hs, htrimmed.trim_eq] at htrim
  exact htrim.symm

/-! ## Readings -/

/-- A text with blanks is neither an address nor a host name. -/
theorem not_bare_of_blank {s : List Char} {c : Char} (hc : c ∈ s) (hblank : isBlank c = true) :
    isAtDomain s = false ∧ isBareAddress s = false ∧ looksLikeHost s = false := by
  have hmixed : ¬ ∀ d ∈ s, isBlank d = false := by
    intro hsolid
    rw [hsolid c hc] at hblank
    cases hblank
  refine ⟨?_, ?_, ?_⟩ <;> rw [← Bool.not_eq_true] <;> intro h <;> refine hmixed ?_
  · obtain ⟨host, hhost, rfl⟩ := isAtDomain_iff.mp h
    exact List.forall_mem_cons.mpr ⟨by decide, hhost.unblank⟩
  · exact (isSolid_of_isBareAddress h).unblank
  · exact (isPlain_of_looksLikeHost h).unblank

/-- How sure a reading is does not belong to the identity of a draft. -/
theorem key_draftOf (kind : RuleKind) (text : List Char) (action : RuleAction) (x : Float) :
    (draftOf kind text action x).key =
      ⟨kind, String.ofList (Canonical.patternChars kind text), action, none, none⟩ := rfl

/-- A sentence names one address and makes no exception that is seen, but one that its layout
hides. -/
def LayoutHides (s : List Char) : Prop :=
  ∃ c, candidates s = [c] ∧ hasException s = false ∧ DividesButNot s

/-- A sentence is read as it is with single spaces between its words, unless its layout hides an
exception: then it is read with certainty, and with single spaces it is not. -/
theorem readTrimmed_condense {s : List Char} (hs : IsTrimmed s) (hne : s ≠ [])
    (action : RuleAction) :
    (readTrimmed s action = readTrimmed (condense s) action ∧ ¬ LayoutHides s) ∨
      (LayoutHides s ∧ ∃ c, candidates s = [c] ∧
        readTrimmed s action = .certain (draftOf c.kind c.pattern action sentenceConfidence) ∧
        readTrimmed (condense s) action =
          .doubtful (some (draftOf c.kind c.pattern action partialConfidence))) := by
  by_cases hsame : condense s = s
  · refine Or.inl ⟨by rw [hsame], ?_⟩
    rintro ⟨c, -, hexception, hdivides⟩
    have hcondensed := hasException_condense.mpr (Or.inr hdivides)
    rw [hsame, hexception] at hcondensed
    cases hcondensed
  -- both texts have blanks, so that they are read by their words
  have hblank : ∃ c ∈ s, isBlank c = true := by
    by_contra hnone
    simp only [not_exists, not_and, Bool.not_eq_true] at hnone
    exact hsame (condense_of_unblank hnone)
  have hblank' : ∃ c ∈ condense s, isBlank c = true := by
    by_contra hnone
    simp only [not_exists, not_and, Bool.not_eq_true] at hnone
    exact hsame (condense_eq_self hs hne hnone)
  obtain ⟨c, hc, hcblank⟩ := hblank
  obtain ⟨d, hd, hdblank⟩ := hblank'
  obtain ⟨hat, hbare, hhost⟩ := not_bare_of_blank hc hcblank
  obtain ⟨hat', hbare', hhost'⟩ := not_bare_of_blank hd hdblank
  simp only [readTrimmed, hat, hbare, hhost, hat', hbare', hhost', candidates_condense,
    condense_condense, LayoutHides, Bool.false_eq_true, if_false]
  rcases hcandidates : candidates s with _ | ⟨e, _ | ⟨e', rest⟩⟩
  · simp
  · by_cases hexception : hasException s = true
    · have hcondensed := hasException_condense.mpr (Or.inl hexception)
      simp [hexception, hcondensed]
    · by_cases hdivides : DividesButNot s
      · have hcondensed := hasException_condense.mpr (Or.inr hdivides)
        refine Or.inr ⟨⟨e, rfl, by simpa using hexception, hdivides⟩, e, rfl, ?_, ?_⟩
        · simp [hexception]
        · simp [hcondensed]
      · have hcondensed : ¬ hasException (condense s) = true := fun h =>
          (hasException_condense.mp h).elim hexception hdivides
        simp [hexception, hcondensed, hdivides]
  · simp

/-- The layout of an instruction has no say in how it is read, just unless it hides an exception:
the instruction names one address, has `but` and `not` as words with blanks other than a single
space in between, and makes no other exception. Then it is read with certainty, and with single
spaces it is not. The drafts differ in nothing but how sure the reading is. -/
theorem guess_respaced (text : String) (action : RuleAction) :
    (guess text action = guess (respaced text) action ↔ ¬ LayoutHides (trim text.toList)) ∧
      (LayoutHides (trim text.toList) → (guess text action).needsHelp = false ∧
        (guess (respaced text) action).needsHelp = true) ∧
      (guess text action).draft?.map Draft.key =
        (guess (respaced text) action).draft?.map Draft.key := by
  have hrespaced : trim (respaced text).toList = condense (trim text.toList) := by
    rw [respaced, String.toList_ofList, (isTrimmed_condense _).trim_eq, condense_trim]
  have htrimmed := isTrimmed_trim text.toList
  simp only [guess, hrespaced]
  generalize trim text.toList = s at htrimmed
  by_cases hne : s = []
  · subst hne
    have hnone : ¬ LayoutHides [] := by
      rintro ⟨c, hc, -⟩
      cases hc
    exact ⟨iff_of_true rfl hnone, fun h => absurd h hnone, rfl⟩
  · have hempty : s.isEmpty = false := by simpa using hne
    have hempty' : (condense s).isEmpty = false := by simpa using condense_ne_nil htrimmed hne
    simp only [hempty, hempty', Bool.false_eq_true, if_false]
    rcases readTrimmed_condense htrimmed hne action with ⟨hsame, hnone⟩ |
      ⟨hhides, c, -, hcertain, hdoubtful⟩
    · exact ⟨iff_of_true hsame hnone, fun h => absurd h hnone, by rw [hsame]⟩
    · rw [hcertain, hdoubtful]
      refine ⟨iff_of_false (by simp) (not_not_intro hhides), fun _ => ⟨rfl, rfl⟩, ?_⟩
      simp only [Guess.draft?, Option.map_some, key_draftOf]

theorem guess_respaced_hidden :
    LayoutHides (trim "mute a@x.com But\tnot on mondays".toList) ∧
      guess "mute a@x.com But\tnot on mondays" .suppress ≠
        guess (respaced "mute a@x.com But\tnot on mondays") .suppress := by
  have hbut : SameLetters "but".toList "But".toList :=
    .cons (by decide +kernel) (.cons (by decide +kernel) (.cons (by decide +kernel) .nil))
  have hnot : SameLetters "not".toList "not".toList :=
    .cons (by decide +kernel) (.cons (by decide +kernel) (.cons (by decide +kernel) .nil))
  have hhides : LayoutHides (trim "mute a@x.com But\tnot on mondays".toList) :=
    ⟨⟨.email, "a@x.com".toList⟩, by decide +kernel, by decide +kernel, ['\t'], by decide, by decide,
      List.forall_mem_singleton.mpr rfl, "But".toList, "not".toList, hbut, hnot, "mute a@x.com ".toList,
      " on mondays".toList, by decide +kernel, by decide +kernel, by decide +kernel⟩
  exact ⟨hhides, fun heq => (guess_respaced _ .suppress).1.mp heq hhides⟩

/-- An exception after a line feed is not seen. -/
theorem exception_hidden_by_layout :
    respaced "mute a@x.com but\nnot on mondays" = "mute a@x.com but not on mondays" ∧
      (guess "mute a@x.com but\nnot on mondays" .suppress).needsHelp = false ∧
      (guess "mute a@x.com but not on mondays" .suppress).needsHelp = true ∧
      guess "mute a@x.com but\nnot on mondays" .suppress ≠
        guess (respaced "mute a@x.com but\nnot on mondays") .suppress := by
  have hrespaced :
      respaced "mute a@x.com but\nnot on mondays" = "mute a@x.com but not on mondays" := by
    decide +kernel
  have hcertain : (guess "mute a@x.com but\nnot on mondays" .suppress).needsHelp = false := by
    decide +kernel
  have hdoubtful : (guess "mute a@x.com but not on mondays" .suppress).needsHelp = true := by
    decide +kernel
  refine ⟨hrespaced, hcertain, hdoubtful, fun heq => ?_⟩
  rw [heq, hrespaced, hdoubtful] at hcertain
  cases hcertain

end MailRules.Instruction
