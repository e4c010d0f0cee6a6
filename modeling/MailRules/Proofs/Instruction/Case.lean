import MailRules.Instruction.Heuristic
import MailRules.Proofs.Text.Case

set_option autoImplicit false

/-!
# The case of instructions

Nothing that is looked at while an instruction is read tells capital letters from small ones: not
the shapes of addresses and host names, not the endings of file names, not the words that announce
an exception. What a draft has of the instruction is in lower case. So two instructions that differ
in nothing but the case of letters are read alike (`guess_recased`).

Each function below is compared with itself in small letters (`Text.small`): what gives an answer
gives the same one, and what gives a part of the text gives that part in small letters.
-/

namespace MailRules.Instruction

open Text

/-! ## Characters -/

/-- Two characters that are read alike in the shapes of addresses and host names. -/
def ReadsAs (c d : Char) : Prop :=
  isLetter d = isLetter c ∧ isLetterOrDigit d = isLetterOrDigit c ∧ isLabelChar d = isLabelChar c ∧
    isAddressChar d = isAddressChar c ∧ isWrapper d = isWrapper c ∧
    Canonical.isDomainLead d = Canonical.isDomainLead c

instance (c d : Char) : Decidable (ReadsAs c d) :=
  inferInstanceAs (Decidable (_ ∧ _))

theorem readsAs_toLower (c : Char) : ReadsAs c c.toLower :=
  asciiCase (fun _ => ⟨rfl, rfl, rfl, rfl, rfl, rfl⟩) (by decide +kernel) c

@[simp] theorem isLetter_toLower (c : Char) : isLetter c.toLower = isLetter c :=
  (readsAs_toLower c).1

@[simp] theorem isLetterOrDigit_toLower (c : Char) :
    isLetterOrDigit c.toLower = isLetterOrDigit c :=
  (readsAs_toLower c).2.1

@[simp] theorem isLabelChar_toLower (c : Char) : isLabelChar c.toLower = isLabelChar c :=
  (readsAs_toLower c).2.2.1

@[simp] theorem isAddressChar_toLower (c : Char) : isAddressChar c.toLower = isAddressChar c :=
  (readsAs_toLower c).2.2.2.1

theorem isWrapper_toLower (c : Char) : isWrapper c.toLower = isWrapper c :=
  (readsAs_toLower c).2.2.2.2.1

theorem isDomainLead_toLower (c : Char) :
    Canonical.isDomainLead c.toLower = Canonical.isDomainLead c :=
  (readsAs_toLower c).2.2.2.2.2

theorem isLetterOf_toLower (letter c : Char) :
    isLetterOf letter c.toLower = isLetterOf letter c := by
  have hdotless : c.toLower = 'ı' ↔ c = 'ı' := toLower_eq_iff (by decide) c
  have hlong : c.toLower = 'ſ' ↔ c = 'ſ' := toLower_eq_iff (by decide) c
  simp only [isLetterOf, lowerSimple_toLower, hdotless, hlong]

/-! ## Shapes -/

theorem isLabel_small (l : List Char) : isLabel (small l) = isLabel l := by
  simp [isLabel, small, Option.any_map, Function.comp_def]

theorem isTopLabel_small (l : List Char) : isTopLabel (small l) = isTopLabel l := by
  simp [isTopLabel, small, Function.comp_def]

theorem areLabels_small {inner : List Char → Bool} (hinner : ∀ l, inner (small l) = inner l)
    (labels : List (List Char)) : areLabels inner (labels.map small) = areLabels inner labels := by
  rw [areLabels, areLabels, ← List.map_reverse]
  rcases labels.reverse with _ | ⟨top, _ | ⟨l, rest⟩⟩
  · rfl
  · rfl
  · simp [isTopLabel_small, hinner, Function.comp_def]

theorem isHostName_small (s : List Char) : isHostName (small s) = isHostName s := by
  rw [isHostName, isHostName, segments_small (by decide), areLabels_small isLabel_small]

theorem isLooseHost_small (s : List Char) : isLooseHost (small s) = isLooseHost s := by
  rw [isLooseHost, isLooseHost, segments_small (by decide), areLabels_small]
  intro l
  simp [small, Function.comp_def]

theorem isAtDomain_small (s : List Char) : isAtDomain (small s) = isAtDomain s := by
  have hother {c : Char} (hc : c ≠ '@') (r : List Char) : isAtDomain (c :: r) = false := by
    unfold isAtDomain
    split
    · next heq => exact absurd (List.cons.inj heq).1 hc
    · rfl
  cases s with
  | nil => rfl
  | cons c s =>
    by_cases hat : c = '@'
    · rw [hat]
      simp [isAtDomain, small, Function.comp_def]
    · have hat' : c.toLower ≠ '@' := fun heq => hat ((toLower_eq_iff (by decide) c).mp heq)
      rw [hother hat]
      exact hother hat' _

theorem isBareAddress_small (s : List Char) : isBareAddress (small s) = isBareAddress s := by
  rw [isBareAddress, isBareAddress, cutAt_small (by decide)]
  cases cutAt '@' s with
  | none => rfl
  | some parts => simp [small, Function.comp_def]

theorem isAddress_small (s : List Char) : isAddress (small s) = isAddress s := by
  rw [isAddress, isAddress, cutAt_small (by decide)]
  cases cutAt '@' s with
  | none => rfl
  | some parts =>
    simp only [Option.map_some, Prod.map, isLooseHost_small]
    simp [small, Function.comp_def]

theorem lastLabel_small (s : List Char) : lastLabel (small s) = small (lastLabel s) := by
  rw [lastLabel, lastLabel, segments_small (by decide), List.getLast?_map]
  cases (segments '.' s).getLast? <;> rfl

theorem hasFileExtension_small (s : List Char) :
    hasFileExtension (small s) = hasFileExtension s := by
  rw [hasFileExtension, lastLabel_small, lower_small, ← hasFileExtension]

theorem looksLikeHost_small (s : List Char) : looksLikeHost (small s) = looksLikeHost s := by
  rw [looksLikeHost, isHostName_small, hasFileExtension_small, ← looksLikeHost]

/-! ## Tokens -/

/-- A pattern is the same whether it is given in capital or in small letters. -/
theorem patternChars_small (kind : RuleKind) (s : List Char) :
    Canonical.patternChars kind (small s) = Canonical.patternChars kind s := by
  cases kind <;> simp [Canonical.patternChars, trim_small, stripStart_small isDomainLead_toLower]

theorem classify?_small (token : List Char) : classify? (small token) = classify? token := by
  have hof (kind : RuleKind) : Candidate.of kind (small token) = Candidate.of kind token := by
    rw [Candidate.of, patternChars_small, ← Candidate.of]
  have htail : (small token).tail = small token.tail := List.map_tail.symm
  rw [classify?, isAtDomain_small, htail, isHostName_small, isAddress_small, looksLikeHost_small,
    hof, hof, ← classify?]

theorem tokens_small (s : List Char) : tokens (small s) = (tokens s).map small := by
  have hstrip : strip isWrapper ∘ small = small ∘ strip isWrapper :=
    funext (strip_small isWrapper_toLower)
  have hempty : (fun t : List Char => !t.isEmpty) ∘ small = fun t => !t.isEmpty := by
    funext t
    simp
  rw [tokens, words_small, List.map_map, hstrip, ← List.map_map, List.filter_map, hempty, ← tokens]

theorem candidates_small (s : List Char) : candidates (small s) = candidates s := by
  have hclassify : classify? ∘ small = classify? := funext classify?_small
  rw [candidates, tokens_small, List.filterMap_map, hclassify, ← candidates]

theorem condense_small (s : List Char) : condense (small s) = small (condense s) := by
  rw [condense, words_small, join_small (by decide), ← condense]

/-! ## Exceptions -/

theorem afterWord?_small (w s : List Char) :
    afterWord? w (small s) = (afterWord? w s).map small := by
  induction w generalizing s with
  | nil => rfl
  | cons letter w ih =>
    cases s with
    | nil => rfl
    | cons c s =>
      rw [small, List.map_cons, ← small, afterWord?, afterWord?, isLetterOf_toLower, ih]
      split <;> rfl

theorem startsWithWord_small (ws : List (List Char)) (before : Option Char) (s : List Char) :
    startsWithWord ws (before.map Char.toLower) (small s) = startsWithWord ws before s := by
  rw [startsWithWord, startsWithWord, Option.any_map]
  simp only [afterWord?_small, isWord_toLower]
  congr 2
  funext w
  cases afterWord? w s with
  | none => rfl
  | some r => simp [small, Option.any_map]

theorem mentions_small (ws : List (List Char)) (before : Option Char) (s : List Char) :
    mentions ws (before.map Char.toLower) (small s) = mentions ws before s := by
  induction s generalizing before with
  | nil => rfl
  | cons c s ih =>
    rw [mentions, ← startsWithWord_small, ← ih (some c)]
    rfl

theorem hasException_small (s : List Char) : hasException (small s) = hasException s :=
  mentions_small exceptionWords none s

/-! ## Readings -/

theorem draftOf_small (kind : RuleKind) (s : List Char) (action : RuleAction) (x : Float) :
    draftOf kind (small s) action x = draftOf kind s action x := by
  rw [draftOf, patternChars_small, ← draftOf]

/-- An instruction in small letters is read as it is. -/
theorem readTrimmed_small (s : List Char) (action : RuleAction) :
    readTrimmed (small s) action = readTrimmed s action := by
  rw [readTrimmed, isAtDomain_small, isBareAddress_small, looksLikeHost_small, candidates_small,
    hasException_small, condense_small]
  simp only [draftOf_small]
  rw [← readTrimmed]

/-- Instructions that differ in nothing but the case of letters of the English alphabet are read
alike. -/
theorem guess_recased {text text' : String} (h : SameButCase text.toList text'.toList)
    (action : RuleAction) : guess text action = guess text' action := by
  have htrim : small (trim text.toList) = small (trim text'.toList) := by
    rw [← trim_small, h.small_eq, trim_small]
  have hsmall (s : List Char) :
      (if s.isEmpty then Guess.doubtful none else readTrimmed s action) =
        if (small s).isEmpty then Guess.doubtful none else readTrimmed (small s) action := by
    rw [isEmpty_small, readTrimmed_small]
  rw [guess, guess, hsmall, htrim, ← hsmall]

/-- The capital sigma stands before a letter, so that it is not the final one in either text. -/
theorem guess_recased_sigma :
    SameButCase "MUTE ΟΔΟΣa@Acme.COM, not Notes.PDF".toList
        "mute ΟΔΟΣA@aCME.com, NOT nOTES.pdf".toList ∧
      guess "MUTE ΟΔΟΣa@Acme.COM, not Notes.PDF" .suppress =
        guess "mute ΟΔΟΣA@aCME.com, NOT nOTES.pdf" .suppress ∧
      (guess "MUTE ΟΔΟΣa@Acme.COM, not Notes.PDF" .suppress).needsHelp = false ∧
      ((guess "MUTE ΟΔΟΣa@Acme.COM, not Notes.PDF" .suppress).draft?.map Draft.pattern) =
        some "οδοσa@acme.com" := by
  have h : SameButCase "MUTE ΟΔΟΣa@Acme.COM, not Notes.PDF".toList
      "mute ΟΔΟΣA@aCME.com, NOT nOTES.pdf".toList := by
    decide +kernel
  exact ⟨h, guess_recased h .suppress, by decide +kernel, by decide +kernel⟩

end MailRules.Instruction
