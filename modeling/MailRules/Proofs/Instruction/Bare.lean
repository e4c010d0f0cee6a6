import MailRules.Proofs.Instruction.Mention
import MailRules.Proofs.Instruction.Shape

set_option autoImplicit false

/-!
# Instructions of one word

An instruction of one word can be read in two ways. If it has the form of an address, a domain after
an `@` or a host name as it stands, it is read as that (`isBareAddress`, `isAtDomain`,
`looksLikeHost`). Otherwise it is read like a sentence: the word is a token, from which wrapping
punctuation is taken away first.

The two ways agree on host names, which neither begin nor end with punctuation. They do not on words
with an `@`: all such words that name something have one of the first two forms as they stand
(`bare_of_at`), so that the punctuation around them is kept (`bare_agrees`).
-/

namespace MailRules.Instruction

open Text

/-! ## The token of a word -/

/-- A word is one token, without the punctuation around it. -/
theorem eq_strip_of_mem_tokens {s token : List Char} (h : ∀ c ∈ s, isBlank c = false)
    (hmem : token ∈ tokens s) : token = strip isWrapper s := by
  rw [tokens, List.mem_filter] at hmem
  obtain ⟨hmem, -⟩ := hmem
  by_cases hne : s = []
  · subst hne
    cases hmem
  · rw [words_of_plain hne h] at hmem
    exact List.mem_singleton.mp hmem

theorem isAddressChar_of_isWrapper {c : Char} (h : isWrapper c = true) : isAddressChar c = true := by
  have hat : c ≠ '@' := by
    rintro rfl
    revert h
    decide
  simp [isAddressChar, not_blank_of_isWrapper h, hat]

/-- The punctuation around a word holds no `@`. -/
theorem at_mem_strip {s : List Char} (h : '@' ∈ s) : '@' ∈ strip isWrapper s := by
  obtain ⟨before, after, hs, hbefore, hafter⟩ := strip_split isWrapper s
  rw [hs, List.mem_append, List.mem_append] at h
  rcases h with (hmem | hmem) | hmem
  · exact absurd hmem (at_not_mem fun c hc => isAddressChar_of_isWrapper (hbefore c hc))
  · exact hmem
  · exact absurd hmem (at_not_mem fun c hc => isAddressChar_of_isWrapper (hafter c hc))

/-- A word is its own token if the two have the same lower case. -/
theorem strip_eq_self {s : List Char} (h : lower s = lower (strip isWrapper s)) :
    strip isWrapper s = s := by
  obtain ⟨before, after, hs, -, -⟩ := strip_split isWrapper s
  exact (eq_of_lower_eq hs h).symm

/-- A host name begins with a letter or a digit. -/
theorem head?_of_isHostName {s : List Char} (h : isHostName s = true) :
    ∃ c, s.head? = some c ∧ isLetterOrDigit c = true := by
  unfold isHostName areLabels at h
  split at h
  · next top l rest hlabels =>
    obtain ⟨-, hinner⟩ := Bool.and_eq_true_iff.mp h
    -- the first label is one of those before the last
    obtain ⟨first, more, hfirst⟩ := List.exists_cons_of_ne_nil (segments_ne_nil '.' s)
    have hmem : first ∈ l :: rest := by
      have hreverse := congrArg List.reverse hlabels
      rw [List.reverse_reverse, hfirst, List.reverse_cons] at hreverse
      cases hrest : (l :: rest).reverse with
      | nil => simp at hrest
      | cons a as =>
        rw [hrest, List.cons_append] at hreverse
        rw [(List.cons.inj hreverse).1, ← List.mem_reverse, hrest]
        exact List.mem_cons_self
    have hlabel : isLabel first = true := List.all_eq_true.mp hinner first hmem
    simp only [isLabel, Bool.and_eq_true, Option.any_eq_true] at hlabel
    obtain ⟨⟨-, c, hc, hletter⟩, -⟩ := hlabel
    refine ⟨c, ?_, hletter⟩
    rw [← join_segments '.' s, hfirst]
    cases more with
    | nil => exact hc
    | cons m more => rw [join, List.append_assoc, List.head?_append, hc, Option.some_or]
  · cases h

theorem not_wrapper_of_isLetterOrDigit {c : Char} (h : isLetterOrDigit c = true) :
    isWrapper c = false := by
  rw [← Bool.not_eq_true]
  intro hwrapper
  have hnone := wrapper_forall (p := fun c => isLetterOrDigit c = false) (by decide) hwrapper
  rw [hnone] at h
  cases h

/-- A host name is its own token. -/
theorem strip_of_looksLikeHost {s : List Char} (h : looksLikeHost s = true) :
    strip isWrapper s = s := by
  have hhost : isHostName s = true := (Bool.and_eq_true_iff.mp h).1
  obtain ⟨a, ha, hletter⟩ := head?_of_isHostName hhost
  obtain ⟨b, hb, hletter'⟩ := getLast?_of_areLabels hhost
  have hlast : isLetterOrDigit b = true := Bool.or_eq_true_iff.mpr (Or.inl hletter')
  have hstart : stripStart isWrapper s = s := by
    refine stripStart_of_head fun c hc => ?_
    obtain rfl := Option.some.inj (ha.symm.trans hc)
    exact not_wrapper_of_isLetterOrDigit hletter
  rw [strip, hstart]
  refine stripEnd_of_last fun c hc => ?_
  obtain rfl := Option.some.inj (hb.symm.trans hc)
  exact not_wrapper_of_isLetterOrDigit hlast

/-! ## Words with an `@` -/

theorem not_looksLikeHost_of_at {s : List Char} (h : '@' ∈ s) : ¬ looksLikeHost s = true :=
  fun hhost => at_not_mem (isPlain_of_looksLikeHost hhost).chars h

/-- A word with an `@` whose token names something is an address or a domain as it stands. -/
theorem bare_of_at {s : List Char} {c : Candidate} (hat : '@' ∈ s)
    (hc : classify? (strip isWrapper s) = some c) : isAtDomain s = true ∨ isBareAddress s = true := by
  obtain ⟨before, after, hs, hbefore, hafter⟩ := strip_split isWrapper s
  have hat := at_mem_strip hat
  generalize strip isWrapper s = token at hs hc hat
  have hbefore : ∀ c ∈ before, isAddressChar c = true :=
    fun c hc => isAddressChar_of_isWrapper (hbefore c hc)
  have hafter : ∀ c ∈ after, isAddressChar c = true :=
    fun c hc => isAddressChar_of_isWrapper (hafter c hc)
  have hplain {host : List Char} (hhost : IsPlain host) : IsPlain (host ++ after) :=
    ⟨by simp [hhost.ne_nil], List.forall_mem_append.mpr ⟨hhost.chars, hafter⟩⟩
  rcases classify?_eq_some hc with ⟨hdomain, -⟩ | ⟨haddress, -⟩ | ⟨hhost, -⟩
  · obtain ⟨host, hhost, rfl⟩ := isAtDomain_iff.mp hdomain
    -- punctuation before the `@` is taken for the part of an address before its `@`
    by_cases hnil : before = []
    · refine Or.inl (isAtDomain_iff.mpr ⟨host ++ after, hplain hhost, ?_⟩)
      rw [hs, hnil]
      rfl
    · refine Or.inr (isBareAddress_iff.mpr
        ⟨before, host ++ after, ⟨hnil, hbefore⟩, hplain hhost, ?_⟩)
      rw [hs, List.append_assoc, List.cons_append]
  · obtain ⟨user, host, huser, hhost, rfl⟩ :=
      isBareAddress_iff.mp (isBareAddress_of_isAddress haddress)
    refine Or.inr (isBareAddress_iff.mpr ⟨before ++ user, host ++ after,
      ⟨by simp [huser.ne_nil], List.forall_mem_append.mpr ⟨hbefore, huser.chars⟩⟩,
      hplain hhost, ?_⟩)
    rw [hs]
    simp only [List.append_assoc, List.cons_append]
  · exact absurd hhost (not_looksLikeHost_of_at hat)

/-- A domain after an `@` is what its token names just if it is its own token. -/
theorem isAtDomain_agrees {s : List Char} {c : Candidate} (h : isAtDomain s = true)
    (hc : classify? (strip isWrapper s) = some c) :
    (RuleKind.domain = c.kind ∧ Canonical.patternChars .domain s = c.pattern) ↔
      strip isWrapper s = s := by
  obtain ⟨host, hhost, rfl⟩ := isAtDomain_iff.mp h
  constructor
  · rintro ⟨hkind, hpattern⟩
    rcases classify?_eq_some hc with ⟨hdomain, rfl⟩ | ⟨-, rfl⟩ | ⟨hlooks, -⟩
    · obtain ⟨host', hhost', htoken⟩ := isAtDomain_iff.mp hdomain
      refine strip_eq_self ?_
      rw [Candidate.of, htoken, hhost.patternChars_at, hhost'.patternChars_at] at hpattern
      have hat (t : List Char) : lower ('@' :: t) = '@' :: lower t := lower_at [] t
      rw [htoken, hat, hat, hpattern]
    · cases hkind
    · exact absurd hlooks (not_looksLikeHost_of_at (at_mem_strip List.mem_cons_self))
  · intro hsame
    rw [hsame] at hc
    rcases classify?_eq_some hc with ⟨-, rfl⟩ | ⟨haddress, -⟩ | ⟨-, rfl⟩
    · exact ⟨rfl, rfl⟩
    · exact absurd h (not_isAtDomain_of_isBareAddress (isBareAddress_of_isAddress haddress))
    · exact ⟨rfl, rfl⟩

/-- An address is what its token names just if it is its own token. -/
theorem isBareAddress_agrees {s : List Char} {c : Candidate} (h : isBareAddress s = true)
    (hc : classify? (strip isWrapper s) = some c) :
    (RuleKind.email = c.kind ∧ Canonical.patternChars .email s = c.pattern) ↔
      strip isWrapper s = s := by
  have hsolid := isSolid_of_isBareAddress h
  constructor
  · rintro ⟨hkind, hpattern⟩
    obtain ⟨haddress, htoken⟩ := classify?_email hc hkind.symm
    refine strip_eq_self ?_
    rw [← hsolid.patternChars_eq, ← (isSolid_of_isAddress haddress).patternChars_eq, hpattern,
      htoken]
  · intro hsame
    rw [hsame] at hc
    obtain ⟨user, host, haround⟩ := hsolid.around
    rcases classify?_eq_some hc with ⟨hdomain, -⟩ | ⟨-, rfl⟩ | ⟨hlooks, -⟩
    · exact absurd hdomain (not_isAtDomain_of_isBareAddress h)
    · exact ⟨rfl, rfl⟩
    · refine absurd hlooks (not_looksLikeHost_of_at ?_)
      rw [haround.split]
      simp

/-! ## Readings -/

/-- An instruction of one word that names one address or domain is read as what it names, just
unless it has an `@` and begins or ends with punctuation. -/
theorem bare_agrees {text : String} {c : Candidate} {action : RuleAction} {d : Draft}
    (hword : ∀ x ∈ trim text.toList, isBlank x = false) (hc : candidates text.toList = [c])
    (h : guess text action = .certain d) :
    (d.kind = c.kind ∧ d.pattern.toList = c.pattern) ↔
      ('@' ∈ trim text.toList → strip isWrapper (trim text.toList) = trim text.toList) := by
  have h := readTrimmed_of_guess h
  rw [← candidates_trim] at hc
  generalize trim text.toList = s at hword hc h
  have hmem : c ∈ candidates s := by
    rw [hc]
    exact List.mem_singleton_self c
  obtain ⟨token, htoken, hclassify⟩ := mem_candidates.mp hmem
  obtain rfl := eq_strip_of_mem_tokens hword htoken
  by_cases hat : '@' ∈ s
  · rw [forall_prop_of_true hat]
    rcases bare_of_at hat hclassify with hdomain | hbare
    · rw [readTrimmed, if_pos hdomain] at h
      cases h
      rw [draftOf, String.toList_ofList]
      exact isAtDomain_agrees hdomain hclassify
    · rw [readTrimmed, if_neg (not_isAtDomain_of_isBareAddress hbare), if_pos hbare] at h
      cases h
      rw [draftOf, String.toList_ofList]
      exact isBareAddress_agrees hbare hclassify
  · refine iff_of_true ?_ fun hmem => absurd hmem hat
    rcases readTrimmed_certain h with ⟨hdomain, -⟩ | ⟨hbare, -⟩ | ⟨hhost, rfl⟩ | ⟨e, he, -, rfl⟩
    · obtain ⟨host, -, rfl⟩ := isAtDomain_iff.mp hdomain
      exact absurd List.mem_cons_self hat
    · obtain ⟨user, host, -, -, rfl⟩ := isBareAddress_iff.mp hbare
      exact absurd (by simp) hat
    · rw [strip_of_looksLikeHost hhost] at hclassify
      rw [draftOf, String.toList_ofList]
      rcases classify?_eq_some hclassify with ⟨-, rfl⟩ | ⟨haddress, -⟩ | ⟨-, rfl⟩
      · exact ⟨rfl, rfl⟩
      · obtain ⟨user, host, rfl, -⟩ := isAddress_iff.mp haddress
        exact absurd (by simp) hat
      · exact ⟨rfl, rfl⟩
    · obtain rfl : c = e := List.singleton_inj.mp (hc.symm.trans he)
      rw [draftOf, String.toList_ofList]
      exact ⟨rfl, (candidates_isSettled hmem).patternChars_eq⟩

theorem bare_agrees_padded :
    (∀ x ∈ trim " Boss@Example.com\n".toList, isBlank x = false) ∧
      candidates " Boss@Example.com\n".toList = [⟨.email, "boss@example.com".toList⟩] ∧
      guess " Boss@Example.com\n" .vip =
        .certain (draftOf .email "Boss@Example.com".toList .vip bareConfidence) ∧
      (draftOf .email "Boss@Example.com".toList .vip bareConfidence).pattern.toList =
        "boss@example.com".toList := by
  have hword : ∀ x ∈ trim " Boss@Example.com\n".toList, isBlank x = false :=
    unblank_of_any (by decide +kernel)
  have hc : candidates " Boss@Example.com\n".toList = [⟨.email, "boss@example.com".toList⟩] := by
    decide +kernel
  have h : guess " Boss@Example.com\n" .vip =
      .certain (draftOf .email "Boss@Example.com".toList .vip bareConfidence) := rfl
  exact ⟨hword, hc, h, ((bare_agrees hword hc h).mpr fun _ => by decide +kernel).2⟩

/-- Brackets are kept around an address that stands by itself, and a full stop before the `@` of a
domain makes an address of it. -/
theorem wrapping_kept :
    candidates "<boss@acme.com>".toList = [⟨.email, "boss@acme.com".toList⟩] ∧
      guess "<boss@acme.com>" .suppress =
        .certain (draftOf .email "<boss@acme.com>".toList .suppress bareConfidence) ∧
      (draftOf .email "<boss@acme.com>".toList .suppress bareConfidence).pattern =
        "<boss@acme.com>" ∧
      candidates ".@acme.com".toList = [⟨.domain, "acme.com".toList⟩] ∧
      guess ".@acme.com" .suppress =
        .certain (draftOf .email ".@acme.com".toList .suppress bareConfidence) :=
  ⟨by decide +kernel, rfl, by decide +kernel, by decide +kernel, rfl⟩

end MailRules.Instruction
