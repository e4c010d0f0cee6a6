import MailRules.Proofs.Instruction.Layout

set_option autoImplicit false

/-!
# Names of files in instructions

A token that has the form of a host name and ends like the name of a file (`IsFileName`) names
nothing, so that putting one among the words of a sentence makes no difference (`Inserts`). An
instruction is never read as being about a domain that ends so, unless one of its tokens says so
with an `@` (`file_names_overlooked`).
-/

namespace MailRules.Instruction

open Text

/-- The name of a file that could be a host name. -/
def IsFileName (s : List Char) : Prop :=
  isHostName s = true ∧ hasFileExtension s = true

/-- The second text has the words of the first one and one more, before, behind or between them. -/
def Inserts (word s t : List Char) : Prop :=
  ∃ before after, words s = before ++ after ∧ words t = before ++ word :: after

/-- Some word of a text is, without its punctuation, an `@` before a domain of this pattern. -/
def SaysDomain (s pattern : List Char) : Prop :=
  ∃ word ∈ words s, (strip isWrapper word).head? = some '@' ∧
    Canonical.patternChars .domain (strip isWrapper word) = pattern

/-- A word between spaces is put in where words meet. -/
theorem inserts_spaced {word s t : List Char} (hne : word ≠ [])
    (hword : ∀ c ∈ word, isBlank c = false)
    (hcut : s.getLast?.all isBlank = true ∨ t.head?.all isBlank = true) :
    Inserts word (s ++ t) (s ++ ' ' :: (word ++ ' ' :: t)) := by
  have hspace : isBlank ' ' = true := by decide
  refine ⟨words s, words t, words_append hcut, ?_⟩
  rw [words_append_blank hspace, words_append_blank hspace, words_of_plain hne hword,
    List.singleton_append]

/-! ## Last labels -/

/-- A text ends with its last label. -/
theorem lastLabel_isSuffix (s : List Char) : lastLabel s <:+ s := by
  obtain ⟨start, last, hsegments⟩ :=
    (List.eq_nil_or_concat' (segments '.' s)).resolve_left (segments_ne_nil '.' s)
  have hlast : lastLabel s = last := by
    rw [lastLabel, hsegments, List.getLast?_concat]
    rfl
  have hsuffix := suffix_join ['.'] start last
  rwa [← hsegments, join_segments, ← hlast] at hsuffix

theorem stop_of_mem_lowerChar {c : Char} (h : '.' ∈ lowerChar c) : c = '.' :=
  eq_of_mem_lowerChar h (by decide) (by decide)

/-- A host name is lowercased label by label. -/
theorem lastLabel_lower {s : List Char} (h : isHostName s = true) :
    lastLabel (lower s) = lower (lastLabel s) := by
  have hsigma : 'Σ' ∉ s := by
    intro hmem
    rcases char_of_isHostName h 'Σ' hmem with hstop | hlabel
    · cases hstop
    · exact absurd hlabel (by decide)
  have hlast : 'Σ' ∉ lastLabel s := fun hmem => hsigma ((lastLabel_isSuffix s).mem hmem)
  have hsegments : segments '.' (lower s) = (segments '.' s).map (List.flatMap lowerChar) := by
    rw [lower_eq_flatMap hsigma]
    exact segments_flatMap rfl (fun c => stop_of_mem_lowerChar) s
  rw [lower_eq_flatMap hlast, lastLabel, lastLabel, hsegments, List.getLast?_map]
  cases (segments '.' s).getLast? <;> rfl

/-- A host name that is read as one does not end like the name of a file: what it ends like is
looked up in lower case. -/
theorem lastLabel_patternChars {s : List Char} (h : looksLikeHost s = true) :
    lastLabel (Canonical.patternChars .domain s) ∉ fileExtensions := by
  obtain ⟨hhost, hextension⟩ := Bool.and_eq_true_iff.mp h
  intro hmem
  rw [(isPlain_of_looksLikeHost h).patternChars_eq, lastLabel_lower hhost] at hmem
  rw [hasFileExtension, List.contains_iff_mem.mpr hmem] at hextension
  cases hextension

/-- A text that ends like the name of a file ends with no punctuation. -/
theorem getLast?_of_lastLabel {s : List Char} (h : lastLabel s ∈ fileExtensions) :
    ∃ c, s.getLast? = some c ∧ isWrapper c = false := by
  have hall : ∀ l ∈ fileExtensions, l ≠ [] ∧ l.any isWrapper = false := by decide
  obtain ⟨hne, hplain⟩ := hall _ h
  obtain ⟨start, hs⟩ := lastLabel_isSuffix s
  refine ⟨(lastLabel s).getLast hne, ?_, ?_⟩
  · have hlast := List.getLast?_append_of_ne_nil start hne
    rw [hs] at hlast
    rw [hlast, List.getLast?_eq_some_getLast hne]
  · simpa using List.any_eq_false.mp hplain _ (List.getLast_mem hne)

/-- Punctuation at the end of a text stays there in lower case. -/
theorem getLast?_lower_of_isWrapper {s : List Char} {c : Char} (h : s.getLast? = some c)
    (hc : isWrapper c = true) : (lower s).getLast? = some c := by
  obtain ⟨start, rfl⟩ := List.getLast?_eq_some_iff.mp h
  have hlow : IsLow c := wrapper_forall (by decide +kernel) hc
  obtain ⟨before, hbefore⟩ := suffix_lowerAfter false start [c]
  rw [lowerAfter_of_low (List.forall_mem_singleton.mpr hlow)] at hbefore
  rw [lower, ← hbefore, List.getLast?_concat]

/-! ## Tokens that name nothing -/

/-- The name of a file is no address, and does not pass for a host name. -/
theorem IsFileName.classify?_eq_none {s : List Char} (h : IsFileName s) : classify? s = none := by
  obtain ⟨hhost, hextension⟩ := h
  have hat : '@' ∉ s := at_not_mem (isAddressChar_of_isHostName hhost)
  cases hc : classify? s with
  | none => rfl
  | some c =>
    exfalso
    rcases classify?_eq_some hc with ⟨hdomain, -⟩ | ⟨haddress, -⟩ | ⟨hlooks, -⟩
    · obtain ⟨host, -, rfl⟩ := isAtDomain_iff.mp hdomain
      exact hat List.mem_cons_self
    · obtain ⟨user, host, rfl, -⟩ := isAddress_iff.mp haddress
      exact hat (by simp)
    · rw [looksLikeHost, hextension, Bool.not_true, Bool.and_false] at hlooks
      cases hlooks

/-- What a word of a sentence names without its punctuation. -/
def named? (word : List Char) : Option Candidate :=
  classify? (strip isWrapper word)

/-- A sentence names what its words name. -/
theorem candidates_eq (s : List Char) :
    candidates s = ((words s).filterMap named?).foldl addNew [] := by
  have hempty : (fun t => if !t.isEmpty then classify? t else none) = classify? := by
    funext t
    cases t <;> rfl
  rw [candidates, tokens, List.filterMap_filter, hempty, List.filterMap_map]
  rfl

/-- The name of a file among the words of a sentence makes no difference to what it names. -/
theorem Inserts.candidates_eq {word s t : List Char} (h : Inserts word s t)
    (hname : IsFileName (strip isWrapper word)) : candidates t = candidates s := by
  obtain ⟨before, after, hs, ht⟩ := h
  have hnone : named? word = none := hname.classify?_eq_none
  rw [Instruction.candidates_eq, Instruction.candidates_eq, hs, ht, List.filterMap_append,
    List.filterMap_append, List.filterMap_cons_none hnone]

/-! ## Readings -/

/-- An exception in a text without the blanks at its ends is one in the text. -/
theorem hasException_of_trim {s : List Char} (h : hasException (trim s) = true) :
    hasException s = true := by
  obtain ⟨w, hw, u, hu, before, after, htrim, hbefore, hafter⟩ := hasException_iff.mp h
  obtain ⟨start, rest, hs, hstart, hrest⟩ := trim_split s
  have hbetween : IsBetween isBlank s (before ++ u ++ after) :=
    ⟨start, rest, by rw [← htrim, ← hs], getLast?_all_of_all hstart, by
      rw [Option.all_eq_true]
      exact fun c hc => hrest c (List.mem_of_head? hc)⟩
  exact hasException_iff.mpr
    ⟨w, hw, u, hu, hbetween.inner (fun _ => isApart_of_isBlank) hbefore hafter⟩

/-- A text of several words is read by its words. -/
theorem readTrimmed_of_words {s : List Char} (h : 2 ≤ (words s).length) {action : RuleAction}
    {d : Draft} :
    readTrimmed s action = .certain d ↔ ∃ c, candidates s = [c] ∧ hasException s = false ∧
      d = draftOf c.kind c.pattern action sentenceConfidence := by
  have hblank : ∃ c ∈ s, isBlank c = true := by
    by_contra hnone
    simp only [not_exists, not_and, Bool.not_eq_true] at hnone
    by_cases hne : s = []
    · rw [hne] at h
      cases h
    · rw [words_of_plain hne hnone] at h
      exact absurd h (by simp)
  obtain ⟨b, hb, hbblank⟩ := hblank
  obtain ⟨hat, hbare, hhost⟩ := not_bare_of_blank hb hbblank
  constructor
  · intro hread
    rcases readTrimmed_certain hread with ⟨hdomain, -⟩ | ⟨haddress, -⟩ | ⟨hlooks, -⟩ | hsentence
    · rw [hat] at hdomain
      cases hdomain
    · rw [hbare] at haddress
      cases haddress
    · rw [hhost] at hlooks
      cases hlooks
    · exact hsentence
  · rintro ⟨c, hc, hexception, rfl⟩
    simp [readTrimmed, hat, hbare, hhost, hc, hexception]

theorem guess_of_words {text : String} (h : 2 ≤ (words text.toList).length) (action : RuleAction) :
    guess text action = readTrimmed (trim text.toList) action := by
  have hne : ¬ (trim text.toList).isEmpty = true := by
    intro hempty
    rw [← words_trim, List.isEmpty_iff.mp hempty] at h
    cases h
  rw [guess]
  exact if_neg hne

/-- A domain after an `@` that ends like the name of a file is a word without punctuation. -/
theorem saysDomain_of_isAtDomain {s : List Char} (h : isAtDomain s = true)
    (hextension : lastLabel (Canonical.patternChars .domain s) ∈ fileExtensions) :
    SaysDomain s (Canonical.patternChars .domain s) := by
  obtain ⟨host, hhost, rfl⟩ := isAtDomain_iff.mp h
  have hunblank : ∀ c ∈ '@' :: host, isBlank c = false :=
    List.forall_mem_cons.mpr ⟨by decide, hhost.unblank⟩
  rw [hhost.patternChars_at] at hextension
  obtain ⟨c, hc, hplain⟩ := getLast?_of_lastLabel hextension
  have hstrip : strip isWrapper ('@' :: host) = '@' :: host := by
    have hstart : stripStart isWrapper ('@' :: host) = '@' :: host :=
      stripStart_of_head fun d hd => by
        cases hd
        decide
    rw [strip, hstart]
    refine stripEnd_of_last fun d hd => ?_
    rw [List.getLast?_cons_of_ne_nil hhost.ne_nil] at hd
    rw [← Bool.not_eq_true]
    intro hwrapper
    obtain rfl := Option.some.inj ((getLast?_lower_of_isWrapper hd hwrapper).symm.trans hc)
    rw [hplain] at hwrapper
    cases hwrapper
  refine ⟨'@' :: host, ?_, by rw [hstrip]; rfl, by rw [hstrip]⟩
  rw [words_of_plain (List.cons_ne_nil _ _) hunblank]
  exact List.mem_singleton_self _

/-- Of what a sentence names, only a domain after an `@` ends like the name of a file. -/
theorem saysDomain_of_mem_candidates {s : List Char} {c : Candidate} (h : c ∈ candidates s)
    (hkind : c.kind = .domain) (hextension : lastLabel c.pattern ∈ fileExtensions) :
    SaysDomain s c.pattern := by
  obtain ⟨token, htoken, hc⟩ := mem_candidates.mp h
  obtain ⟨word, hword, rfl⟩ := List.mem_map.mp (List.mem_filter.mp htoken).1
  rcases classify?_eq_some hc with ⟨hdomain, rfl⟩ | ⟨-, rfl⟩ | ⟨hlooks, rfl⟩
  · obtain ⟨host, -, hhost⟩ := isAtDomain_iff.mp hdomain
    exact ⟨word, hword, by rw [hhost]; rfl, rfl⟩
  · cases hkind
  · exact absurd hextension (lastLabel_patternChars hlooks)

/-- An instruction that is certainly about a domain that ends like the name of a file has an `@`
before it. -/
theorem readTrimmed_saysDomain {s : List Char} {action : RuleAction} {d : Draft}
    (h : readTrimmed s action = .certain d) (hkind : d.kind = .domain)
    (hextension : lastLabel d.pattern.toList ∈ fileExtensions) : SaysDomain s d.pattern.toList := by
  rcases readTrimmed_certain h with ⟨hdomain, rfl⟩ | ⟨-, rfl⟩ | ⟨hlooks, rfl⟩ | ⟨c, hc, -, rfl⟩
  · rw [draftOf, String.toList_ofList] at hextension ⊢
    exact saysDomain_of_isAtDomain hdomain hextension
  · cases hkind
  · rw [draftOf, String.toList_ofList] at hextension
    exact absurd hextension (lastLabel_patternChars hlooks)
  · have hmem : c ∈ candidates s := by
      rw [hc]
      exact List.mem_singleton_self c
    rw [draftOf, String.toList_ofList, (candidates_isSettled hmem).patternChars_eq]
      at hextension ⊢
    exact saysDomain_of_mem_candidates hmem hkind hextension

/-- The name of a file is not taken for a domain: an instruction that is certainly about a domain
that ends like one has the domain after an `@`. Nor does the name of a file, put in among the words
of a sentence that is read with certainty, make any difference, if it does not complete an
exception. -/
theorem file_names_overlooked {text : String} {action : RuleAction} {d : Draft}
    (h : guess text action = .certain d) :
    (d.kind = .domain → lastLabel d.pattern.toList ∈ fileExtensions →
      SaysDomain text.toList d.pattern.toList) ∧
    ∀ {text' : String} {word : List Char}, 2 ≤ (words text.toList).length →
      Inserts word text.toList text'.toList → IsFileName (strip isWrapper word) →
      hasException text'.toList = false → guess text' action = guess text action := by
  have hread := readTrimmed_of_guess h
  constructor
  · intro hkind hextension
    have hnamed := readTrimmed_saysDomain hread hkind hextension
    rwa [SaysDomain, words_trim] at hnamed
  · intro text' word hwords hinserts hname hexception
    have hwords' : 2 ≤ (words text'.toList).length := by
      obtain ⟨before, after, hs, ht⟩ := hinserts
      rw [hs, List.length_append] at hwords
      rw [ht, List.length_append, List.length_cons]
      omega
    obtain ⟨c, hc, -, rfl⟩ := (readTrimmed_of_words (by rwa [words_trim])).mp hread
    rw [h, guess_of_words hwords']
    refine (readTrimmed_of_words (by rwa [words_trim])).mpr ⟨c, ?_, ?_, rfl⟩
    · rw [candidates_trim, hinserts.candidates_eq hname, ← candidates_trim, hc]
    · rw [← Bool.not_eq_true]
      intro htrim
      rw [hasException_of_trim htrim] at hexception
      cases hexception

theorem file_names_overlooked_invoice :
    SaysDomain "mute (@Invoice.PDF) please".toList "invoice.pdf".toList ∧
      guess "mute (@Invoice.PDF) [Notes.txt],  please" .suppress =
        guess "mute (@Invoice.PDF) please" .suppress := by
  have h : guess "mute (@Invoice.PDF) please" .suppress =
      .certain (draftOf .domain "invoice.pdf".toList .suppress sentenceConfidence) := rfl
  have hinserts : Inserts "[Notes.txt],".toList "mute (@Invoice.PDF) please".toList
      "mute (@Invoice.PDF) [Notes.txt],  please".toList :=
    inserts_spaced (s := "mute (@Invoice.PDF)".toList) (t := " please".toList) (by decide)
      (unblank_of_any (by decide +kernel)) (Or.inr (by decide +kernel))
  obtain ⟨hnamed, hsame⟩ := file_names_overlooked h
  exact ⟨hnamed rfl (by decide +kernel), hsame (by decide +kernel) hinserts
    ⟨by decide +kernel, by decide +kernel⟩ (by decide +kernel)⟩

end MailRules.Instruction
