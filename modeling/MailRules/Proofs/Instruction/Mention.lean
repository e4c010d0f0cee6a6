import MailRules.Proofs.Instruction.Address
import MailRules.Proofs.Text.Words

set_option autoImplicit false

/-!
# Sentences that mention several addresses

A person sees an address in a sentence wherever it stands between blanks, punctuation and the ends
of the text (`Mentions`). The tokens of a sentence are cut at blanks alone: an address is one of
them only if it is a word of its own but for the punctuation around it (`StandsAlone`), and then
without the full stops at its start.

So a sentence that mentions two addresses is read with certainty just when exactly one of its tokens
names something and it makes no exception. If both addresses stand alone, and differ without those
full stops too, it never is; of others, all but one may be overlooked.
-/

namespace MailRules.Instruction

open Text

/-- What may stand beside an address: blanks, and wrapping punctuation that is no part of it. -/
def isBorder (c : Char) : Bool :=
  isBlank c || (isWrapper c && c ≠ '.')

/-- A text has a stretch between characters of a class, or at its ends. -/
def IsBetween (p : Char → Bool) (text s : List Char) : Prop :=
  ∃ before after, text = before ++ s ++ after ∧ before.getLast?.all p = true ∧
    after.head?.all p = true

/-- A text has an address that stands between borders and has none in it. -/
structure Mentions (text a : List Char) : Prop where
  address : isAddress a = true
  plain : (a.filter isWrapper).all (· = '.') = true
  placed : IsBetween isBorder text a

/-- An address without the full stops at its start. -/
def unwrapped (a : List Char) : List Char :=
  stripStart (· = '.') a

/-- Some blank-separated word of a text is the address in wrapping punctuation. -/
structure StandsAlone (text a : List Char) : Prop where
  /-- The address has more than full stops before its `@`. -/
  named : (unwrapped a).head? ≠ some '@'
  placed : ∃ opening closing, opening.all isWrapper = true ∧ closing.all isWrapper = true ∧
    IsBetween isBlank text (opening ++ a ++ closing)

/-! ## Characters -/

/-- The codes of all wrapping punctuation. -/
def wrapperCodes : List Nat :=
  [33, 34, 39, 40, 41, 44, 46, 58, 59, 60, 62, 63, 91, 93, 96, 123, 125]

/-- A property of all wrapping punctuation, checked code by code. -/
theorem wrapper_forall {p : Char → Prop} (h : ∀ n ∈ wrapperCodes, p (Char.ofNat n)) {c : Char}
    (hc : isWrapper c = true) : p c := by
  have hmem : c.toNat ∈ wrapperCodes := by
    rcases Bool.or_eq_true_iff.mp hc with hlisted | hgrave
    · have hall : "\"'()[]<>\x7b\x7d,;:!?.".toList.all (wrapperCodes.contains ·.toNat) = true := rfl
      exact List.contains_iff_mem.mp
        (List.all_eq_true.mp hall c (List.contains_iff_mem.mp hlisted))
    · rw [decide_eq_true_eq.mp hgrave]
      decide
  have hcode := h c.toNat hmem
  rwa [Char.ofNat_toNat] at hcode

theorem not_blank_of_isWrapper {c : Char} (h : isWrapper c = true) : isBlank c = false :=
  wrapper_forall (p := fun c => isBlank c = false) (by decide) h

theorem not_letter_of_isWrapper {c : Char} (h : isWrapper c = true) : isLetter c = false :=
  wrapper_forall (p := fun c => isLetter c = false) (by decide) h

/-! ## Between borders -/

theorem takeWhile_of_border {p : Char → Bool} {u v : List Char} (hu : ∀ c ∈ u, p c = false)
    (hv : v.head?.all p = true) : (u ++ v).takeWhile (fun c => !p c) = u := by
  rw [List.takeWhile_append_of_pos fun c hc => by rw [hu c hc, Bool.not_false]]
  cases v with
  | nil => simp
  | cons c v =>
    have hc : p c = true := hv
    simp [hc]

/-- Where two stretches without borders begin a text before a border, they are one. -/
theorem eq_of_border {p : Char → Bool} {u u' v v' : List Char} (h : u ++ v = u' ++ v')
    (hu : ∀ c ∈ u, p c = false) (hu' : ∀ c ∈ u', p c = false)
    (hv : v.head?.all p = true) (hv' : v'.head?.all p = true) : u = u' := by
  rw [← takeWhile_of_border hu hv, ← takeWhile_of_border hu' hv', h]

/-- Where two stretches without borders end a text after a border, they are one. -/
theorem eq_of_border_before {p : Char → Bool} {u u' v v' : List Char} (h : v ++ u = v' ++ u')
    (hu : ∀ c ∈ u, p c = false) (hu' : ∀ c ∈ u', p c = false)
    (hv : v.getLast?.all p = true) (hv' : v'.getLast?.all p = true) : u = u' := by
  have hreverse : u.reverse ++ v.reverse = u'.reverse ++ v'.reverse := by
    rw [← List.reverse_append, h, List.reverse_append]
  refine List.reverse_injective (eq_of_border (p := p) hreverse ?_ ?_ ?_ ?_)
  · simpa using hu
  · simpa using hu'
  · rwa [List.head?_reverse]
  · rwa [List.head?_reverse]

theorem Mentions.full_stop {text a : List Char} (h : Mentions text a) {c : Char} (hc : c ∈ a)
    (hwrapper : isWrapper c = true) : c = '.' := by
  simpa using List.all_eq_true.mp h.plain c (List.mem_filter.mpr ⟨hc, hwrapper⟩)

theorem Mentions.not_border {text a : List Char} (h : Mentions text a) :
    ∀ c ∈ a, isBorder c = false := by
  intro c hc
  have hblank : isBlank c = false := (isSolid_of_isAddress h.address).unblank c hc
  cases hwrapper : isWrapper c with
  | false => simp [isBorder, hblank, hwrapper]
  | true =>
    obtain rfl := h.full_stop hc hwrapper
    decide

/-- An address that a text mentions has an `@` of the text. -/
theorem Mentions.count_pos {text a : List Char} (h : Mentions text a) : 0 < text.count '@' := by
  obtain ⟨user, host, haround⟩ := (isSolid_of_isAddress h.address).around
  obtain ⟨before, after, htext, -, -⟩ := h.placed
  rw [List.count_pos_iff, htext, haround.split]
  simp

/-- Of an `@` a text mentions one address at most. -/
theorem Mentions.unique {text a b : List Char} (ha : Mentions text a) (hb : Mentions text b)
    (hcount : text.count '@' = 1) : a = b := by
  obtain ⟨user, host, haround⟩ := (isSolid_of_isAddress ha.address).around
  obtain ⟨user', host', haround'⟩ := (isSolid_of_isAddress hb.address).around
  obtain ⟨before, after, htext, hbefore, hafter⟩ := ha.placed
  obtain ⟨before', after', htext', hbefore', hafter'⟩ := hb.placed
  have hsplit : text = (before ++ user) ++ '@' :: (host ++ after) := by
    rw [htext, haround.split]
    simp
  have hsplit' : text = (before' ++ user') ++ '@' :: (host' ++ after') := by
    rw [htext', haround'.split]
    simp
  have hnone : '@' ∉ before ++ user ∧ '@' ∉ host ++ after := by
    rw [hsplit, List.count_append, List.count_cons_self] at hcount
    exact ⟨List.count_eq_zero.mp (by omega), List.count_eq_zero.mp (by omega)⟩
  -- the one `@` of the text is that of both addresses
  obtain ⟨husers, -, hhosts⟩ :=
    (List.append_cons_inj_of_notMem hnone.1 hnone.2).mp (hsplit.symm.trans hsplit')
  have hplain := ha.not_border
  have hplain' := hb.not_border
  rw [haround.split, List.forall_mem_append, List.forall_mem_cons] at hplain
  rw [haround'.split, List.forall_mem_append, List.forall_mem_cons] at hplain'
  have huser : user = user' :=
    eq_of_border_before husers hplain.1 hplain'.1 hbefore hbefore'
  have hhost : host = host' :=
    eq_of_border hhosts hplain.2.2 hplain'.2.2 hafter hafter'
  rw [haround.split, haround'.split, huser, hhost]

/-! ## Texts that are one address -/

theorem count_of_isAtDomain {s : List Char} (h : isAtDomain s = true) : s.count '@' ≤ 1 := by
  unfold isAtDomain at h
  split at h
  · next r =>
    have hrest : '@' ∉ r := at_not_mem (List.all_eq_true.mp (Bool.and_eq_true_iff.mp h).2)
    rw [List.count_cons_self, List.count_eq_zero.mpr hrest]
  · cases h

theorem count_of_isBareAddress {s : List Char} (h : isBareAddress s = true) :
    s.count '@' ≤ 1 := by
  obtain ⟨user, host, haround⟩ := (isSolid_of_isBareAddress h).around
  rw [haround.split, List.count_append, List.count_cons_self,
    List.count_eq_zero.mpr haround.user, List.count_eq_zero.mpr haround.host]

theorem count_of_looksLikeHost {s : List Char} (h : looksLikeHost s = true) :
    s.count '@' ≤ 1 := by
  have hnone : '@' ∉ s := at_not_mem (isAddressChar_of_isHostName (Bool.and_eq_true_iff.mp h).1)
  rw [List.count_eq_zero.mpr hnone]
  exact Nat.zero_le 1

/-- A text with more than one `@` is read by its tokens. -/
theorem readTrimmed_certain_iff {s : List Char} (hcount : 1 < s.count '@') (action : RuleAction) :
    (readTrimmed s action).needsHelp = false ↔
      (∃ c, candidates s = [c]) ∧ hasException s = false := by
  have hdomain : ¬ isAtDomain s = true :=
    fun h => absurd hcount (Nat.not_lt.mpr (count_of_isAtDomain h))
  have hbare : ¬ isBareAddress s = true :=
    fun h => absurd hcount (Nat.not_lt.mpr (count_of_isBareAddress h))
  have hhost : ¬ looksLikeHost s = true :=
    fun h => absurd hcount (Nat.not_lt.mpr (count_of_looksLikeHost h))
  rw [readTrimmed, if_neg hdomain, if_neg hbare, if_neg hhost]
  cases hcandidates : candidates s with
  | nil => simp [Guess.needsHelp]
  | cons c cs =>
    cases cs with
    | nil => cases hexception : hasException s <;> simp [Guess.needsHelp]
    | cons d ds => simp [Guess.needsHelp]

/-! ## Words that are addresses in punctuation -/

/-- An address ends with no wrapping punctuation. -/
theorem getLast?_of_isAddress {a : List Char} (h : isAddress a = true) {c : Char}
    (hc : a.getLast? = some c) : isWrapper c = false := by
  obtain ⟨user, host, rfl, -, -, hhost⟩ := isAddress_iff.mp h
  obtain ⟨d, hd, hletter⟩ := getLast?_of_areLabels hhost
  have hlast : (user ++ '@' :: host).getLast? = some d := by
    rw [List.getLast?_append, List.getLast?_cons, hd]
    rfl
  obtain rfl : d = c := Option.some.inj (hlast.symm.trans hc)
  by_contra hwrapper
  rw [not_letter_of_isWrapper (by simpa using hwrapper)] at hletter
  cases hletter

section Unwrapped

variable {a : List Char}

/-- If it has more than full stops before its `@`, an address is one without those at its start. -/
theorem isAddress_unwrapped (h : isAddress a = true) (hnamed : (unwrapped a).head? ≠ some '@') :
    isAddress (unwrapped a) = true := by
  obtain ⟨user, host, rfl, -, huser, hhost⟩ := isAddress_iff.mp h
  have hsplit : unwrapped (user ++ '@' :: host) = unwrapped user ++ '@' :: host := by
    unfold unwrapped stripStart
    rw [List.dropWhile_append]
    split
    · next hempty =>
      rw [List.isEmpty_iff.mp hempty, List.dropWhile_cons_of_neg (by decide), List.nil_append]
    · rfl
  rw [hsplit] at hnamed ⊢
  refine isAddress_iff.mpr ⟨unwrapped user, host, rfl, ?_, ?_, hhost⟩
  · intro hnil
    rw [hnil] at hnamed
    exact hnamed rfl
  · intro c hc
    exact huser c ((List.dropWhile_sublist _).mem hc)

/-- Taking the punctuation off a word leaves the address in it. -/
theorem strip_wrapped {opening closing : List Char} (h : isAddress a = true)
    (hnamed : (unwrapped a).head? ≠ some '@') (hplain : ∀ c ∈ a, isWrapper c = true → c = '.')
    (hopening : ∀ c ∈ opening, isWrapper c = true) (hclosing : ∀ c ∈ closing, isWrapper c = true) :
    strip isWrapper (opening ++ a ++ closing) = unwrapped a := by
  have hat : '@' ∈ a := by
    obtain ⟨user, host, rfl, -⟩ := isAddress_iff.mp h
    simp
  have hdots : stripStart isWrapper a = unwrapped a := by
    refine stripStart_congr fun c hc => ?_
    by_cases hdot : c = '.'
    · rw [hdot]
      decide
    · have hwrapper : ¬ isWrapper c = true := fun hwrapper => hdot (hplain c hc hwrapper)
      simp [hdot, hwrapper]
  have hstart : stripStart isWrapper (opening ++ a ++ closing) = unwrapped a ++ closing := by
    rw [List.append_assoc, stripStart, List.dropWhile_append_of_pos hopening, ← stripStart,
      stripStart_append hat (by decide), hdots]
  rw [strip, hstart, stripEnd_append hclosing]
  exact stripEnd_of_last fun c hc => getLast?_of_isAddress (isAddress_unwrapped h hnamed) hc

/-- What a token says that is an address. -/
theorem classify?_of_isAddress (h : isAddress a = true) (hhead : a.head? ≠ some '@') :
    classify? a = some ⟨.email, lower a⟩ := by
  have hdomain : ¬ (isAtDomain a && isHostName a.tail) = true := by
    intro hdomain
    have hat : isAtDomain a = true := (Bool.and_eq_true_iff.mp hdomain).1
    unfold isAtDomain at hat
    split at hat
    · exact hhead rfl
    · cases hat
  rw [classify?, if_neg hdomain, if_pos h, Candidate.of, (isSolid_of_isAddress h).patternChars_eq]

end Unwrapped

/-- An address that stands alone is seen, but for the full stops at its start. -/
theorem StandsAlone.mem_candidates {text a : List Char} (h : StandsAlone text a)
    (hmentions : Mentions text a) : ⟨.email, lower (unwrapped a)⟩ ∈ candidates text := by
  obtain ⟨opening, closing, hopening, hclosing, before, after, htext, hbefore, hafter⟩ := h.placed
  rw [List.all_eq_true] at hopening hclosing
  rw [Option.all_eq_true] at hbefore hafter
  have haddress : isAddress (unwrapped a) = true := isAddress_unwrapped hmentions.address h.named
  have hblank : ∀ c ∈ opening ++ a ++ closing, isBlank c = false := by
    rw [List.forall_mem_append, List.forall_mem_append]
    exact ⟨⟨fun c hc => not_blank_of_isWrapper (hopening c hc),
      (isSolid_of_isAddress hmentions.address).unblank⟩,
      fun c hc => not_blank_of_isWrapper (hclosing c hc)⟩
  have hne : opening ++ a ++ closing ≠ [] := by
    obtain ⟨user, host, rfl, -⟩ := isAddress_iff.mp hmentions.address
    simp
  have hword : opening ++ a ++ closing ∈ words text := by
    rw [htext]
    exact mem_words hne hblank hbefore hafter
  refine Instruction.mem_candidates.mpr ⟨unwrapped a, ?_, classify?_of_isAddress haddress h.named⟩
  refine List.mem_filter.mpr ⟨List.mem_map.mpr ⟨_, hword, ?_⟩, ?_⟩
  · exact strip_wrapped hmentions.address h.named (fun c => hmentions.full_stop) hopening hclosing
  · obtain ⟨user, host, hsplit, -⟩ := isAddress_iff.mp haddress
    rw [hsplit]
    simp

/-! ## Readings -/

/-- Blanks at the ends of a sentence do not count. -/
theorem candidates_trim (s : List Char) : candidates (trim s) = candidates s := by
  rw [candidates, tokens, words_trim, ← tokens, ← candidates]

/-- A sentence that mentions two addresses is read with certainty just when exactly one of its
tokens names something and it makes no exception; it never is if both addresses stand alone and
differ in more than the full stops at their starts. -/
theorem guess_of_two {text : String} {a b : List Char} (ha : Mentions text.toList a)
    (hb : Mentions text.toList b) (hne : lower a ≠ lower b) (action : RuleAction) :
    ((guess text action).needsHelp = false ↔
        (∃ c, candidates text.toList = [c]) ∧ hasException (trim text.toList) = false) ∧
      (StandsAlone text.toList a → StandsAlone text.toList b →
        lower (unwrapped a) ≠ lower (unwrapped b) → (guess text action).needsHelp = true) := by
  have hcount : 1 < (trim text.toList).count '@' := by
    rw [count_trim (by decide)]
    by_contra hle
    have hone : text.toList.count '@' = 1 := by
      have hpos := ha.count_pos
      omega
    exact hne (congrArg lower (ha.unique hb hone))
  have hnil : ¬ (trim text.toList).isEmpty = true := by
    intro hempty
    rw [List.isEmpty_iff.mp hempty] at hcount
    cases hcount
  have hiff : (guess text action).needsHelp = false ↔
      (∃ c, candidates text.toList = [c]) ∧ hasException (trim text.toList) = false := by
    simp only [guess, if_neg hnil]
    rw [readTrimmed_certain_iff hcount, candidates_trim]
  refine ⟨hiff, fun hsa hsb hdiffer => ?_⟩
  by_contra hcertain
  obtain ⟨⟨c, hc⟩, -⟩ := hiff.mp (by simpa using hcertain)
  have hca := hsa.mem_candidates ha
  have hcb := hsb.mem_candidates hb
  rw [hc, List.mem_singleton] at hca hcb
  exact hdiffer (congrArg Candidate.pattern (hca.trans hcb.symm))

/-- Two addresses that stand alone, the one before a comma, the other in parentheses. -/
theorem guess_of_two_alone :
    Mentions "mute Ann@x.com, (bob@y.com) too".toList "Ann@x.com".toList ∧
      Mentions "mute Ann@x.com, (bob@y.com) too".toList "bob@y.com".toList ∧
      (guess "mute Ann@x.com, (bob@y.com) too" .suppress).needsHelp = true := by
  have hann : Mentions "mute Ann@x.com, (bob@y.com) too".toList "Ann@x.com".toList :=
    ⟨by decide +kernel, by decide +kernel, "mute ".toList, ", (bob@y.com) too".toList,
      by decide +kernel⟩
  have hbob : Mentions "mute Ann@x.com, (bob@y.com) too".toList "bob@y.com".toList :=
    ⟨by decide +kernel, by decide +kernel, "mute Ann@x.com, (".toList, ") too".toList,
      by decide +kernel⟩
  have halone : StandsAlone "mute Ann@x.com, (bob@y.com) too".toList "Ann@x.com".toList :=
    ⟨by decide +kernel, [], ",".toList, by decide +kernel, by decide +kernel,
      "mute ".toList, " (bob@y.com) too".toList, by decide +kernel⟩
  have halone' : StandsAlone "mute Ann@x.com, (bob@y.com) too".toList "bob@y.com".toList :=
    ⟨by decide +kernel, "(".toList, ")".toList, by decide +kernel, by decide +kernel,
      "mute Ann@x.com, ".toList, " too".toList, by decide +kernel⟩
  exact ⟨hann, hbob, (guess_of_two hann hbob (by decide +kernel) .suppress).2 halone halone'
    (by decide +kernel)⟩

/-- Two addresses with no blank in between are no token, so that a third is read with certainty. -/
theorem overlooked_addresses :
    Mentions "mute a@x.com,b@y.com and c@z.com".toList "a@x.com".toList ∧
      Mentions "mute a@x.com,b@y.com and c@z.com".toList "c@z.com".toList ∧
      lower "a@x.com".toList ≠ lower "c@z.com".toList ∧
      (guess "mute a@x.com,b@y.com and c@z.com" .suppress).needsHelp = false ∧
      ((guess "mute a@x.com,b@y.com and c@z.com" .suppress).draft?.map Draft.pattern) =
        some "c@z.com" := by
  refine ⟨⟨by decide +kernel, by decide +kernel, "mute ".toList, ",b@y.com and c@z.com".toList, ?_⟩,
    ⟨by decide +kernel, by decide +kernel, "mute a@x.com,b@y.com and ".toList, [], ?_⟩, ?_⟩
  all_goals decide +kernel

end MailRules.Instruction
