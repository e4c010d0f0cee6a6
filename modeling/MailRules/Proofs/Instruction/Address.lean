import MailRules.Proofs.Instruction.WellFormed
import MailRules.Proofs.Rule.Canonical
import MailRules.Proofs.Text.Join
import MailRules.Proofs.Text.Lower

set_option autoImplicit false

/-!
# The addresses of instructions

Whatever an instruction is read as with certainty, if it is a rule about an address, its pattern has
one `@` and no blanks to be trimmed, and the rule has no exception (`guess_email`).
-/

namespace MailRules.Instruction

open Text

/-- The characters of two texts without an `@`, with one in between. -/
structure IsAround (s user host : List Char) : Prop where
  split : s = user ++ '@' :: host
  user : '@' ∉ user
  host : '@' ∉ host

/-- Lowercasing brings in no `@`, and takes none away. -/
theorem IsAround.lower {s user host : List Char} (h : IsAround s user host) :
    IsAround (lower s) (lower user) (lower host) where
  split := by rw [h.split, lower_at]
  user := fun hmem => h.user (at_mem_lower hmem)
  host := fun hmem => h.host (at_mem_lower hmem)

theorem IsAround.unique {s user host user' host' : List Char} (h : IsAround s user host)
    (h' : IsAround s user' host') : user = user' ∧ host = host' := by
  obtain ⟨huser, -, hhost⟩ :=
    (List.append_cons_inj_of_notMem h.user h.host).mp (h.split.symm.trans h'.split)
  exact ⟨huser, hhost⟩

/-! ## Characters -/

theorem toNat_lt_of_isAlphanum {c : Char} (h : c.isAlphanum = true) : c.toNat < 128 := by
  change ((decide ('A'.val ≤ c.val ∧ c.val ≤ 'Z'.val) ||
    decide ('a'.val ≤ c.val) && decide (c.val ≤ 'z'.val)) ||
    decide ('0'.val ≤ c.val) && decide (c.val ≤ '9'.val)) = true at h
  simp only [Bool.or_eq_true, Bool.and_eq_true, decide_eq_true_eq, UInt32.le_iff_toNat_le] at h
  have hz : 'Z'.val.toNat = 90 := rfl
  have hz' : 'z'.val.toNat = 122 := rfl
  have h9 : '9'.val.toNat = 57 := rfl
  change c.val.toNat < 128
  omega

theorem isAddressChar_of_isLabelChar {c : Char} (h : isLabelChar c = true) :
    isAddressChar c = true := by
  by_cases hascii : c.toNat < 128
  · exact ascii_forall (p := fun c => isLabelChar c = true → isAddressChar c = true)
      (by decide +kernel) c hascii h
  · have halpha : c.isAlpha = false := by
      rw [← Bool.not_eq_true]
      exact fun halpha => hascii (toNat_lt_of_isAlphanum (by simp [Char.isAlphanum, halpha]))
    have hdigit : c.isDigit = false := by
      rw [← Bool.not_eq_true]
      exact fun hdigit => hascii (toNat_lt_of_isAlphanum (by simp [Char.isAlphanum, hdigit]))
    simp only [isLabelChar, isLetterOrDigit, isLetter, halpha, hdigit, Bool.false_or, Bool.or_false,
      Bool.or_eq_true, decide_eq_true_eq] at h
    rcases h with (((rfl | rfl) | rfl) | rfl) | rfl <;> decide

theorem isBlank_of_isAddressChar {c : Char} (h : isAddressChar c = true) : isBlank c = false := by
  simpa using (Bool.and_eq_true_iff.mp h).1

theorem at_not_mem {s : List Char} (h : ∀ c ∈ s, isAddressChar c = true) : '@' ∉ s := by
  intro hmem
  exact absurd (h '@' hmem) (by decide)

/-! ## Texts -/

/-- Of labels all but the last are of a class, and the last is a last label. -/
theorem areLabels_forall {inner : List Char → Bool} {labels : List (List Char)}
    (h : areLabels inner labels = true) :
    ∀ l ∈ labels, isTopLabel l = true ∨ inner l = true := by
  unfold areLabels at h
  split at h
  · next top l rest hlabels =>
    obtain ⟨htop, hinner⟩ := Bool.and_eq_true_iff.mp h
    intro m hm
    rw [← List.mem_reverse, hlabels, List.mem_cons] at hm
    rcases hm with rfl | hm
    · exact Or.inl htop
    · exact Or.inr (List.all_eq_true.mp hinner m hm)
  · cases h

theorem isLabelChar_of_isTopLabel {l : List Char} (h : isTopLabel l = true) :
    ∀ c ∈ l, isLabelChar c = true := by
  intro c hc
  have hletter : isLetter c = true := List.all_eq_true.mp (Bool.and_eq_true_iff.mp h).2 c hc
  simp only [isLabelChar, isLetterOrDigit, hletter, Bool.true_or]

/-- A name in labels has the characters of labels, and full stops. -/
theorem char_of_areLabels {inner : List Char → Bool}
    (hinner : ∀ l, inner l = true → ∀ c ∈ l, isLabelChar c = true) {s : List Char}
    (h : areLabels inner (segments '.' s) = true) : ∀ c ∈ s, c = '.' ∨ isLabelChar c = true := by
  intro c hc
  rw [← join_segments '.' s] at hc
  rcases mem_join hc with hstop | ⟨l, hl, hc⟩
  · exact Or.inl (List.mem_singleton.mp hstop)
  · rcases areLabels_forall h l hl with htop | hl
    · exact Or.inr (isLabelChar_of_isTopLabel htop c hc)
    · exact Or.inr (hinner l hl c hc)

theorem char_of_isHostName {s : List Char} (h : isHostName s = true) :
    ∀ c ∈ s, c = '.' ∨ isLabelChar c = true := by
  refine char_of_areLabels (fun l hl => ?_) h
  simp only [isLabel, Bool.and_eq_true] at hl
  exact List.all_eq_true.mp hl.1.1.2

theorem isAddressChar_of_stop_or_label {c : Char} (h : c = '.' ∨ isLabelChar c = true) :
    isAddressChar c = true := by
  rcases h with rfl | hlabel
  · decide
  · exact isAddressChar_of_isLabelChar hlabel

theorem isAddressChar_of_isLooseHost {s : List Char} (h : isLooseHost s = true) :
    ∀ c ∈ s, isAddressChar c = true := by
  intro c hc
  refine isAddressChar_of_stop_or_label (char_of_areLabels (fun l hl => ?_) h c hc)
  exact List.all_eq_true.mp (Bool.and_eq_true_iff.mp hl).2

theorem isAddressChar_of_isHostName {s : List Char} (h : isHostName s = true) :
    ∀ c ∈ s, isAddressChar c = true :=
  fun c hc => isAddressChar_of_stop_or_label (char_of_isHostName h c hc)

/-- A name in labels ends with a letter. -/
theorem getLast?_of_areLabels {inner : List Char → Bool} {s : List Char}
    (h : areLabels inner (segments '.' s) = true) :
    ∃ c, s.getLast? = some c ∧ isLetter c = true := by
  unfold areLabels at h
  split at h
  · next top l rest hlabels =>
    have htop : isTopLabel top = true := (Bool.and_eq_true_iff.mp h).1
    rw [isTopLabel, Bool.and_eq_true, Bool.and_eq_true, decide_eq_true_eq] at htop
    have hne : top ≠ [] := by
      rintro rfl
      exact absurd htop.1.1 (by decide)
    obtain ⟨start, hstart⟩ : top <:+ s := by
      rw [← join_segments '.' s, ← List.reverse_reverse (segments '.' s), hlabels,
        List.reverse_cons]
      exact suffix_join _ _ _
    refine ⟨top.getLast hne, ?_, List.all_eq_true.mp htop.2 _ (List.getLast_mem hne)⟩
    rw [← hstart, List.getLast?_append_of_ne_nil _ hne, List.getLast?_eq_some_getLast hne]
  · cases h

theorem eq_of_cutAt {sep : Char} {s l d : List Char} (h : cutAt sep s = some (l, d)) :
    s = l ++ sep :: d := by
  unfold cutAt at h
  split at h
  · cases h
  · next c r hdrop =>
    cases h
    have hsep : c = sep := by
      have hfirst := List.head?_dropWhile_not (· ≠ sep) s
      rw [hdrop] at hfirst
      simpa using hfirst
    rw [← hsep, ← hdrop, hsep, List.takeWhile_append_dropWhile]

theorem cutAt_append {sep : Char} {l : List Char} (h : sep ∉ l) (d : List Char) :
    cutAt sep (l ++ sep :: d) = some (l, d) := by
  have hl : ∀ c ∈ l, decide (c ≠ sep) = true := by
    intro c hc
    rw [decide_eq_true_eq]
    rintro rfl
    exact h hc
  unfold cutAt
  rw [List.dropWhile_append_of_pos hl, List.takeWhile_append_of_pos hl]
  simp

/-- An address has no blanks, and one `@`. -/
structure IsSolid (s : List Char) : Prop where
  unblank : ∀ c ∈ s, isBlank c = false
  around : ∃ user host, IsAround s user host

theorem isSolid_of_parts {s user host : List Char} (hs : s = user ++ '@' :: host)
    (huser : ∀ c ∈ user, isAddressChar c = true) (hhost : ∀ c ∈ host, isAddressChar c = true) :
    IsSolid s where
  unblank := by
    rw [hs, List.forall_mem_append, List.forall_mem_cons]
    exact ⟨fun c hc => isBlank_of_isAddressChar (huser c hc), by decide,
      fun c hc => isBlank_of_isAddressChar (hhost c hc)⟩
  around := ⟨user, host, hs, at_not_mem huser, at_not_mem hhost⟩

theorem isSolid_of_isBareAddress {s : List Char} (h : isBareAddress s = true) : IsSolid s := by
  unfold isBareAddress at h
  split at h
  · next l d hcut =>
    simp only [Bool.and_eq_true] at h
    obtain ⟨⟨-, huser⟩, hhost⟩ := h
    exact isSolid_of_parts (eq_of_cutAt hcut) (List.all_eq_true.mp huser)
      (List.all_eq_true.mp hhost)
  · cases h

/-- An address is something without blanks, an `@` and what looks like a host name. -/
theorem isAddress_iff {s : List Char} :
    isAddress s = true ↔ ∃ user host, s = user ++ '@' :: host ∧ user ≠ [] ∧
      (∀ c ∈ user, isAddressChar c = true) ∧ isLooseHost host = true := by
  unfold isAddress
  constructor
  · intro h
    split at h
    · next l d hcut =>
      simp only [Bool.and_eq_true] at h
      obtain ⟨⟨hne, huser⟩, hhost⟩ := h
      exact ⟨l, d, eq_of_cutAt hcut, by simpa using hne, List.all_eq_true.mp huser, hhost⟩
    · cases h
  · rintro ⟨user, host, rfl, hne, huser, hhost⟩
    rw [cutAt_append (at_not_mem huser)]
    simp [hne, hhost, List.all_eq_true.mpr huser]

theorem isSolid_of_isAddress {s : List Char} (h : isAddress s = true) : IsSolid s := by
  obtain ⟨user, host, hs, -, huser, hhost⟩ := isAddress_iff.mp h
  exact isSolid_of_parts hs huser (isAddressChar_of_isLooseHost hhost)

/-- The canonical pattern of an address is its lower case. -/
theorem IsSolid.patternChars_eq {s : List Char} (h : IsSolid s) :
    Canonical.patternChars .email s = lower s := by
  show lower (trim s) = lower s
  rw [(isTrimmed_of_unblank h.unblank).trim_eq]

/-- The canonical pattern of an address has one `@`. -/
theorem IsSolid.patternChars {s : List Char} (h : IsSolid s) :
    ∃ user host, IsAround (Canonical.patternChars .email s) user host := by
  obtain ⟨user, host, haround⟩ := h.around
  rw [h.patternChars_eq]
  exact ⟨_, _, haround.lower⟩

/-! ## Readings -/

/-- A token that names an e-mail address. -/
theorem classify?_email {token : List Char} {c : Candidate} (h : classify? token = some c)
    (hkind : c.kind = .email) :
    isAddress token = true ∧ c.pattern = Canonical.patternChars .email token := by
  rcases classify?_eq_some h with ⟨-, rfl⟩ | ⟨haddress, rfl⟩ | ⟨-, rfl⟩
  · cases hkind
  · exact ⟨haddress, rfl⟩
  · cases hkind

/-- A rule about an address that is read with certainty is drawn from an address. -/
theorem readTrimmed_email {s : List Char} {action : RuleAction} {d : Draft}
    (h : readTrimmed s action = .certain d) (hkind : d.kind = .email) :
    ∃ t, IsSolid t ∧ d.pattern.toList = Canonical.patternChars .email t := by
  rcases readTrimmed_certain h with ⟨-, rfl⟩ | ⟨hbare, rfl⟩ | ⟨-, rfl⟩ | ⟨c, hc, -, rfl⟩
  · cases hkind
  · exact ⟨s, isSolid_of_isBareAddress hbare, by simp [draftOf]⟩
  · cases hkind
  · have hmem : c ∈ candidates s := by
      rw [hc]
      exact List.mem_singleton_self c
    obtain ⟨token, -, htoken⟩ := mem_candidates.mp hmem
    obtain ⟨haddress, hpattern⟩ := classify?_email htoken hkind
    refine ⟨token, isSolid_of_isAddress haddress, ?_⟩
    have hkind : c.kind = .email := hkind
    rw [draftOf, hkind, hpattern, String.toList_ofList]
    exact Canonical.lower_trim_lower_trim token

/-- A rule about an address that an instruction is read as with certainty has no exception, and its
pattern has one `@`. -/
theorem guess_email {text : String} {action : RuleAction} {d : Draft}
    (h : guess text action = .certain d) (hkind : d.kind = .email) :
    d.exception = none ∧ ∃ user host, IsAround d.pattern.toList user host := by
  obtain ⟨t, hsolid, hpattern⟩ := readTrimmed_email (readTrimmed_of_guess h) hkind
  exact ⟨guess_exception h, hpattern ▸ hsolid.patternChars⟩

end MailRules.Instruction
