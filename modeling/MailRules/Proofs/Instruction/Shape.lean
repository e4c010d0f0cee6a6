import MailRules.Proofs.Instruction.Address

set_option autoImplicit false

/-!
# The shape of what is read with certainty

An instruction is read with certainty as an address, two texts around an `@`, or as a domain, one
text; none of these texts is empty, and they have neither blanks nor an `@` (`IsShaped`). There are
four ways to such a reading, and all of them lead to a pattern that has this shape and is in lower
case (`readTrimmed_shaped`), so that it is in canonical form (`IsSettled.patternChars_eq`) and its
record is read back as what it was (`guess_importable`).
-/

namespace MailRules.Instruction

open Text

/-- A text that is not empty and has neither blanks nor an `@`. -/
structure IsPlain (s : List Char) : Prop where
  ne_nil : s ≠ []
  chars : ∀ c ∈ s, isAddressChar c = true

/-- The pattern of an address is two plain texts around an `@`, that of a domain is one. -/
inductive IsShaped : RuleKind → List Char → Prop
  | email {user host : List Char} (huser : IsPlain user) (hhost : IsPlain host) :
      IsShaped .email (user ++ '@' :: host)
  | domain {host : List Char} (hhost : IsPlain host) : IsShaped .domain host

/-! ## Plain texts -/

theorem IsPlain.unblank {s : List Char} (h : IsPlain s) : ∀ c ∈ s, isBlank c = false :=
  fun c hc => isBlank_of_isAddressChar (h.chars c hc)

theorem IsPlain.head?_ne_at {s : List Char} (h : IsPlain s) (t : List Char) :
    (s ++ t).head? ≠ some '@' := by
  intro hhead
  rw [List.head?_append_of_ne_nil _ h.ne_nil] at hhead
  exact at_not_mem h.chars (List.mem_of_head? hhead)

/-- Lowercasing leaves a text plain. -/
theorem IsPlain.lower {s : List Char} (h : IsPlain s) : IsPlain (lower s) where
  ne_nil := lower_ne_nil h.ne_nil
  chars := by
    intro d hd
    obtain ⟨-, c, hc, hblank, hat⟩ := mem_lowerAfter hd
    have hne : d ≠ '@' := fun heq => at_not_mem h.chars (hat heq ▸ hc)
    simp [isAddressChar, hblank, h.unblank c hc, hne]

/-- Nothing in a plain text may stand before a domain. -/
theorem IsPlain.not_lead {s : List Char} (h : IsPlain s) {c : Char} (hmem : c ∈ s) :
    Canonical.isDomainLead c = false := by
  rw [← Bool.not_eq_true]
  intro hlead
  rcases Canonical.isBlank_of_isDomainLead hlead with rfl | hblank
  · exact at_not_mem h.chars hmem
  · rw [h.unblank c hmem] at hblank
    cases hblank

theorem IsPlain.stripStart_eq {s : List Char} (h : IsPlain s) :
    stripStart Canonical.isDomainLead s = s :=
  stripStart_of_head fun _ hc => h.not_lead (List.mem_of_head? hc)

/-- The canonical pattern of a domain is its lower case. -/
theorem IsPlain.patternChars_eq {s : List Char} (h : IsPlain s) :
    Canonical.patternChars .domain s = Text.lower s := by
  rw [Canonical.patternChars, (isTrimmed_of_unblank h.unblank).trim_eq, h.stripStart_eq]

/-- An `@` before a domain does not count. -/
theorem IsPlain.patternChars_at {s : List Char} (h : IsPlain s) :
    Canonical.patternChars .domain ('@' :: s) = Text.lower s := by
  have hunblank : ∀ c ∈ '@' :: s, isBlank c = false :=
    List.forall_mem_cons.mpr ⟨by decide, h.unblank⟩
  rw [Canonical.patternChars, (isTrimmed_of_unblank hunblank).trim_eq, stripStart,
    List.dropWhile_cons_of_pos (by decide), ← stripStart, h.stripStart_eq]

/-! ## Texts that are an address or a domain -/

theorem isAtDomain_iff {s : List Char} :
    isAtDomain s = true ↔ ∃ host, IsPlain host ∧ s = '@' :: host := by
  constructor
  · intro h
    unfold isAtDomain at h
    split at h
    · next host =>
      obtain ⟨hne, hhost⟩ := Bool.and_eq_true_iff.mp h
      exact ⟨host, ⟨by simpa using hne, List.all_eq_true.mp hhost⟩, rfl⟩
    · cases h
  · rintro ⟨host, hhost, rfl⟩
    simp [isAtDomain, hhost.ne_nil, List.all_eq_true.mpr hhost.chars]

theorem isBareAddress_iff {s : List Char} :
    isBareAddress s = true ↔
      ∃ user host, IsPlain user ∧ IsPlain host ∧ s = user ++ '@' :: host := by
  unfold isBareAddress
  constructor
  · intro h
    split at h
    · next user host hcut =>
      simp only [Bool.and_eq_true] at h
      obtain ⟨⟨⟨huser, hhost⟩, huserchars⟩, hhostchars⟩ := h
      exact ⟨user, host, ⟨by simpa using huser, List.all_eq_true.mp huserchars⟩,
        ⟨by simpa using hhost, List.all_eq_true.mp hhostchars⟩, eq_of_cutAt hcut⟩
    · cases h
  · rintro ⟨user, host, huser, hhost, rfl⟩
    rw [cutAt_append (at_not_mem huser.chars)]
    simp [huser.ne_nil, hhost.ne_nil, List.all_eq_true.mpr huser.chars,
      List.all_eq_true.mpr hhost.chars]

/-- An address does not begin with its `@`. -/
theorem not_isAtDomain_of_isBareAddress {s : List Char} (h : isBareAddress s = true) :
    ¬ isAtDomain s = true := by
  intro hdomain
  obtain ⟨host, -, hs⟩ := isAtDomain_iff.mp hdomain
  obtain ⟨user, host', huser, -, hs'⟩ := isBareAddress_iff.mp h
  refine huser.head?_ne_at ('@' :: host') ?_
  rw [← hs', hs]
  rfl

theorem isPlain_of_looksLikeHost {s : List Char} (h : looksLikeHost s = true) : IsPlain s where
  ne_nil := by
    rintro rfl
    revert h
    decide
  chars := isAddressChar_of_isHostName (Bool.and_eq_true_iff.mp h).1

/-- An address in a sentence would be one by itself. -/
theorem isBareAddress_of_isAddress {s : List Char} (h : isAddress s = true) :
    isBareAddress s = true := by
  obtain ⟨user, host, hs, hne, huser, hhost⟩ := isAddress_iff.mp h
  refine isBareAddress_iff.mpr ⟨user, host, ⟨hne, huser⟩,
    ⟨?_, isAddressChar_of_isLooseHost hhost⟩, hs⟩
  rintro rfl
  revert hhost
  decide

/-! ## Patterns -/

/-- The canonical form of a pattern of this shape is its lower case. -/
theorem IsShaped.patternChars_eq {kind : RuleKind} {p : List Char} (h : IsShaped kind p) :
    Canonical.patternChars kind p = Text.lower p := by
  cases h with
  | email huser hhost => exact (isSolid_of_parts rfl huser.chars hhost.chars).patternChars_eq
  | domain hhost => exact hhost.patternChars_eq

/-- Lowercasing leaves a pattern its shape. -/
theorem IsShaped.lower {kind : RuleKind} {p : List Char} (h : IsShaped kind p) :
    IsShaped kind (Text.lower p) := by
  cases h with
  | email huser hhost =>
    rw [lower_at]
    exact .email huser.lower hhost.lower
  | domain hhost => exact .domain hhost.lower

/-- A pattern of the shape that its kind asks for, in lower case. -/
structure IsSettled (kind : RuleKind) (p : List Char) : Prop where
  shape : IsShaped kind p
  low : lower p = p

theorem IsSettled.patternChars_eq {kind : RuleKind} {p : List Char} (h : IsSettled kind p) :
    Canonical.patternChars kind p = p :=
  h.shape.patternChars_eq.trans h.low

theorem isSettled_of_isAtDomain {s : List Char} (h : isAtDomain s = true) :
    IsSettled .domain (Canonical.patternChars .domain s) := by
  obtain ⟨host, hhost, rfl⟩ := isAtDomain_iff.mp h
  rw [hhost.patternChars_at]
  exact ⟨.domain hhost.lower, lower_lower host⟩

theorem IsShaped.isSettled {kind : RuleKind} {p : List Char} (h : IsShaped kind p) :
    IsSettled kind (Canonical.patternChars kind p) := by
  rw [h.patternChars_eq]
  exact ⟨h.lower, lower_lower p⟩

theorem isShaped_of_isBareAddress {s : List Char} (h : isBareAddress s = true) :
    IsShaped .email s := by
  obtain ⟨user, host, huser, hhost, rfl⟩ := isBareAddress_iff.mp h
  exact .email huser hhost

/-- What a token names has the shape that its kind asks for. -/
theorem classify?_isSettled {token : List Char} {c : Candidate} (h : classify? token = some c) :
    IsSettled c.kind c.pattern := by
  rcases classify?_eq_some h with ⟨hdomain, rfl⟩ | ⟨haddress, rfl⟩ | ⟨hhost, rfl⟩
  · exact isSettled_of_isAtDomain hdomain
  · exact (isShaped_of_isBareAddress (isBareAddress_of_isAddress haddress)).isSettled
  · exact (IsShaped.domain (isPlain_of_looksLikeHost hhost)).isSettled

theorem candidates_isSettled {s : List Char} {c : Candidate} (h : c ∈ candidates s) :
    IsSettled c.kind c.pattern := by
  obtain ⟨token, -, htoken⟩ := mem_candidates.mp h
  exact classify?_isSettled htoken

theorem draftOf_isSettled {kind : RuleKind} {text : List Char}
    (h : IsSettled kind (Canonical.patternChars kind text)) (action : RuleAction) (x : Float) :
    IsSettled (draftOf kind text action x).kind (draftOf kind text action x).pattern.toList := by
  rw [draftOf, String.toList_ofList]
  exact h

/-- A draft that is read with certainty has the action that was asked for, no exception and no
notes, one of two confidences, and a pattern of the shape that its kind asks for. -/
theorem readTrimmed_shaped {s : List Char} {action : RuleAction} {d : Draft}
    (h : readTrimmed s action = .certain d) :
    IsSettled d.kind d.pattern.toList ∧
      ∃ x, (x = bareConfidence ∨ x = sentenceConfidence) ∧
        d = ⟨d.kind, d.pattern, action, none, none, some (.real x)⟩ := by
  rcases readTrimmed_certain h with ⟨hdomain, rfl⟩ | ⟨hbare, rfl⟩ | ⟨hhost, rfl⟩ | ⟨c, hc, -, rfl⟩
  · exact ⟨draftOf_isSettled (isSettled_of_isAtDomain hdomain) action _, _, Or.inl rfl, rfl⟩
  · exact ⟨draftOf_isSettled (isShaped_of_isBareAddress hbare).isSettled action _, _, Or.inl rfl,
      rfl⟩
  · exact ⟨draftOf_isSettled (IsShaped.domain (isPlain_of_looksLikeHost hhost)).isSettled action _,
      _, Or.inl rfl, rfl⟩
  · have hmem : c ∈ candidates s := by
      rw [hc]
      exact List.mem_singleton_self c
    exact ⟨draftOf_isSettled (candidates_isSettled hmem).shape.isSettled action _, _, Or.inr rfl,
      rfl⟩

theorem IsShaped.cases {kind : RuleKind} {p : List Char} (h : IsShaped kind p) :
    (kind = .email ∧ isBareAddress p = true) ∨ (kind = .domain ∧ IsPlain p) := by
  cases h with
  | email huser hhost => exact Or.inl ⟨rfl, isBareAddress_iff.mpr ⟨_, _, huser, hhost, rfl⟩⟩
  | domain hhost => exact Or.inr ⟨rfl, hhost⟩

/-- A pattern of this shape is not empty, and begins with no blank. -/
theorem IsShaped.head? {kind : RuleKind} {p : List Char} (h : IsShaped kind p) :
    ∃ c, p.head? = some c ∧ isBlank c = false := by
  have hplain {s : List Char} (hs : IsPlain s) (t : List Char) :
      ∃ c, (s ++ t).head? = some c ∧ isBlank c = false := by
    obtain ⟨c, r, rfl⟩ := List.exists_cons_of_ne_nil hs.ne_nil
    exact ⟨c, rfl, hs.unblank c List.mem_cons_self⟩
  cases h with
  | email huser hhost => exact hplain huser _
  | domain hhost =>
    have hhead := hplain hhost []
    rwa [List.append_nil] at hhead

/-- The record of a draft that is read with certainty is read back as that draft. -/
theorem guess_importable {text : String} {action : RuleAction} {d : Draft}
    (h : guess text action = .certain d) : d.Importable := by
  obtain ⟨hsettled, -⟩ := readTrimmed_shaped (readTrimmed_of_guess h)
  obtain ⟨c, hc, hblank⟩ := hsettled.shape.head?
  refine ⟨guess_wellFormed h, ?_, fun _ => ?_⟩
  · intro hempty
    rw [hempty] at hc
    cases hc
  · rw [Canonical.beginsBlank, hc]
    exact hblank

end MailRules.Instruction

namespace MailRules.Registry

open Instruction

/-- A draft that is read with certainty is created as it is. -/
theorem canonicalOf_guess {text : String} {action : RuleAction} {d : Draft}
    (h : guess text action = .certain d) : canonicalOf d.toJson = .ok d := by
  simpa [Draft.toJson] using canonicalOf_members (guess_importable h) []

end MailRules.Registry
