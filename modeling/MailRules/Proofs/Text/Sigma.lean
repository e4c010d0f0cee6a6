import MailRules.Proofs.Text.Blank
import MailRules.Proofs.Text.Lowered

set_option autoImplicit false

/-!
# Lower case of a stretch of a text

Capital sigmas are the only characters whose lower case depends on what stands around them. Where
those of a stretch take the same form within a text as in the stretch by itself, the lower case of
the text has that of the stretch in it (`infix_lower`). That they do whatever stands around the
stretch can be seen from the stretch alone (`HasSettledSigmas.keepsSigmas`), and only then is its
lower case in that of every text that has it (`infix_lower_iff`), blanks at its ends left out.
-/

namespace MailRules.Text

/-- Whether the nearest character before the end of a text that is not transparent is cased; where
the text has none, whether the one before the text is. -/
def casedBehind (cased : Bool) : List Char → Bool
  | [] => cased
  | c :: r => casedBehind (if isTransparent c then cased else isCased c) r

/-- Whether a capital sigma between two texts ends a word. -/
def endsWord (before after : List Char) : Bool :=
  casedBehind false before && !casedAhead after

/-- The capital sigmas of a text take the same form between two others as in the text by itself. -/
def KeepsSigmas (before s after : List Char) : Prop :=
  ∀ p q, s = p ++ 'Σ' :: q → endsWord (before ++ p) (q ++ after) = endsWord p q

/-- What decides the form of each capital sigma of a text is in the text: behind one that follows a
cased character there is something that is not transparent, and so there is before one that no
cased character follows. -/
def HasSettledSigmas (s : List Char) : Prop :=
  ∀ p q, s = p ++ 'Σ' :: q →
    (casedBehind false p = true → q.all isTransparent = false) ∧
      (casedAhead q = false → p.all isTransparent = false)

/-! ## What stands around a place -/

theorem casedBehind_append (cased : Bool) (s t : List Char) :
    casedBehind cased (s ++ t) = casedBehind (casedBehind cased s) t := by
  induction s generalizing cased with
  | nil => rfl
  | cons c s ih => exact ih _

theorem casedBehind_eq (cased : Bool) (s : List Char) :
    casedBehind cased s = if s.all isTransparent then cased else casedBehind false s := by
  induction s generalizing cased with
  | nil => rfl
  | cons c s ih =>
    cases hc : isTransparent c with
    | true => simpa [casedBehind, hc] using ih cased
    | false => simp [casedBehind, hc]

theorem casedAhead_append (s t : List Char) :
    casedAhead (s ++ t) = if s.all isTransparent then casedAhead t else casedAhead s := by
  induction s with
  | nil => rfl
  | cons c s ih =>
    cases hc : isTransparent c with
    | true => simpa [casedAhead, hc] using ih
    | false => simp [casedAhead, hc]

theorem casedAhead_of_all {s : List Char} (h : s.all isTransparent = true) :
    casedAhead s = false := by
  have happend := casedAhead_append s []
  rwa [List.append_nil, if_pos h] at happend

/-- Blanks are neither transparent nor cased. -/
theorem neutral_of_isBlank {c : Char} (h : isBlank c = true) :
    isTransparent c = false ∧ isCased c = false :=
  blank_forall (p := fun c => isTransparent c = false ∧ isCased c = false) (by decide +kernel) h

theorem casedBehind_of_blank {s : List Char} (h : ∀ c ∈ s, isBlank c = true) :
    casedBehind false s = false := by
  induction s with
  | nil => rfl
  | cons c s ih =>
    obtain ⟨hc, hrest⟩ := List.forall_mem_cons.mp h
    obtain ⟨htransparent, hcased⟩ := neutral_of_isBlank hc
    simpa [casedBehind, htransparent, hcased] using ih hrest

theorem casedAhead_of_blank {s : List Char} (h : ∀ c ∈ s, isBlank c = true) :
    casedAhead s = false := by
  cases s with
  | nil => rfl
  | cons c s =>
    obtain ⟨htransparent, hcased⟩ := neutral_of_isBlank (h c List.mem_cons_self)
    simp [casedAhead, htransparent, hcased]

/-! ## Texts one after the other -/

/-- A text that ends with another one is lowercased so that the other one is at the end. -/
theorem suffix_lowerAfter (cased : Bool) (s t : List Char) :
    lowerAfter (casedBehind cased s) t <:+ lowerAfter cased (s ++ t) := by
  induction s generalizing cased with
  | nil => exact List.suffix_refl _
  | cons c s ih =>
    rw [List.cons_append, lowerAfter]
    exact (ih _).trans (List.suffix_append _ _)

/-- A text that begins with another one is lowercased part by part if the capital sigmas of the
first part take the form that they have in another place. -/
theorem lowerAfter_append {cased cased' : Bool} {s t : List Char}
    (h : ∀ p q, s = p ++ 'Σ' :: q →
      (casedBehind cased p && !casedAhead (q ++ t)) = (casedBehind cased' p && !casedAhead q)) :
    lowerAfter cased (s ++ t) = lowerAfter cased' s ++ lowerAfter (casedBehind cased s) t := by
  induction s generalizing cased cased' with
  | nil => rfl
  | cons c s ih =>
    have hrest : lowerAfter (if isTransparent c then cased else isCased c) (s ++ t) =
        lowerAfter (if isTransparent c then cased' else isCased c) s ++
          lowerAfter (casedBehind (if isTransparent c then cased else isCased c) s) t :=
      ih fun p q hs => h (c :: p) q (by rw [hs, List.cons_append])
    rw [List.cons_append, lowerAfter, lowerAfter, hrest, List.append_assoc, casedBehind]
    by_cases hsigma : (c == 'Σ') = true
    · obtain rfl : c = 'Σ' := by simpa using hsigma
      have hform : (cased && !casedAhead (s ++ t)) = (cased' && !casedAhead s) := h [] s rfl
      rw [if_pos hsigma, if_pos hsigma, hform]
    · rw [if_neg hsigma, if_neg hsigma]

/-- Nothing is asked of a first part that is followed by what is not cased. -/
theorem lowerAfter_append_of_uncased (cased : Bool) (s : List Char) {t : List Char}
    (ht : casedAhead t = false) :
    lowerAfter cased (s ++ t) = lowerAfter cased s ++ lowerAfter (casedBehind cased s) t := by
  refine lowerAfter_append fun p q _ => ?_
  have hahead : casedAhead (q ++ t) = casedAhead q := by
    rw [casedAhead_append, ht]
    split
    · next hall => exact (casedAhead_of_all hall).symm
    · rfl
  rw [hahead]

/-- A text that sets what stands before it apart from what follows: on neither side is there a cased
character with nothing but transparent ones up to the other text. -/
structure IsBreak (sep : List Char) : Prop where
  plain : 'Σ' ∉ sep
  parting : sep.all isTransparent = false
  ahead : casedAhead sep = false
  behind : casedBehind false sep = false

/-- Texts with a break in between are lowercased by themselves. -/
theorem IsBreak.lower_append {sep : List Char} (h : IsBreak sep) (s t : List Char) :
    lower (s ++ sep ++ t) = lower s ++ lower sep ++ lower t := by
  have hahead : casedAhead (sep ++ t) = false := by
    rw [casedAhead_append, if_neg (by simp [h.parting]), h.ahead]
  have hbehind : ∀ cased, casedBehind cased sep = false := by
    intro cased
    rw [casedBehind_eq, if_neg (by simp [h.parting]), h.behind]
  have hsep : ∀ cased, lowerAfter cased (sep ++ t) = lower sep ++ lower t := by
    intro cased
    have hparts : lowerAfter cased (sep ++ t) =
        lowerAfter false sep ++ lowerAfter (casedBehind cased sep) t := by
      refine lowerAfter_append fun p q hsigma => ?_
      rw [hsigma] at h
      exact absurd (List.mem_append_right p List.mem_cons_self) h.plain
    rw [hparts, hbehind]
    rfl
  calc lower (s ++ sep ++ t)
      = lowerAfter false s ++ lowerAfter (casedBehind false s) (sep ++ t) := by
        rw [lower, List.append_assoc, lowerAfter_append_of_uncased false s hahead]
    _ = lower s ++ (lower sep ++ lower t) := by
        rw [hsep]
        rfl
    _ = lower s ++ lower sep ++ lower t := (List.append_assoc _ _ _).symm

/-- The lower case of a stretch whose capital sigmas keep their form is in that of the text. -/
theorem infix_lower {before s after : List Char} (h : KeepsSigmas before s after) :
    lower s <:+: lower (before ++ s ++ after) := by
  have hsplit : lowerAfter (casedBehind false before) (s ++ after) =
      lower s ++ lowerAfter (casedBehind (casedBehind false before) s) after := by
    refine lowerAfter_append fun p q hs => ?_
    rw [← casedBehind_append]
    exact h p q hs
  have hprefix : lower s <:+: lowerAfter (casedBehind false before) (s ++ after) :=
    hsplit ▸ (List.prefix_append _ _).isInfix
  rw [lower, List.append_assoc]
  exact hprefix.trans (suffix_lowerAfter false before (s ++ after)).isInfix

/-! ## Blanks at the ends -/

theorem lowerAfter_of_blank {cased : Bool} {s : List Char} (h : ∀ c ∈ s, isBlank c = true) :
    ∀ d ∈ lowerAfter cased s, isBlank d = true := by
  induction s generalizing cased with
  | nil => exact fun d hd => absurd hd List.not_mem_nil
  | cons c s ih =>
    obtain ⟨hc, hrest⟩ := List.forall_mem_cons.mp h
    obtain ⟨ds, cased', heq, -, hds⟩ := lowerAfter_cons cased c s
    rw [heq]
    intro d hd
    rcases List.mem_append.mp hd with hd | hd
    · rw [(hds d hd).2.1, hc]
    · exact ih hrest d hd

/-- Blanks around a text do not change how it is lowercased. -/
theorem lower_pad {before s after : List Char} (hbefore : ∀ c ∈ before, isBlank c = true)
    (hafter : ∀ c ∈ after, isBlank c = true) :
    lower (before ++ s ++ after) =
      lower before ++ lower s ++ lowerAfter (casedBehind false s) after := by
  have hsigma : ∀ p q, before ≠ p ++ 'Σ' :: q := by
    rintro p q rfl
    exact absurd (hbefore 'Σ' (by simp)) (by decide +kernel)
  calc lower (before ++ s ++ after)
      = lower before ++ lowerAfter (casedBehind false before) (s ++ after) := by
        rw [List.append_assoc]
        exact lowerAfter_append fun p q h => absurd h (hsigma p q)
    _ = lower before ++ (lower s ++ lowerAfter (casedBehind false s) after) := by
        rw [casedBehind_of_blank hbefore,
          lowerAfter_append_of_uncased _ _ (casedAhead_of_blank hafter)]
        rfl
    _ = lower before ++ lower s ++ lowerAfter (casedBehind false s) after :=
        (List.append_assoc _ _ _).symm

/-- A text is lowercased to what its trimmed form is, between blanks. -/
theorem lower_split (s : List Char) :
    ∃ before after, lower s = before ++ lower (trim s) ++ after ∧
      (∀ c ∈ before, isBlank c = true) ∧ ∀ c ∈ after, isBlank c = true := by
  obtain ⟨before, after, hs, hbefore, hafter⟩ := trim_split s
  refine ⟨lower before, lowerAfter (casedBehind false (trim s)) after, ?_,
    lowerAfter_of_blank hbefore, lowerAfter_of_blank hafter⟩
  rw [← lower_pad hbefore hafter, ← hs]

theorem infix_lower_trim (s : List Char) : lower (trim s) <:+: lower s := by
  obtain ⟨before, after, hs, -, -⟩ := lower_split s
  exact ⟨before, after, hs.symm⟩

/-- No letter is lost with the blanks. -/
theorem count_lower_trim {d : Char} (hd : isBlank d = false) (s : List Char) :
    (lower (trim s)).count d = (lower s).count d := by
  obtain ⟨before, after, hs, hbefore, hafter⟩ := lower_split s
  rw [hs, List.count_append, List.count_append, count_of_blank hd hbefore,
    count_of_blank hd hafter]
  omega

/-! ## Settled sigmas -/

/-- Settled capital sigmas keep their form between any two texts. -/
theorem HasSettledSigmas.keepsSigmas {s : List Char} (h : HasSettledSigmas s)
    (before after : List Char) : KeepsSigmas before s after := by
  intro p q hs
  obtain ⟨hahead, hbehind⟩ := h p q hs
  have hafter : casedBehind false p = true → casedAhead (q ++ after) = casedAhead q := by
    intro hp
    rw [casedAhead_append, hahead hp, if_neg Bool.false_ne_true]
  simp only [endsWord, casedBehind_append]
  rw [casedBehind_eq]
  split
  · next hall =>
    -- nothing is behind the sigma, so something is ahead of it
    have hq : casedAhead q = true := by
      rw [← Bool.not_eq_false]
      intro hq
      rw [hbehind hq] at hall
      cases hall
    have hqa : q.all isTransparent = false := by
      rw [← Bool.not_eq_true]
      intro hqa
      rw [casedAhead_of_all hqa] at hq
      cases hq
    rw [casedAhead_append, hqa, if_neg Bool.false_ne_true, hq, Bool.not_true, Bool.and_false,
      Bool.and_false]
  · cases hp : casedBehind false p with
    | false => rfl
    | true => rw [hafter hp]

theorem lowerAfter_sigma (cased : Bool) (s : List Char) :
    lowerAfter cased ('Σ' :: s) =
      (if cased && !casedAhead s then 'ς' else 'σ') :: lowerAfter true s := by
  have htransparent : isTransparent 'Σ' = false := by decide +kernel
  have hcased : isCased 'Σ' = true := by decide +kernel
  rw [lowerAfter, htransparent, hcased]
  rfl

/-- What stands before a capital sigma is lowercased without regard to what follows the sigma. -/
theorem lowerAfter_before_sigma (cased : Bool) (s : List Char) :
    ∃ before, ∀ t, lowerAfter cased (s ++ 'Σ' :: t) =
      before ++ lowerAfter (casedBehind cased s) ('Σ' :: t) := by
  induction s generalizing cased with
  | nil => exact ⟨[], fun t => rfl⟩
  | cons c s ih =>
    obtain ⟨before, hbefore⟩ := ih (if isTransparent c then cased else isCased c)
    have hahead (t : List Char) : casedAhead (s ++ 'Σ' :: t) = casedAhead (s ++ ['Σ']) := by
      have hsigma (t : List Char) : casedAhead ('Σ' :: t) = true := by
        simp [casedAhead, show isTransparent 'Σ' = false by decide +kernel,
          show isCased 'Σ' = true by decide +kernel]
      rw [casedAhead_append, casedAhead_append, hsigma, hsigma]
    refine ⟨(if c == 'Σ' then [if cased && !casedAhead (s ++ ['Σ']) then 'ς' else 'σ']
      else lowerChar c) ++ before, fun t => ?_⟩
    rw [List.cons_append, lowerAfter, hahead, hbefore, casedBehind, List.append_assoc]

theorem sigma_not_transparent {s : List Char} (h : s.all isTransparent = true) (p q : List Char) :
    s ≠ p ++ 'Σ' :: q := by
  rintro rfl
  have hsigma : isTransparent 'Σ' = true := List.all_eq_true.mp h 'Σ' (by simp)
  exact absurd hsigma (by decide +kernel)

/-- A capital sigma that ends a word does not if a cased letter comes behind the text. -/
theorem count_final_append {p q : List Char} (hp : casedBehind false p = true)
    (hq : q.all isTransparent = true) :
    (lower (p ++ 'Σ' :: q ++ ['a'])).count 'ς' < (lower (p ++ 'Σ' :: q)).count 'ς' := by
  obtain ⟨before, hbefore⟩ := lowerAfter_before_sigma false p
  have hlast : lowerAfter true (q ++ ['a']) =
      lowerAfter true q ++ lowerAfter (casedBehind true q) ['a'] :=
    lowerAfter_append fun p' q' h => absurd h (sigma_not_transparent hq p' q')
  have hletter (cased : Bool) : (lowerAfter cased ['a']).count 'ς' = 0 := by
    cases cased <;> decide +kernel
  have hopen : lower (p ++ 'Σ' :: q) = before ++ 'ς' :: lowerAfter true q := by
    rw [lower, hbefore, lowerAfter_sigma, hp, casedAhead_of_all hq]
    rfl
  have hclosed : lower (p ++ 'Σ' :: q ++ ['a']) =
      before ++ 'σ' :: (lowerAfter true q ++ lowerAfter (casedBehind true q) ['a']) := by
    have hwithin : casedAhead (q ++ ['a']) = true := by
      rw [casedAhead_append, if_pos hq]
      decide +kernel
    rw [lower, List.append_assoc, List.cons_append, hbefore, lowerAfter_sigma, hwithin, hlast,
      Bool.not_true, Bool.and_false, if_neg Bool.false_ne_true]
  rw [hopen, hclosed, List.count_append, List.count_append, List.count_cons_self,
    List.count_cons_of_ne (by decide), List.count_append, hletter]
  omega

/-- A capital sigma with nothing behind it ends a word if a cased letter comes before the text. -/
theorem count_final_cons {p q : List Char} (hp : p.all isTransparent = true)
    (hq : casedAhead q = false) :
    (lower ('a' :: (p ++ 'Σ' :: q))).count 'σ' < (lower (p ++ 'Σ' :: q)).count 'σ' := by
  have hbefore (cased : Bool) : lowerAfter cased (p ++ 'Σ' :: q) =
      lowerAfter false p ++ lowerAfter cased ('Σ' :: q) := by
    have hbehind : casedBehind cased p = cased := by rw [casedBehind_eq, if_pos hp]
    have hparts : lowerAfter cased (p ++ 'Σ' :: q) =
        lowerAfter false p ++ lowerAfter (casedBehind cased p) ('Σ' :: q) :=
      lowerAfter_append fun p' q' h => absurd h (sigma_not_transparent hp p' q')
    rw [hparts, hbehind]
  have halone : lower (p ++ 'Σ' :: q) = lowerAfter false p ++ 'σ' :: lowerAfter true q := by
    rw [lower, hbefore, lowerAfter_sigma]
    rfl
  have hfollowing : lower ('a' :: (p ++ 'Σ' :: q)) =
      'a' :: (lowerAfter false p ++ 'ς' :: lowerAfter true q) := by
    have hletter : lower ('a' :: (p ++ 'Σ' :: q)) = 'a' :: lowerAfter true (p ++ 'Σ' :: q) := rfl
    rw [hletter, hbefore, lowerAfter_sigma, hq]
    rfl
  rw [halone, hfollowing, List.count_cons_of_ne (by decide), List.count_append, List.count_append,
    List.count_cons_self, List.count_cons_of_ne (by decide)]
  omega

/-- The lower case of a text, blanks at its ends left out, is in that of every text that has it just
if its capital sigmas are settled. -/
theorem infix_lower_iff {s : List Char} :
    (∀ before after, lower (trim s) <:+: lower (before ++ s ++ after)) ↔ HasSettledSigmas s := by
  constructor
  · rintro h p q rfl
    refine ⟨fun hp => ?_, fun hq => ?_⟩
    · rw [← Bool.not_eq_true]
      intro hall
      -- a letter behind the text leaves fewer final sigmas than the text has by itself
      have hcount := (h [] ['a']).count_le 'ς'
      rw [count_lower_trim (by decide), List.nil_append] at hcount
      have hlt := count_final_append hp hall
      omega
    · rw [← Bool.not_eq_true]
      intro hall
      -- a letter before the text leaves fewer of the others
      have hcount := (h ['a'] []).count_le 'σ'
      rw [count_lower_trim (by decide), List.append_nil, List.singleton_append] at hcount
      have hlt := count_final_cons hall hq
      omega
  · intro h before after
    exact (infix_lower_trim s).trans (infix_lower (h.keepsSigmas before after))

end MailRules.Text
