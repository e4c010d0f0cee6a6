import MailRules.Text.Lower

set_option autoImplicit false

/-!
# Lower case around an `@`

The lower case of a capital sigma depends on its neighbours, so lowercasing a text is not
lowercasing its parts. It is at an `@`, which is neither cased nor transparent: what is on one side
has no say on the other (`lower_at`). Nothing but an `@` becomes one (`at_mem_lower`).
-/

namespace MailRules.Text

/-- What is ahead of an `@` does not count. -/
theorem casedAhead_at (s t : List Char) : casedAhead (s ++ '@' :: t) = casedAhead s := by
  induction s with
  | nil => rfl
  | cons c s ih => simp only [List.cons_append, casedAhead, ih]

theorem lowerAfter_at (cased : Bool) (s t : List Char) :
    lowerAfter cased (s ++ '@' :: t) = lowerAfter cased s ++ '@' :: lower t := by
  induction s generalizing cased with
  | nil => rfl
  | cons c s ih =>
    simp only [List.cons_append, lowerAfter, casedAhead_at, ih, List.append_assoc]

/-- A text is lowercased on each side of an `@` by itself. -/
theorem lower_at (s t : List Char) : lower (s ++ '@' :: t) = lower s ++ '@' :: lower t :=
  lowerAfter_at false s t

/-- All shifted characters come to lie past the `@`. -/
theorem lowerShifts_past_at : ∀ s ∈ lowerShifts, (64 : Int) < s.first + s.distance := by
  decide +kernel

theorem toNat_eq_of_ofNat_eq {n : Nat} {c : Char} (h : Char.ofNat n = c) (hc : c ≠ '\x00') :
    n = c.toNat := by
  by_cases hvalid : n.isValidChar
  · have hn : (Char.ofNat n).toNat = n := by
      rw [Char.ofNat, dif_pos hvalid]
      rfl
    rw [← h, hn]
  · rw [Char.ofNat, dif_neg hvalid] at h
    exact absurd h.symm hc

/-- A character past U+007F is not shifted to one that comes before the letters. -/
theorem shiftedBy_ne {c d : Char} (hc : 128 ≤ c.toNat) (hd : d.toNat ≤ 64) (hnull : d ≠ '\x00') :
    shiftedBy lowerShifts c ≠ d := by
  intro heq
  unfold shiftedBy at heq
  -- either a shift applies and leads past the `@`, or the character stays what it is
  split at heq
  · rename_i s hfind
    have hpast := lowerShifts_past_at s (List.mem_of_find?_eq_some hfind)
    have hholds := List.find?_some hfind
    simp only [Shift.holds, Bool.and_eq_true, decide_eq_true_eq] at hholds
    have hcode : (c.toNat + s.distance).toNat = d.toNat := toNat_eq_of_ofNat_eq heq hnull
    omega
  · subst heq
    omega

/-- A property of all ASCII characters, checked code by code. -/
theorem ascii_forall {p : Char → Prop} (h : ∀ n < 128, p (Char.ofNat n)) (c : Char)
    (hc : c.toNat < 128) : p c := by
  have hcode := h c.toNat hc
  rwa [Char.ofNat_toNat] at hcode

/-- What comes before the letters becomes of nothing but itself. -/
theorem eq_of_mem_lowerChar {c d : Char} (h : d ∈ lowerChar c) (hd : d.toNat ≤ 64)
    (hnull : d ≠ '\x00') : c = d := by
  unfold lowerChar at h
  split at h
  · rename_i hascii
    obtain rfl := List.mem_singleton.mp h
    have hletter : c.toLower = c ∨ 64 < c.toLower.toNat :=
      ascii_forall (p := fun c => c.toLower = c ∨ 64 < c.toLower.toNat) (by decide +kernel) c hascii
    rcases hletter with hsame | hlt
    · exact hsame.symm
    · omega
  · rename_i hpast
    split at h
    · have hdotted : ∀ e ∈ ['i', '\u0307'], 64 < e.toNat := by simp
      have hlt := hdotted d h
      omega
    · split at h
      · obtain rfl := List.mem_singleton.mp h
        exact absurd hd (by decide)
      · exact absurd (List.mem_singleton.mp h).symm (shiftedBy_ne (by omega) hd hnull)

/-- The lower case of one character, at least one and no `@` unless it is one. -/
theorem lowerChar_spec (c : Char) : lowerChar c ≠ [] ∧ ('@' ∈ lowerChar c → c = '@') := by
  refine ⟨?_, fun hmem => eq_of_mem_lowerChar hmem (by decide) (by decide)⟩
  unfold lowerChar
  split
  · simp
  · split
    · simp
    · split <;> simp

theorem at_mem_lowerAfter {cased : Bool} {s : List Char} (h : '@' ∈ lowerAfter cased s) :
    '@' ∈ s := by
  induction s generalizing cased with
  | nil => cases h
  | cons c s ih =>
    rw [lowerAfter, List.mem_append] at h
    rcases h with hhead | htail
    · -- the first character is a capital sigma or is lowercased without regard to the others
      split at hhead
      · have hsigma : '@' ∉ [if cased && !casedAhead s then 'ς' else 'σ'] := by
          split <;> decide
        exact absurd hhead hsigma
      · rw [(lowerChar_spec c).2 hhead]
        exact List.mem_cons_self
    · exact List.mem_cons_of_mem c (ih htail)

/-- Only an `@` becomes one. -/
theorem at_mem_lower {s : List Char} (h : '@' ∈ lower s) : '@' ∈ s :=
  at_mem_lowerAfter h

/-- Something is left of a text that is not empty. -/
theorem lower_ne_nil {s : List Char} (h : s ≠ []) : lower s ≠ [] := by
  cases s with
  | nil => exact absurd rfl h
  | cons c s =>
    intro hnil
    rw [lower, lowerAfter, List.append_eq_nil_iff] at hnil
    obtain ⟨hhead, -⟩ := hnil
    split at hhead
    · cases hhead
    · exact (lowerChar_spec c).1 hhead

/-- Without capital sigmas, a text is lowercased character by character. -/
theorem lower_eq_flatMap {s : List Char} (h : 'Σ' ∉ s) : lower s = s.flatMap lowerChar := by
  have hafter (cased : Bool) : lowerAfter cased s = s.flatMap lowerChar := by
    induction s generalizing cased with
    | nil => rfl
    | cons c s ih =>
      rw [List.mem_cons, not_or] at h
      have hsigma : ¬ (c == 'Σ') = true := by simpa using Ne.symm h.1
      rw [lowerAfter, if_neg hsigma, ih h.2, List.flatMap_cons]
  exact hafter false

/-! ## Lengths -/

/-- How long a text becomes is the same wherever its capital sigmas stand. -/
theorem length_lowerAfter (cased : Bool) (s : List Char) :
    (lowerAfter cased s).length = (s.flatMap lowerChar).length := by
  induction s generalizing cased with
  | nil => rfl
  | cons c s ih =>
    rw [lowerAfter, List.length_append, ih, List.flatMap_cons, List.length_append]
    by_cases hsigma : (c == 'Σ') = true
    · obtain rfl : c = 'Σ' := by simpa using hsigma
      rw [if_pos hsigma]
      rfl
    · rw [if_neg hsigma]

/-- What is part of a text and has the same lower case is all of it. -/
theorem eq_of_lower_eq {s a t b : List Char} (hs : s = a ++ t ++ b) (h : lower s = lower t) :
    s = t := by
  have hlength := congrArg List.length h
  rw [lower, lower, length_lowerAfter, length_lowerAfter, hs, List.flatMap_append,
    List.flatMap_append, List.length_append, List.length_append] at hlength
  have hnil {r : List Char} (hr : (r.flatMap lowerChar).length = 0) : r = [] := by
    cases r with
    | nil => rfl
    | cons c r =>
      have hpos := List.length_pos_iff.mpr (lowerChar_spec c).1
      rw [List.flatMap_cons, List.length_append] at hr
      omega
  have ha : a = [] := hnil (by omega)
  have hb : b = [] := hnil (by omega)
  rw [hs, ha, hb, List.nil_append, List.append_nil]

end MailRules.Text
