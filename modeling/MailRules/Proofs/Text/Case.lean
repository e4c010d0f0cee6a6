import Mathlib.Data.List.Forall2
import MailRules.Proofs.Text.Words
import MailRules.Text.Word

set_option autoImplicit false

/-!
# Case

Two texts that differ in nothing but the case of letters of the English alphabet (`SameButCase`) are
the same in small letters (`small`). So whatever cannot tell a text from that form ignores case, and
it is enough to look at one text at a time. Classes of characters are checked code by code: nothing
past U+007F is changed (`asciiCase`).

Words, trimmed texts and segments in small letters are those of the text, made small. Its lower case
is that of the text (`lower_small`), capital sigmas included: a letter is cased in either case.
-/

namespace MailRules.Text

/-- Two characters differ in nothing but the case of a letter of the English alphabet. -/
def IsCaseOf (c d : Char) : Prop :=
  c = d ∨ (c.isAlpha = true ∧ d.isAlpha = true ∧ c.toLower = d.toLower)

instance (c d : Char) : Decidable (IsCaseOf c d) :=
  inferInstanceAs (Decidable (_ ∨ _))

/-- Two texts differ in nothing but the case of letters of the English alphabet. -/
def SameButCase (s t : List Char) : Prop :=
  List.Forall₂ IsCaseOf s t

instance (s t : List Char) : Decidable (SameButCase s t) :=
  inferInstanceAs (Decidable (List.Forall₂ IsCaseOf s t))

/-- A text with the letters of the English alphabet made small. -/
def small (s : List Char) : List Char :=
  s.map Char.toLower

theorem SameButCase.small_eq {s t : List Char} (h : SameButCase s t) : small s = small t := by
  induction h with
  | nil => rfl
  | @cons c d s t hcase _ ih =>
    have hchar : c.toLower = d.toLower := by
      rcases hcase with rfl | ⟨-, -, hsame⟩
      · rfl
      · exact hsame
    rw [small, List.map_cons, hchar, ← small, ih]
    rfl

/-! ## Characters -/

/-- Past U+007F nothing is made small. -/
theorem toLower_of_past {c : Char} (h : ¬ c.toNat < 128) : c.toLower = c := by
  have hcapital : ¬ (c.val ≥ 'A'.val ∧ c.val ≤ 'Z'.val) := by
    rintro ⟨-, hle⟩
    have hz : 'Z'.val.toNat = 90 := rfl
    rw [UInt32.le_iff_toNat_le] at hle
    change ¬ c.val.toNat < 128 at h
    omega
  exact dif_neg hcapital

/-- What holds of equal characters and of ASCII characters made small, checked code by code, holds
of all characters made small. -/
theorem asciiCase {r : Char → Char → Prop} (hrefl : ∀ c, r c c)
    (h : ∀ n < 128, r (Char.ofNat n) (Char.ofNat n).toLower) (c : Char) : r c c.toLower := by
  by_cases hascii : c.toNat < 128
  · exact ascii_forall (p := fun c => r c c.toLower) h c hascii
  · rw [toLower_of_past hascii]
    exact hrefl c

/-- Letters become letters, and nothing else becomes anything else. -/
theorem toLower_eq_or (c : Char) :
    c.toLower = c ∨ (c.isAlpha = true ∧ c.toLower.isAlpha = true) :=
  asciiCase (r := fun c d => d = c ∨ (c.isAlpha = true ∧ d.isAlpha = true)) (fun _ => Or.inl rfl)
    (by decide +kernel) c

theorem toLower_eq_iff {d : Char} (hd : d.isAlpha = false) (c : Char) : c.toLower = d ↔ c = d := by
  rcases toLower_eq_or c with hsame | ⟨halpha, halpha'⟩
  · rw [hsame]
  · refine iff_of_false ?_ ?_ <;> rintro rfl
    · rw [halpha'] at hd
      cases hd
    · rw [halpha] at hd
      cases hd

/-- Two characters that count alike when a text is taken apart or lowercased. -/
def CountsAs (c d : Char) : Prop :=
  isBlank d = isBlank c ∧ isTransparent d = isTransparent c ∧ isCased d = isCased c ∧
    isWord d = isWord c ∧ lowerChar d = lowerChar c ∧ lowerSimple d = lowerSimple c

instance (c d : Char) : Decidable (CountsAs c d) :=
  inferInstanceAs (Decidable (_ ∧ _))

theorem countsAs_toLower (c : Char) : CountsAs c c.toLower :=
  asciiCase (fun _ => ⟨rfl, rfl, rfl, rfl, rfl, rfl⟩) (by decide +kernel) c

@[simp] theorem isBlank_toLower (c : Char) : isBlank c.toLower = isBlank c :=
  (countsAs_toLower c).1

@[simp] theorem isTransparent_toLower (c : Char) : isTransparent c.toLower = isTransparent c :=
  (countsAs_toLower c).2.1

@[simp] theorem isCased_toLower (c : Char) : isCased c.toLower = isCased c :=
  (countsAs_toLower c).2.2.1

@[simp] theorem isWord_toLower (c : Char) : isWord c.toLower = isWord c :=
  (countsAs_toLower c).2.2.2.1

@[simp] theorem lowerChar_toLower (c : Char) : lowerChar c.toLower = lowerChar c :=
  (countsAs_toLower c).2.2.2.2.1

@[simp] theorem lowerSimple_toLower (c : Char) : lowerSimple c.toLower = lowerSimple c :=
  (countsAs_toLower c).2.2.2.2.2

/-- A capital sigma is none of the letters that are made small. -/
theorem toLower_beq_sigma (c : Char) : (c.toLower == 'Σ') = (c == 'Σ') := by
  rw [Bool.eq_iff_iff, beq_iff_eq, beq_iff_eq, toLower_eq_iff (by decide)]

/-! ## Lower case -/

theorem casedAhead_small (s : List Char) : casedAhead (small s) = casedAhead s := by
  induction s with
  | nil => rfl
  | cons c s ih =>
    rw [small, List.map_cons, ← small, casedAhead, casedAhead, ih, isTransparent_toLower,
      isCased_toLower]

theorem lowerAfter_small (cased : Bool) (s : List Char) :
    lowerAfter cased (small s) = lowerAfter cased s := by
  induction s generalizing cased with
  | nil => rfl
  | cons c s ih =>
    rw [small, List.map_cons, ← small, lowerAfter, lowerAfter, ih, toLower_beq_sigma,
      casedAhead_small, lowerChar_toLower, isTransparent_toLower, isCased_toLower]

/-- Whether letters are capital or small, the lower case of a text is the same. -/
@[simp] theorem lower_small (s : List Char) : lower (small s) = lower s :=
  lowerAfter_small false s

/-! ## Parts of texts -/

section Strip

variable {p : Char → Bool} (hp : ∀ c, p c.toLower = p c)
include hp

theorem stripStart_small (s : List Char) : stripStart p (small s) = small (stripStart p s) := by
  have hclass : p ∘ Char.toLower = p := funext hp
  rw [stripStart, small, List.dropWhile_map, hclass, ← small, ← stripStart]

theorem stripEnd_small (s : List Char) : stripEnd p (small s) = small (stripEnd p s) := by
  induction s with
  | nil => rfl
  | cons c s ih =>
    rw [small, List.map_cons, ← small, stripEnd, stripEnd, ih, hp]
    cases stripEnd p s with
    | nil => cases p c <;> rfl
    | cons d t => rfl

theorem strip_small (s : List Char) : strip p (small s) = small (strip p s) := by
  rw [strip, stripStart_small hp, stripEnd_small hp, ← strip]

end Strip

theorem trim_small (s : List Char) : trim (small s) = small (trim s) :=
  strip_small isBlank_toLower s

@[simp] theorem isEmpty_small (s : List Char) : (small s).isEmpty = s.isEmpty := by
  cases s <;> rfl

theorem words_small (s : List Char) : words (small s) = (words s).map small := by
  induction s with
  | nil => rfl
  | cons c s ih =>
    have hsmall : small (c :: s) = c.toLower :: small s := rfl
    cases hc : isBlank c with
    | true =>
      have hblank : isBlank c.toLower = true := (isBlank_toLower c).trans hc
      rw [hsmall, words_cons_blank hblank, words_cons_blank hc, ih]
    | false =>
      have hsolid : isBlank c.toLower = false := (isBlank_toLower c).trans hc
      cases s with
      | nil =>
        rw [words_singleton hc]
        exact words_singleton hsolid
      | cons d s =>
        have hrest : small (d :: s) = d.toLower :: small s := rfl
        rw [hrest] at ih
        rw [hsmall, hrest, words_cons_cons hsolid, words_cons_cons hc, isBlank_toLower, ih]
        split
        · rfl
        · cases words (d :: s) <;> rfl

section Separator

variable {sep : Char} (hsep : sep.isAlpha = false)
include hsep

theorem segments_small (s : List Char) : segments sep (small s) = (segments sep s).map small := by
  have hsmall : (small : List Char → List Char) = List.flatMap fun c => [c.toLower] :=
    funext fun t => List.map_eq_flatMap
  rw [hsmall]
  refine segments_flatMap ?_ (fun c hc => ?_) s
  · rw [(toLower_eq_iff hsep sep).mpr rfl]
  · exact (toLower_eq_iff hsep c).mp (List.mem_singleton.mp hc).symm

theorem cutAt_small (s : List Char) :
    cutAt sep (small s) = (cutAt sep s).map (Prod.map small small) := by
  have hclass : (fun c => decide (c ≠ sep)) ∘ Char.toLower = fun c => decide (c ≠ sep) := by
    funext c
    simp [toLower_eq_iff hsep]
  rw [cutAt, cutAt, small, List.dropWhile_map, List.takeWhile_map, hclass]
  cases s.dropWhile (fun c => decide (c ≠ sep)) <;> rfl

end Separator

/-- Parts are joined to the same text in small letters if the separator has no capital ones. -/
theorem join_small {sep : List Char} (hsep : small sep = sep) (parts : List (List Char)) :
    join sep (parts.map small) = small (join sep parts) := by
  fun_induction join sep parts with
  | case1 => rfl
  | case2 s => rfl
  | case3 s t ss ih =>
    rw [List.map_cons, List.map_cons, join, ← List.map_cons, ih]
    simp only [small, List.map_append] at hsep ⊢
    rw [hsep]

end MailRules.Text
