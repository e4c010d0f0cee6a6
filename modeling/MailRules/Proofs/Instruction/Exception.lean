import Mathlib.Data.List.Forall2
import MailRules.Proofs.Instruction.Mention

set_option autoImplicit false

/-!
# What makes an exception

A sentence makes an exception if one of the exception words stands alone in it, case ignored
(`hasException_iff`). Three of these words have no blanks in them. The fourth, `but not`, has a
single space, so it is found only where `not` is exactly one space behind `but`; farther apart, or
with a tab or a line feed in between, the two are not seen (`DividesButNot`).

Written with single spaces between its words, a sentence makes an exception just if it made one
before, or had the two words in another distance (`hasException_condense`).
-/

namespace MailRules.Instruction

open Text

/-- A text has the letters of a word when case is ignored. -/
def SameLetters (w u : List Char) : Prop :=
  List.Forall₂ (fun small c => isLetterOf small c = true) w u

/-- Whether a word ends beside a character. -/
def isApart (c : Char) : Bool :=
  !isWord c

/-- A word stands alone in a text. -/
def HasWord (s w : List Char) : Prop :=
  ∃ u, SameLetters w u ∧ IsBetween isApart s u

/-! ## Finding words -/

theorem afterWord?_eq_some {w s r : List Char} :
    afterWord? w s = some r ↔ ∃ u, SameLetters w u ∧ s = u ++ r := by
  induction w generalizing s with
  | nil =>
    constructor
    · intro h
      exact ⟨[], .nil, Option.some.inj h⟩
    · rintro ⟨u, hu, rfl⟩
      cases hu
      rfl
  | cons a w ih =>
    cases s with
    | nil =>
      refine ⟨nofun, ?_⟩
      rintro ⟨u, hu, hs⟩
      obtain ⟨rfl, -⟩ := List.append_eq_nil_iff.mp hs.symm
      cases hu
    | cons c s =>
      rw [afterWord?]
      constructor
      · intro h
        split at h
        · next hc =>
          obtain ⟨u, hu, rfl⟩ := ih.mp h
          exact ⟨c :: u, .cons hc hu, rfl⟩
        · cases h
      · rintro ⟨u, hu, hs⟩
        cases hu with
        | cons hc hu =>
          obtain ⟨rfl, rfl⟩ := List.cons.inj hs
          rw [if_pos hc]
          exact ih.mpr ⟨_, hu, rfl⟩

theorem startsWithWord_iff {ws : List (List Char)} {before : Option Char} {s : List Char} :
    startsWithWord ws before s = true ↔ before.all isApart = true ∧
      ∃ w ∈ ws, ∃ u rest, SameLetters w u ∧ s = u ++ rest ∧ rest.head?.all isApart = true := by
  have hnone (o : Option Char) : (!o.any isWord) = o.all isApart := by
    cases o <;> rfl
  simp only [startsWithWord, Bool.and_eq_true, List.any_eq_true, hnone]
  refine and_congr_right fun _ => exists_congr fun w => and_congr_right fun _ => ?_
  constructor
  · intro h
    split at h
    · next r hr =>
      obtain ⟨u, hu, hs⟩ := afterWord?_eq_some.mp hr
      exact ⟨u, r, hu, hs, h⟩
    · cases h
  · rintro ⟨u, r, hu, hs, hr⟩
    rw [afterWord?_eq_some.mpr ⟨u, hu, hs⟩]
    exact hr

theorem getLast?_cons_or (c : Char) (s : List Char) (before : Option Char) :
    (c :: s).getLast?.or before = s.getLast?.or (some c) := by
  rw [List.getLast?_cons]
  cases s.getLast? <;> rfl

/-- One of the words stands alone in a text that follows `before`. -/
theorem mentions_iff {ws : List (List Char)} (hne : [] ∉ ws) {before : Option Char}
    {s : List Char} :
    mentions ws before s = true ↔ ∃ w ∈ ws, ∃ start u rest, SameLetters w u ∧
      s = start ++ u ++ rest ∧ (start.getLast?.or before).all isApart = true ∧
      rest.head?.all isApart = true := by
  induction s generalizing before with
  | nil =>
    refine ⟨nofun, ?_⟩
    rintro ⟨w, hw, start, u, rest, hu, hs, -, -⟩
    obtain ⟨hstart, -⟩ := List.append_eq_nil_iff.mp hs.symm
    obtain ⟨-, rfl⟩ := List.append_eq_nil_iff.mp hstart
    cases hu
    exact absurd hw hne
  | cons c s ih =>
    rw [mentions, Bool.or_eq_true, startsWithWord_iff, ih]
    constructor
    · rintro (⟨hbefore, w, hw, u, rest, hu, hs, hrest⟩ |
        ⟨w, hw, start, u, rest, hu, rfl, hstart, hrest⟩)
      · exact ⟨w, hw, [], u, rest, hu, hs, hbefore, hrest⟩
      · refine ⟨w, hw, c :: start, u, rest, hu, rfl, ?_, hrest⟩
        rwa [getLast?_cons_or]
    · rintro ⟨w, hw, start, u, rest, hu, hs, hstart, hrest⟩
      cases start with
      | nil => exact Or.inl ⟨hstart, w, hw, u, rest, hu, hs, hrest⟩
      | cons a start =>
        obtain ⟨rfl, rfl⟩ := List.cons.inj hs
        rw [getLast?_cons_or] at hstart
        exact Or.inr ⟨w, hw, start, u, rest, hu, rfl, hstart, hrest⟩

/-- A sentence makes an exception if one of the exception words stands alone in it. -/
theorem hasException_iff {s : List Char} :
    hasException s = true ↔ ∃ w ∈ exceptionWords, HasWord s w := by
  rw [hasException, mentions_iff (by decide)]
  refine exists_congr fun w => and_congr_right fun _ => ?_
  constructor
  · rintro ⟨start, u, rest, hu, hs, hstart, hrest⟩
    rw [Option.or_none] at hstart
    exact ⟨u, hu, start, rest, hs, hstart, hrest⟩
  · rintro ⟨u, hu, start, rest, hs, hstart, hrest⟩
    refine ⟨start, u, rest, hu, hs, ?_, hrest⟩
    rwa [Option.or_none]

/-! ## Letters -/

/-- Case does not make a blank of a character that is none, nor the other way round. -/
theorem isBlank_of_isLetterOf {small c : Char} (h : isLetterOf small c = true) :
    isBlank c = isBlank small := by
  simp only [isLetterOf, Bool.or_eq_true, Bool.and_eq_true, decide_eq_true_eq] at h
  rcases h with (hsmall | ⟨rfl, rfl⟩) | ⟨rfl, rfl⟩
  · unfold lowerSimple at hsmall
    split at hsmall
    · next hdotted =>
      rw [← hsmall, beq_iff_eq.mp hdotted]
      decide
    · obtain ⟨d, ds, hds⟩ := List.exists_cons_of_ne_nil (lowerChar_spec c).1
      have hmem : d ∈ lowerChar c := by
        rw [hds]
        exact List.mem_cons_self
      rw [hds, List.headD_cons] at hsmall
      rw [← hsmall, (isLow_of_mem_lowerChar hmem).2]
  · decide
  · decide

/-- A space has no other case. -/
theorem isLetterOf_space {c : Char} : isLetterOf ' ' c = true ↔ c = ' ' := by
  constructor
  · intro h
    have hsimple : lowerSimple c = ' ' := by simpa [isLetterOf] using h
    unfold lowerSimple at hsimple
    split at hsimple
    · cases hsimple
    · obtain ⟨d, ds, hds⟩ := List.exists_cons_of_ne_nil (lowerChar_spec c).1
      rw [hds, List.headD_cons] at hsimple
      subst hsimple
      exact eq_of_mem_lowerChar (hds ▸ List.mem_cons_self) (by decide) (by decide)
  · rintro rfl
    rfl

theorem SameLetters.ne_nil {w u : List Char} (h : SameLetters w u) (hne : w ≠ []) : u ≠ [] := by
  rintro rfl
  cases h
  exact hne rfl

theorem SameLetters.unblank {w u : List Char} (h : SameLetters w u)
    (hw : ∀ c ∈ w, isBlank c = false) : ∀ c ∈ u, isBlank c = false := by
  induction h with
  | nil => exact hw
  | cons hc _ ih =>
    obtain ⟨ha, hrest⟩ := List.forall_mem_cons.mp hw
    exact List.forall_mem_cons.mpr ⟨(isBlank_of_isLetterOf hc).trans ha, ih hrest⟩

/-- Two words with a space in between are spelled with a space in between. -/
theorem sameLetters_space {v w u : List Char} :
    SameLetters (v ++ ' ' :: w) u ↔
      ∃ x y, u = x ++ ' ' :: y ∧ SameLetters v x ∧ SameLetters w y := by
  constructor
  · intro h
    induction v generalizing u with
    | nil =>
      cases h with
      | cons hspace hy => exact ⟨[], _, by rw [isLetterOf_space.mp hspace]; rfl, .nil, hy⟩
    | cons a v ih =>
      cases h with
      | cons ha hrest =>
        obtain ⟨x, y, rfl, hx, hy⟩ := ih hrest
        exact ⟨_ :: x, y, rfl, .cons ha hx, hy⟩
  · rintro ⟨x, y, rfl, hx, hy⟩
    exact List.rel_append hx (.cons (isLetterOf_space.mpr rfl) hy)

/-! ## Stretches of a text and its words -/

section Stretches

variable {p : Char → Bool} {s t : List Char}

/-- A stretch inside of a stretch is between what is around it there. -/
theorem IsBetween.inner {q : Char → Bool} (hqp : ∀ c, q c = true → p c = true) {a b : List Char}
    (h : IsBetween q s (a ++ t ++ b)) (ha : a.getLast?.all p = true)
    (hb : b.head?.all p = true) : IsBetween p s t := by
  obtain ⟨before, after, rfl, hbefore, hafter⟩ := h
  refine ⟨before ++ a, b ++ after, by simp only [List.append_assoc], ?_, ?_⟩
  · rw [List.getLast?_append]
    exact all_or hqp ha hbefore
  · rw [List.head?_append]
    exact all_or hqp hb hafter

/-- A stretch reaches to the next blanks on both sides when what is beside it is added. -/
theorem IsBetween.outer (h : IsBetween p s t) :
    ∃ a b, (∀ c ∈ a, isBlank c = false) ∧ (∀ c ∈ b, isBlank c = false) ∧
      a.getLast?.all p = true ∧ b.head?.all p = true ∧ IsBetween isBlank s (a ++ t ++ b) := by
  obtain ⟨before, after, rfl, hbefore, hafter⟩ := h
  obtain ⟨start, a, rfl, hstart, ha⟩ := exists_unblank_suffix before
  obtain ⟨b, rest, rfl, hb, hrest⟩ := exists_unblank_prefix after
  rw [List.getLast?_append] at hbefore
  rw [List.head?_append] at hafter
  exact ⟨a, b, ha, hb, all_of_or hbefore, all_of_or hafter, start, rest,
    by simp only [List.append_assoc], hstart, hrest⟩

/-- The words of a stretch between blanks are words of the text, in a row. -/
theorem IsBetween.words_infix (h : IsBetween isBlank s t) : words t <:+: words s := by
  obtain ⟨before, after, rfl, hbefore, hafter⟩ := h
  rw [words_append (Or.inr hafter), words_append (Or.inl hbefore)]
  exact ⟨words before, words after, rfl⟩

theorem isBetween_of_mem_words {w : List Char} (h : w ∈ words s) : IsBetween isBlank s w := by
  obtain ⟨as, bs, hws⟩ := List.append_of_mem h
  obtain ⟨start, t, rfl, hstart, ht⟩ := words_eq_append hws (List.cons_ne_nil w bs)
  obtain ⟨-, before, after, rfl, hbefore, hafter, -⟩ := words_eq_cons ht
  exact ⟨start ++ before, after, by simp only [List.append_assoc],
    getLast?_all_append hstart (getLast?_all_of_all hbefore), hafter⟩

/-- Two words in a row have blanks in between, and nothing else. -/
theorem exists_gap {x y : List Char} (h : [x, y] <:+: words s) :
    ∃ gap, gap ≠ [] ∧ (∀ c ∈ gap, isBlank c = true) ∧ IsBetween isBlank s (x ++ gap ++ y) := by
  obtain ⟨as, bs, hws⟩ := h
  rw [List.append_assoc] at hws
  obtain ⟨start, t, rfl, hstart, ht⟩ := words_eq_append hws.symm (List.cons_ne_nil x (y :: bs))
  obtain ⟨-, before, rest, rfl, hbefore, hrest, hwords⟩ := words_eq_cons ht
  obtain ⟨⟨hne, hy⟩, gap, after, rfl, hgap, hafter, -⟩ := words_eq_cons hwords
  refine ⟨gap, ?_, hgap, start ++ before, after, by simp only [List.append_assoc],
    getLast?_all_append hstart (getLast?_all_of_all hbefore), hafter⟩
  -- without a gap the second word would begin with the blank that ends the first
  rintro rfl
  obtain ⟨c, r, rfl⟩ := List.exists_cons_of_ne_nil hne
  have hblank : isBlank c = true := hrest
  rw [hy c List.mem_cons_self] at hblank
  cases hblank

/-- The last ones of words that are joined stand behind a blank. -/
theorem join_append {b : Char} (hb : isBlank b = true) (as : List (List Char))
    {bs : List (List Char)} (hne : bs ≠ []) :
    ∃ start, join [b] (as ++ bs) = start ++ join [b] bs ∧ start.getLast?.all isBlank = true := by
  induction as with
  | nil => exact ⟨[], rfl, rfl⟩
  | cons a as ih =>
    obtain ⟨start, hjoin, hstart⟩ := ih
    refine ⟨a ++ b :: start, ?_, getLast?_all_append_cons a hb hstart⟩
    rw [List.cons_append, join_cons_of_ne_nil [b] a (by simp [hne]), hjoin]
    simp only [List.append_assoc, List.cons_append, List.nil_append]

/-- Two words in a row that are joined have a space in between. -/
theorem isBetween_join {ws : List (List Char)} {x y : List Char} (h : [x, y] <:+: ws) :
    IsBetween isBlank (join [' '] ws) (x ++ [' '] ++ y) := by
  obtain ⟨as, bs, rfl⟩ := h
  have hspace : isBlank ' ' = true := by decide
  rw [List.append_assoc]
  obtain ⟨start, hjoin, hstart⟩ := join_append hspace as (List.cons_ne_nil x (y :: bs))
  rw [List.cons_append, List.cons_append, List.nil_append, hjoin]
  cases bs with
  | nil => exact ⟨start, [], by simp [join], hstart, rfl⟩
  | cons z bs => exact ⟨start, ' ' :: join [' '] (z :: bs), by simp [join], hstart, rfl⟩

end Stretches

/-! ## Exceptions in words -/

/-- The exception words without blanks. -/
def plainExceptions : List (List Char) :=
  ["unless", "except", "excluding"].map String.toList

/-- The words `but` and `not` stand in a text with a gap in between. -/
def HasButNot (s gap : List Char) : Prop :=
  ∃ u v, SameLetters "but".toList u ∧ SameLetters "not".toList v ∧
    IsBetween isApart s (u ++ gap ++ v)

/-- The words `but` and `not` stand in a text with blanks in between that are not a single space. -/
def DividesButNot (s : List Char) : Prop :=
  ∃ gap, gap ≠ [' '] ∧ gap ≠ [] ∧ (∀ c ∈ gap, isBlank c = true) ∧ HasButNot s gap

/-- One of two words in a row ends with the word `but`, and the other begins with `not`. -/
def HaveButNot (ws : List (List Char)) : Prop :=
  ∃ a u v b, SameLetters "but".toList u ∧ SameLetters "not".toList v ∧
    a.getLast?.all isApart = true ∧ b.head?.all isApart = true ∧ [a ++ u, v ++ b] <:+: ws

theorem isApart_of_isBlank {c : Char} (h : isBlank c = true) : isApart c = true :=
  blank_forall (p := fun c => isApart c = true) (by decide +kernel) h

theorem plainExceptions_solid :
    ∀ w ∈ plainExceptions, w ≠ [] ∧ ∀ c ∈ w, isBlank c = false := by
  have hsolid : ∀ w ∈ plainExceptions, w ≠ [] ∧ w.any isBlank = false := by decide
  exact fun w hw => ⟨(hsolid w hw).1, unblank_of_any (hsolid w hw).2⟩

theorem but_unblank : ∀ c ∈ "but".toList, isBlank c = false :=
  unblank_of_any rfl

theorem not_unblank : ∀ c ∈ "not".toList, isBlank c = false :=
  unblank_of_any rfl

theorem hasWord_butNot {s : List Char} :
    HasWord s ("but".toList ++ ' ' :: "not".toList) ↔ HasButNot s [' '] := by
  constructor
  · rintro ⟨t, ht, hplaced⟩
    obtain ⟨u, v, rfl, hu, hv⟩ := sameLetters_space.mp ht
    exact ⟨u, v, hu, hv, by rwa [List.append_assoc, List.singleton_append]⟩
  · rintro ⟨u, v, hu, hv, hplaced⟩
    refine ⟨u ++ ' ' :: v, sameLetters_space.mpr ⟨u, v, rfl, hu, hv⟩, ?_⟩
    rwa [List.append_assoc, List.singleton_append] at hplaced

theorem hasException_iff_words {s : List Char} :
    hasException s = true ↔ (∃ w ∈ plainExceptions, HasWord s w) ∨ HasButNot s [' '] := by
  have hwords : exceptionWords = plainExceptions ++ ["but".toList ++ ' ' :: "not".toList] := rfl
  rw [hasException_iff, hwords, ← hasWord_butNot]
  simp only [List.mem_append, List.mem_singleton, or_and_right, exists_or, exists_eq_left]

/-- A word without blanks stands alone in one of the words of a text if it stands alone in it. -/
theorem hasWord_iff {s w : List Char} (hne : w ≠ []) (hw : ∀ c ∈ w, isBlank c = false) :
    HasWord s w ↔ ∃ x ∈ words s, HasWord x w := by
  constructor
  · rintro ⟨u, hu, hplaced⟩
    obtain ⟨a, b, ha, hb, halast, hbhead, hblank⟩ := hplaced.outer
    have hsolid : ∀ c ∈ a ++ u ++ b, isBlank c = false := by
      rw [List.forall_mem_append, List.forall_mem_append]
      exact ⟨⟨ha, hu.unblank hw⟩, hb⟩
    have hmem : [a ++ u ++ b] <:+: words s := by
      rw [← words_of_plain (by simp [hu.ne_nil hne]) hsolid]
      exact hblank.words_infix
    exact ⟨a ++ u ++ b, hmem.subset (List.mem_singleton_self _), u, hu, a, b, rfl, halast, hbhead⟩
  · rintro ⟨x, hx, u, hu, a, b, rfl, ha, hb⟩
    exact ⟨u, hu, (isBetween_of_mem_words hx).inner (fun _ => isApart_of_isBlank) ha hb⟩

/-- Where the two words have nothing but blanks in between, they are words in a row. -/
theorem HasButNot.in_words {s gap : List Char} (h : HasButNot s gap) (hne : gap ≠ [])
    (hgap : ∀ c ∈ gap, isBlank c = true) : HaveButNot (words s) := by
  obtain ⟨u, v, hu, hv, hplaced⟩ := h
  obtain ⟨a, b, ha, hb, halast, hbhead, hblank⟩ := hplaced.outer
  refine ⟨a, u, v, b, hu, hv, halast, hbhead, ?_⟩
  have hleft : words (a ++ u) = [a ++ u] := by
    refine words_of_plain (by simp [hu.ne_nil (by decide)]) ?_
    exact List.forall_mem_append.mpr ⟨ha, hu.unblank but_unblank⟩
  have hright : words (v ++ b) = [v ++ b] := by
    refine words_of_plain (by simp [hv.ne_nil (by decide)]) ?_
    exact List.forall_mem_append.mpr ⟨hv.unblank not_unblank, hb⟩
  obtain ⟨d, gap, rfl⟩ := List.exists_cons_of_ne_nil hne
  have hwords : words (a ++ u ++ d :: gap ++ (v ++ b)) = [a ++ u, v ++ b] := by
    have hd : isBlank d = true := hgap d List.mem_cons_self
    rw [List.append_assoc, List.cons_append, words_append_blank hd,
      words_blank_append fun c hc => hgap c (List.mem_cons_of_mem d hc), hleft, hright]
    rfl
  rw [← hwords]
  have hinfix := hblank.words_infix
  simp only [List.append_assoc] at hinfix ⊢
  exact hinfix

/-- Words in a row stand where they stand in any text that they are words of. -/
theorem HaveButNot.of_placed {ws : List (List Char)} (h : HaveButNot ws) {s : List Char}
    {P : List Char → Prop}
    (hplaced : ∀ x y, [x, y] <:+: ws → ∃ gap, P gap ∧ IsBetween isBlank s (x ++ gap ++ y)) :
    ∃ gap, P gap ∧ HasButNot s gap := by
  obtain ⟨a, u, v, b, hu, hv, ha, hb, hinfix⟩ := h
  obtain ⟨gap, hgap, hbetween⟩ := hplaced _ _ hinfix
  have hsplit : a ++ u ++ gap ++ (v ++ b) = a ++ (u ++ gap ++ v) ++ b := by
    simp only [List.append_assoc]
  rw [hsplit] at hbetween
  exact ⟨gap, hgap, u, v, hu, hv, hbetween.inner (fun _ => isApart_of_isBlank) ha hb⟩

/-- A text with single spaces between its words has the same words. -/
@[simp] theorem words_condense (s : List Char) : words (condense s) = words s :=
  words_join (by decide) fun _ => solid_of_mem_words

/-- With single spaces between its words, a sentence makes an exception just if it makes one as it
is, or if all that is missing are the words `but` and `not` in the right distance. -/
theorem hasException_condense {s : List Char} :
    hasException (condense s) = true ↔ hasException s = true ∨ DividesButNot s := by
  have hplain : (∃ w ∈ plainExceptions, HasWord (condense s) w) ↔
      ∃ w ∈ plainExceptions, HasWord s w := by
    refine exists_congr fun w => and_congr_right fun hw => ?_
    obtain ⟨hne, hsolid⟩ := plainExceptions_solid w hw
    rw [hasWord_iff hne hsolid, hasWord_iff hne hsolid, words_condense]
  have hpair : HasButNot (condense s) [' '] ↔ HaveButNot (words s) := by
    constructor
    · intro h
      rw [← words_condense]
      exact h.in_words (by decide) (List.forall_mem_singleton.mpr rfl)
    · intro h
      obtain ⟨gap, rfl, hgap⟩ := h.of_placed (P := (· = [' '])) fun x y hinfix =>
        ⟨[' '], rfl, isBetween_join hinfix⟩
      exact hgap
  have hdivided : HaveButNot (words s) ↔ HasButNot s [' '] ∨ DividesButNot s := by
    constructor
    · intro h
      obtain ⟨gap, ⟨hne, hblank⟩, hgap⟩ := h.of_placed
        (P := fun gap => gap ≠ [] ∧ ∀ c ∈ gap, isBlank c = true) fun x y hinfix => by
          obtain ⟨gap, hne, hblank, hbetween⟩ := exists_gap hinfix
          exact ⟨gap, ⟨hne, hblank⟩, hbetween⟩
      by_cases hspace : gap = [' ']
      · exact Or.inl (hspace ▸ hgap)
      · exact Or.inr ⟨gap, hspace, hne, hblank, hgap⟩
    · rintro (h | ⟨gap, -, hne, hblank, h⟩)
      · exact h.in_words (by decide) (List.forall_mem_singleton.mpr rfl)
      · exact h.in_words hne hblank
  rw [hasException_iff_words, hasException_iff_words, hplain, hpair, hdivided, or_assoc]

end MailRules.Instruction
