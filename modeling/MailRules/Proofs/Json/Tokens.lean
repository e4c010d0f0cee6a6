import MailRules.Json.Reader
import Mathlib.Data.List.TakeWhile

set_option autoImplicit false

/-!
# What is passed in reading

What a reading function passes is made up of `Tokens`: strings, each on one line, and between them
characters of a small class. `Leaves s r` says that `r` is left when some of them have been passed
at the start of `s`. The lemmas here are on strings and the parts of numbers.
-/

namespace MailRules.Json

/-- A character that stands outside strings: a space, a mark, or a part of a number or a word. -/
def isPlain (c : Char) : Bool :=
  isSpace c || c.isAlphanum || c = '[' || c = ']' || c = '\x7b' || c = '\x7d' || c = ',' ||
    c = ':' || c = '+' || c = '-' || c = '.'

/-- A text of plain characters and of strings that do not go beyond their line. -/
inductive Tokens : List Char → Prop
  | nil : Tokens []
  | plain {c : Char} {s : List Char} (hc : isPlain c = true) (hs : Tokens s) : Tokens (c :: s)
  | quoted {t s : List Char} (ht : '\n' ∉ t) (hs : Tokens s) : Tokens ('"' :: (t ++ '"' :: s))

theorem Tokens.append {s t : List Char} (hs : Tokens s) (ht : Tokens t) : Tokens (s ++ t) := by
  induction hs with
  | nil => exact ht
  | plain hc _ ih => exact .plain hc ih
  | quoted hline _ ih =>
    rw [List.cons_append, List.append_assoc]
    exact .quoted hline ih

theorem tokens_of_plain {s : List Char} (h : ∀ c ∈ s, isPlain c = true) : Tokens s := by
  induction s with
  | nil => exact .nil
  | cons c s ih =>
    rw [List.forall_mem_cons] at h
    exact .plain h.1 (ih h.2)

/-- `r` is left of `s` after some tokens. -/
def Leaves (s r : List Char) : Prop :=
  ∃ t, s = t ++ r ∧ Tokens t

namespace Leaves

variable {s t r : List Char}

theorem refl (s : List Char) : Leaves s s :=
  ⟨[], rfl, .nil⟩

theorem trans (hst : Leaves s t) (htr : Leaves t r) : Leaves s r := by
  obtain ⟨u, rfl, hu⟩ := hst
  obtain ⟨v, rfl, hv⟩ := htr
  exact ⟨u ++ v, by rw [List.append_assoc], hu.append hv⟩

theorem of_plain {p : List Char} (h : ∀ c ∈ p, isPlain c = true) (r : List Char) :
    Leaves (p ++ r) r :=
  ⟨p, rfl, tokens_of_plain h⟩

theorem cons {c : Char} (hc : isPlain c = true) (r : List Char) : Leaves (c :: r) r :=
  ⟨[c], rfl, .plain hc .nil⟩

/-- What is left is an end of the text. -/
theorem suffix (h : Leaves s r) : r <:+ s := by
  obtain ⟨t, rfl, -⟩ := h
  exact List.suffix_append t r

/-- A text of which nothing is left is made up of tokens. -/
theorem tokens (h : Leaves s []) : Tokens s := by
  obtain ⟨t, rfl, ht⟩ := h
  rw [List.append_nil]
  exact ht

end Leaves

/-! ## Spaces -/

theorem isPlain_of_isSpace {c : Char} (h : isSpace c = true) : isPlain c = true := by
  simp [isPlain, h]

theorem skipSpaces_leaves (s : List Char) : Leaves s (skipSpaces s) := by
  have hsplit := Leaves.of_plain (p := s.takeWhile isSpace)
    (fun c hc => isPlain_of_isSpace (List.mem_takeWhile_imp hc)) (skipSpaces s)
  rwa [skipSpaces, List.takeWhile_append_dropWhile] at hsplit

/-- A plain character and the spaces before it are passed. -/
theorem next_leaves {s t u : List Char} {c : Char} (ht : Leaves s t)
    (hskip : skipSpaces t = c :: u) (hc : isPlain c = true) : Leaves s u := by
  have hspaces := skipSpaces_leaves t
  rw [hskip] at hspaces
  exact (ht.trans hspaces).trans (Leaves.cons hc u)

/-- A text is read as the value that it begins with, when nothing but spaces comes after that. -/
theorem read_eq_ok {text : String} {v : Json} :
    read text = .ok v ↔ text.toList.head? ≠ some '\ufeff' ∧
      ∃ r, readValue depthLimit (skipSpaces text.toList) = .ok (v, r) ∧ skipSpaces r = [] := by
  unfold read readAll
  by_cases hmark : text.toList.head? = some '\ufeff'
  · simp [hmark]
  · rw [if_neg hmark]
    rcases readValue depthLimit (skipSpaces text.toList) with f | ⟨w, r⟩
    · simp
    · simp only [Except.ok.injEq, Prod.mk.injEq]
      split
      · next hnil =>
        constructor
        · intro hv
          cases hv
          exact ⟨hmark, r, ⟨rfl, rfl⟩, hnil⟩
        · rintro ⟨-, u, ⟨rfl, rfl⟩, -⟩
          rfl
      · next hne =>
        constructor
        · intro hv
          cases hv
        · rintro ⟨-, u, ⟨rfl, rfl⟩, hnil⟩
          exact absurd hnil hne

/-! ## Strings -/

theorem lineFeed_not_hex {a b c d : Char} {n : Nat} (h : unitOf? a b c d = some n) :
    '\n' ∉ [a, b, c, d] := by
  have hfeed : hexValue? '\n' = none := by decide
  unfold unitOf? at h
  intro hmem
  simp only [List.mem_cons, List.not_mem_nil, or_false] at hmem
  rcases hmem with rfl | rfl | rfl | rfl <;> simp [hfeed] at h

/-- The rest of a string is read up to the quote that ends it, and that is on the same line. -/
theorem readChars_eq_ok {waiting : Option Nat} {acc s cs r : List Char}
    (h : readChars waiting acc s = .ok (cs, r)) : ∃ t, s = t ++ '"' :: r ∧ '\n' ∉ t := by
  fun_induction readChars waiting acc s with
  | case2 waiting acc t =>
    cases h
    exact ⟨[], rfl, by simp⟩
  | case4 waiting acc a b c d n e t hunit next ih =>
    obtain ⟨u, hu, hline⟩ := ih h
    refine ⟨'\\' :: 'u' :: a :: b :: c :: d :: u, by rw [hu]; rfl, ?_⟩
    have hhex := lineFeed_not_hex hunit
    simp only [List.mem_cons, List.not_mem_nil, or_false, not_or] at hhex ⊢
    exact ⟨by decide, by decide, hhex.1, hhex.2.1, hhex.2.2.1, hhex.2.2.2, hline⟩
  | case7 waiting acc e t _ _ c hc ih =>
    obtain ⟨u, hu, hline⟩ := ih h
    refine ⟨'\\' :: e :: u, by rw [hu]; rfl, ?_⟩
    have hescape : e ≠ '\n' := by
      rintro rfl
      cases hc
    simp only [List.mem_cons, not_or]
    exact ⟨by decide, hescape.symm, hline⟩
  | case10 waiting acc c t _ _ _ _ hcode ih =>
    obtain ⟨u, hu, hline⟩ := ih h
    refine ⟨c :: u, by rw [hu]; rfl, ?_⟩
    simp only [List.mem_cons, not_or]
    refine ⟨?_, hline⟩
    rintro rfl
    exact hcode (by decide)
  | case1 | case3 | case5 | case6 | case8 | case9 => cases h

/-- A string with the quote before it is passed as a whole. -/
theorem readChars_leaves {waiting : Option Nat} {acc s cs r : List Char}
    (h : readChars waiting acc s = .ok (cs, r)) : Leaves ('"' :: s) r := by
  obtain ⟨t, rfl, ht⟩ := readChars_eq_ok h
  exact ⟨'"' :: (t ++ ['"']), by simp, .quoted ht .nil⟩

/-! ## Numbers -/

theorem isPlain_of_isDigit {c : Char} (h : c.isDigit = true) : isPlain c = true := by
  simp [isPlain, Char.isAlphanum, h]

theorem takeDigits_leaves {s ds r : List Char} (h : takeDigits s = (ds, r)) : Leaves s r := by
  cases h
  have hsplit := Leaves.of_plain (p := s.takeWhile Char.isDigit)
    (fun c hc => isPlain_of_isDigit (List.mem_takeWhile_imp hc)) (s.dropWhile Char.isDigit)
  rwa [List.takeWhile_append_dropWhile] at hsplit

theorem takeFraction_leaves (s : List Char) : Leaves s (takeFraction s).2 := by
  unfold takeFraction
  split
  · next r =>
    split
    · exact .refl _
    · next hdigits => exact (Leaves.cons (by decide) r).trans (takeDigits_leaves hdigits)
  · exact .refl _

theorem takeExponent_leaves (s : List Char) : Leaves s (takeExponent s).2 := by
  unfold takeExponent
  split
  · exact .refl _
  · next e r =>
    split
    · next he =>
      have hplain : isPlain e = true := by
        rw [Bool.or_eq_true, decide_eq_true_eq, decide_eq_true_eq] at he
        rcases he with rfl | rfl <;> decide
      have hmark := Leaves.cons hplain r
      dsimp only
      split
      · exact .refl _
      · next hdigits =>
        refine hmark.trans (Leaves.trans ?_ (takeDigits_leaves hdigits))
        split
        · exact .cons (by decide) _
        · exact .cons (by decide) _
        · exact .refl _
    · exact .refl _

end MailRules.Json
