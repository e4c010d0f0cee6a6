import Mathlib.Data.List.TakeWhile
import MailRules.Text.Blank

set_option autoImplicit false

/-!
# Trimming

Trimming a text that has no blanks gives it back, whatever blanks are put around it (`trim_pad`).
What it leaves of any text neither begins nor ends with a blank (`isTrimmed_trim`), and such a text
is left alone (`IsTrimmed.trim_eq`).
-/

namespace MailRules.Text

variable {p : Char → Bool}

theorem unblank_of_any {s : List Char} (h : s.any isBlank = false) : ∀ c ∈ s, isBlank c = false := by
  simpa only [List.any_eq_false, Bool.not_eq_true] using h

theorem stripEnd_of_all {s : List Char} (h : ∀ c ∈ s, p c = true) : stripEnd p s = [] := by
  induction s with
  | nil => rfl
  | cons c s ih =>
    rw [List.forall_mem_cons] at h
    simp only [stripEnd, ih h.2, h.1, if_true]

/-- What is at the end goes. -/
theorem stripEnd_append {s t : List Char} (ht : ∀ c ∈ t, p c = true) :
    stripEnd p (s ++ t) = stripEnd p s := by
  induction s with
  | nil => exact stripEnd_of_all ht
  | cons c s ih => simp only [List.cons_append, stripEnd, ih]

/-- Blanks around a text do not matter. -/
theorem trim_between {before after : List Char} (hbefore : ∀ c ∈ before, isBlank c = true)
    (s : List Char) (hafter : ∀ c ∈ after, isBlank c = true) :
    trim (before ++ s ++ after) = trim s := by
  unfold trim strip stripStart
  rw [List.append_assoc, List.dropWhile_append_of_pos hbefore, List.dropWhile_append]
  split
  · next hnil =>
    rw [List.dropWhile_eq_nil_iff.mpr hafter, List.isEmpty_iff.mp hnil]
  · rw [stripEnd_append hafter]

/-- Trimming takes away blanks at the end. -/
theorem trim_append_blank (s : List Char) {after : List Char}
    (hafter : ∀ c ∈ after, isBlank c = true) : trim (s ++ after) = trim s :=
  trim_between (List.forall_mem_nil _) s hafter

/-! ## What is taken away -/

theorem stripEnd_split (p : Char → Bool) (s : List Char) :
    ∃ t, s = stripEnd p s ++ t ∧ ∀ c ∈ t, p c = true := by
  induction s with
  | nil => exact ⟨[], rfl, by simp⟩
  | cons c s ih =>
    obtain ⟨t, hs, ht⟩ := ih
    unfold stripEnd
    split
    · next hnil =>
      rw [hnil, List.nil_append] at hs
      split
      · next hc => exact ⟨c :: t, by rw [hs, List.nil_append], List.forall_mem_cons.mpr ⟨hc, ht⟩⟩
      · exact ⟨t, by rw [hs, List.singleton_append], ht⟩
    · exact ⟨t, by rw [List.cons_append, ← hs], ht⟩

/-- What is taken away at both ends is of the class. -/
theorem strip_split (p : Char → Bool) (s : List Char) :
    ∃ before after, s = before ++ strip p s ++ after ∧ (∀ c ∈ before, p c = true) ∧
      ∀ c ∈ after, p c = true := by
  obtain ⟨after, hafter, hall⟩ := stripEnd_split p (stripStart p s)
  refine ⟨s.takeWhile p, after, ?_, fun c hc => List.mem_takeWhile_imp hc, hall⟩
  rw [List.append_assoc, strip, ← hafter, stripStart, List.takeWhile_append_dropWhile]

/-- Trimming takes away blanks at both ends. -/
theorem trim_split (s : List Char) :
    ∃ before after, s = before ++ trim s ++ after ∧ (∀ c ∈ before, isBlank c = true) ∧
      ∀ c ∈ after, isBlank c = true :=
  strip_split isBlank s

theorem count_of_blank {d : Char} (hd : isBlank d = false) {s : List Char}
    (h : ∀ c ∈ s, isBlank c = true) : s.count d = 0 := by
  refine List.count_eq_zero.mpr fun hmem => ?_
  rw [h d hmem] at hd
  cases hd

/-- Nothing but blanks is lost. -/
theorem count_trim {d : Char} (hd : isBlank d = false) (s : List Char) :
    (trim s).count d = s.count d := by
  obtain ⟨before, after, hs, hbefore, hafter⟩ := trim_split s
  have hcount := congrArg (List.count d) hs
  rw [List.count_append, List.count_append, count_of_blank hd hbefore,
    count_of_blank hd hafter] at hcount
  omega

/-! ## Trimmed texts -/

/-- A text that neither begins nor ends with a blank. -/
structure IsTrimmed (s : List Char) : Prop where
  head : ∀ c, s.head? = some c → isBlank c = false
  last : ∀ c, s.getLast? = some c → isBlank c = false

theorem isTrimmed_of_unblank {s : List Char} (h : ∀ c ∈ s, isBlank c = false) : IsTrimmed s :=
  ⟨fun c hc => h c (List.mem_of_head? hc), fun c hc => h c (List.mem_of_getLast? hc)⟩

theorem stripEnd_isPrefix (s : List Char) : stripEnd p s <+: s := by
  induction s with
  | nil => exact List.prefix_refl []
  | cons c s ih =>
    unfold stripEnd
    split
    · split
      · exact List.nil_prefix
      · exact List.prefix_cons_iff.mpr (Or.inr ⟨[], rfl, List.nil_prefix⟩)
    · exact List.prefix_cons_iff.mpr (Or.inr ⟨_, rfl, ih⟩)

/-- What is left does not end with a character of the class. -/
theorem getLast?_stripEnd {s : List Char} {c : Char} (h : (stripEnd p s).getLast? = some c) :
    p c = false := by
  induction s with
  | nil => cases h
  | cons b s ih =>
    unfold stripEnd at h
    split at h
    · split at h
      · cases h
      · rename_i hb
        obtain rfl : b = c := by simpa using h
        simpa using hb
    · rename_i t hne
      cases hrest : stripEnd p s with
      | nil => exact absurd hrest hne
      | cons e es =>
        rw [hrest, List.getLast?_cons_cons, ← hrest] at h
        exact ih h

/-- A text that does not end with a character of the class is left alone. -/
theorem stripEnd_of_last {s : List Char} (h : ∀ c, s.getLast? = some c → p c = false) :
    stripEnd p s = s := by
  induction s with
  | nil => rfl
  | cons b s ih =>
    cases s with
    | nil => simp [stripEnd, h b rfl]
    | cons e s =>
      rw [List.getLast?_cons_cons] at h
      rw [stripEnd, ih h]

/-- A text that does not begin with a character of the class is left alone. -/
theorem stripStart_of_head {s : List Char} (h : ∀ c, s.head? = some c → p c = false) :
    stripStart p s = s := by
  cases s with
  | nil => rfl
  | cons c s => exact List.dropWhile_cons_of_neg (by simp [h c rfl])

/-- What is left does not begin with a character of the class. -/
theorem head?_stripStart {s : List Char} {c : Char} (h : (stripStart p s).head? = some c) :
    p c = false := by
  have hfirst := List.head?_dropWhile_not p s
  rw [stripStart] at h
  rw [h] at hfirst
  simpa using hfirst

theorem stripStart_congr {q : Char → Bool} {s : List Char} (h : ∀ c ∈ s, p c = q c) :
    stripStart p s = stripStart q s := by
  induction s with
  | nil => rfl
  | cons c s ih =>
    obtain ⟨hc, hrest⟩ := List.forall_mem_cons.mp h
    simp only [stripStart, List.dropWhile_cons, hc] at ih ⊢
    rw [ih hrest]

/-- What follows a character that stays is left alone. -/
theorem stripStart_append {s : List Char} {c : Char} (hmem : c ∈ s)
    (hc : p c = false) (t : List Char) : stripStart p (s ++ t) = stripStart p s ++ t := by
  have hne : s.dropWhile p ≠ [] := by
    intro hnil
    have hall := List.dropWhile_eq_nil_iff.mp hnil c hmem
    rw [hc] at hall
    cases hall
  unfold stripStart
  rw [List.dropWhile_append, if_neg (by simpa using hne)]

theorem stripStart_append_cons (s : List Char) {c : Char} (hc : p c = false) (t : List Char) :
    stripStart p (s ++ c :: t) = stripStart p s ++ c :: t := by
  unfold stripStart
  rw [List.dropWhile_append]
  split
  · next hnil =>
    rw [List.isEmpty_iff.mp hnil, List.dropWhile_cons_of_neg (by simp [hc])]
    rfl
  · rfl

/-- A text keeps its first character if that stays. -/
theorem stripEnd_cons {c : Char} (hc : p c = false) (s : List Char) :
    stripEnd p (c :: s) = c :: stripEnd p s := by
  rw [stripEnd]
  split
  · next hnil => simp [hc, hnil]
  · rfl

/-- What comes before a character that stays is left alone. -/
theorem stripEnd_append_cons (s : List Char) {c : Char} (hc : p c = false) (t : List Char) :
    stripEnd p (s ++ c :: t) = s ++ c :: stripEnd p t := by
  induction s with
  | nil => exact stripEnd_cons hc t
  | cons b s ih =>
    rw [List.cons_append, stripEnd, ih]
    split
    · next hnil => exact absurd hnil (by simp)
    · rfl

/-- Nothing between two characters that are no blanks goes. -/
theorem trim_around {c d : Char} (hc : isBlank c = false) (hd : isBlank d = false)
    (before between after : List Char) :
    trim (before ++ c :: (between ++ d :: after)) =
      stripStart isBlank before ++ c :: (between ++ d :: stripEnd isBlank after) := by
  rw [trim, strip, stripStart_append_cons before hc, stripEnd_append_cons _ hc,
    stripEnd_append_cons _ hd]

theorem isTrimmed_trim (s : List Char) : IsTrimmed (trim s) := by
  refine ⟨fun c hc => ?_, fun c hc => getLast?_stripEnd hc⟩
  obtain ⟨t, ht⟩ := stripEnd_isPrefix (p := isBlank) (stripStart isBlank s)
  refine head?_stripStart (s := s) ?_
  have hhead : (stripEnd isBlank (stripStart isBlank s)).head? = some c := hc
  rw [← ht, List.head?_append, hhead, Option.some_or]

/-- Trimming only takes away. -/
theorem trim_sublist (s : List Char) : (trim s).Sublist s :=
  (stripEnd_isPrefix _).sublist.trans (List.dropWhile_sublist _)

/-- Trimming takes away a blank at the start. -/
theorem length_trim_lt {c : Char} {s : List Char} (h : isBlank c = true) :
    (trim (c :: s)).length < (c :: s).length := by
  have hdrop : trim (c :: s) = stripEnd isBlank (stripStart isBlank s) := by
    rw [trim, strip, stripStart, List.dropWhile_cons_of_pos h, stripStart]
  have hlength : (stripEnd isBlank (stripStart isBlank s)).length ≤ s.length :=
    (trim_sublist s).length_le
  rw [hdrop, List.length_cons]
  omega

theorem IsTrimmed.trim_eq {s : List Char} (h : IsTrimmed s) : trim s = s := by
  rw [trim, strip, stripStart_of_head h.head, stripEnd_of_last h.last]

/-- A text without blanks is what trimming leaves of it between blanks. -/
theorem trim_pad {before s after : List Char} (hbefore : ∀ c ∈ before, isBlank c = true)
    (hs : ∀ c ∈ s, isBlank c = false) (hafter : ∀ c ∈ after, isBlank c = true) :
    trim (before ++ s ++ after) = s := by
  rw [trim_between hbefore s hafter]
  exact (isTrimmed_of_unblank hs).trim_eq

instance (s : List Char) : Decidable (IsTrimmed s) :=
  decidable_of_iff (trim s = s) ⟨fun h => h ▸ isTrimmed_trim s, IsTrimmed.trim_eq⟩

/-- Nothing is left of blanks. -/
theorem trim_of_blank {s : List Char} (h : ∀ c ∈ s, isBlank c = true) : trim s = [] := by
  rw [← List.nil_append s]
  exact trim_append_blank [] h

/-- Trimming twice is trimming once. -/
@[simp] theorem trim_trim (s : List Char) : trim (trim s) = trim s :=
  (isTrimmed_trim s).trim_eq

end MailRules.Text
