import Mathlib.Data.List.Basic
import MailRules.Proofs.Text.Sigma
import MailRules.Text.Segment

set_option autoImplicit false

/-!
# Joined texts

What parts say of the text that they are joined to: its characters, its ends, its length, and its
lower case if the separator keeps the parts apart (`IsBreak.lower_join`). In the other direction,
what is done to a text character by character is done to its segments (`segments_flatMap`).
-/

namespace MailRules.Text

variable {sep : List Char} {parts : List (List Char)}

theorem mem_join {c : Char} (h : c ∈ join sep parts) : c ∈ sep ∨ ∃ s ∈ parts, c ∈ s := by
  fun_induction join with
  | case1 => cases h
  | case2 s => exact Or.inr ⟨s, List.mem_singleton_self s, h⟩
  | case3 s t ss ih =>
    rw [List.mem_append, List.mem_append] at h
    rcases h with (hs | hsep) | hrest
    · exact Or.inr ⟨s, List.mem_cons_self, hs⟩
    · exact Or.inl hsep
    · rcases ih hrest with hsep | ⟨u, hu, hc⟩
      · exact Or.inl hsep
      · exact Or.inr ⟨u, List.mem_cons_of_mem _ hu, hc⟩

theorem join_cons_of_ne_nil (sep s : List Char) (hne : parts ≠ []) :
    join sep (s :: parts) = s ++ sep ++ join sep parts := by
  cases parts with
  | nil => exact absurd rfl hne
  | cons t ts => rfl

/-- Parts that are joined end with the last one. -/
theorem suffix_join (sep : List Char) (parts : List (List Char)) (s : List Char) :
    s <:+ join sep (parts ++ [s]) := by
  induction parts with
  | nil => exact List.suffix_refl s
  | cons t parts ih =>
    rw [List.cons_append, join_cons_of_ne_nil sep t (by simp)]
    exact ih.trans (List.suffix_append _ _)

/-- No part is longer than the whole. -/
theorem length_le_join (sep : List Char) {s : List Char} (h : s ∈ parts) :
    s.length ≤ (join sep parts).length := by
  induction parts with
  | nil => cases h
  | cons t parts ih =>
    by_cases hne : parts = []
    · subst hne
      obtain rfl := List.mem_singleton.mp h
      exact Nat.le_refl _
    · rw [join_cons_of_ne_nil sep t hne, List.length_append, List.length_append]
      rcases List.mem_cons.mp h with rfl | h
      · omega
      · have hle := ih h
        omega

/-- A part of several is shorter than the whole. -/
theorem length_lt_join (hsep : sep ≠ []) {s : List Char} (h : s ∈ parts) (hmore : parts ≠ [s]) :
    s.length < (join sep parts).length := by
  have hlength : 0 < sep.length := List.length_pos_iff.mpr hsep
  cases parts with
  | nil => cases h
  | cons t parts =>
    by_cases hne : parts = []
    · subst hne
      rw [List.mem_singleton.mp h] at hmore
      exact absurd rfl hmore
    · rw [join_cons_of_ne_nil sep t hne, List.length_append, List.length_append]
      rcases List.mem_cons.mp h with rfl | h
      · omega
      · have hle := length_le_join sep h
        omega

/-- Trimmed parts that are not empty make a trimmed text that is not empty. -/
theorem isTrimmed_join (sep : List Char) (hne : parts ≠ [])
    (h : ∀ s ∈ parts, s ≠ [] ∧ IsTrimmed s) :
    join sep parts ≠ [] ∧ IsTrimmed (join sep parts) := by
  induction parts with
  | nil => exact absurd rfl hne
  | cons s parts ih =>
    obtain ⟨⟨hs, htrimmed⟩, hrest⟩ := List.forall_mem_cons.mp h
    by_cases hnil : parts = []
    · subst hnil
      exact ⟨hs, htrimmed⟩
    · obtain ⟨hjoin, hlast⟩ := ih hnil hrest
      rw [join_cons_of_ne_nil sep s hnil]
      refine ⟨by simp [hs], ?_, ?_⟩
      · intro c hc
        rw [List.append_assoc, List.head?_append_of_ne_nil _ hs] at hc
        exact htrimmed.head c hc
      · intro c hc
        rw [List.getLast?_append_of_ne_nil _ hjoin] at hc
        exact hlast.last c hc

theorem IsBreak.lower_join (h : IsBreak sep) (parts : List (List Char)) :
    lower (join sep parts) = join (lower sep) (parts.map lower) := by
  fun_induction join with
  | case1 => rfl
  | case2 s => rfl
  | case3 s t ss ih =>
    rw [h.lower_append, ih]
    rfl

/-! ## Segments -/

/-- What comes before the first separator belongs to the first segment. -/
theorem segments_append {c : Char} {s : List Char} (h : c ∉ s) (t : List Char) :
    segments c (s ++ t) = (s ++ (segments c t).headD []) :: (segments c t).tail := by
  induction s with
  | nil =>
    cases hsegments : segments c t with
    | nil => exact absurd hsegments (segments_ne_nil c t)
    | cons u us => exact hsegments
  | cons d s ih =>
    rw [List.mem_cons, not_or] at h
    rw [List.cons_append, segments, if_neg (Ne.symm h.1), ih h.2]
    rfl

/-- A text without a separator is one segment. -/
theorem segments_of_not_mem {c : Char} {s : List Char} (h : c ∉ s) : segments c s = [s] := by
  have hsegments := segments_append h []
  simpa [segments] using hsegments

/-- A separator parts the segments before it from those after it. -/
theorem segments_append_cons (c : Char) (s t : List Char) :
    segments c (s ++ c :: t) = segments c s ++ segments c t := by
  induction s with
  | nil => simp [segments]
  | cons d s ih =>
    cases hsegments : segments c s with
    | nil => exact absurd hsegments (segments_ne_nil c s)
    | cons u us =>
      by_cases hd : d = c
      · simp [segments, hd, ih]
      · simp [segments, hd, ih, hsegments]

/-- Where separators come of separators alone, and stay, a text is changed segment by segment. -/
theorem segments_flatMap {c : Char} {f : Char → List Char} (hsep : f c = [c])
    (hother : ∀ d, c ∈ f d → d = c) (s : List Char) :
    segments c (s.flatMap f) = (segments c s).map (List.flatMap f) := by
  induction s with
  | nil => rfl
  | cons d s ih =>
    rw [List.flatMap_cons, segments]
    split
    · next heq =>
      rw [heq, hsep, List.singleton_append, segments, if_pos rfl, ih]
      rfl
    · next hne =>
      rw [segments_append fun hmem => hne (hother d hmem), ih]
      cases hsegments : segments c s with
      | nil => exact absurd hsegments (segments_ne_nil c s)
      | cons u us => rfl

end MailRules.Text
