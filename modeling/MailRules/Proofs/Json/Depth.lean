import MailRules.Proofs.Json.Tokens

set_option autoImplicit false

/-!
# How deep texts nest

Every reading function passes tokens at the start of the text that it is given, so that an opening
bracket is passed only once. A text with no more opening brackets than the limit is therefore never
nested too deeply (`read_shallow`), whatever else is wrong with it. The two are proved together, one
lemma for each reading function (`Reads`); a text that is read is made up of tokens (`read_tokens`).

The bound cannot be improved: a text that begins with one bracket more is nested too deeply
(`read_brackets`).
-/

namespace MailRules.Json

/-- Whether an array or an object begins with the character. -/
def isOpening (c : Char) : Bool :=
  c = '[' || c = '\x7b'

/-- The number of opening brackets. -/
def openings (s : List Char) : Nat :=
  s.countP isOpening

theorem openings_le_of_suffix {s t : List Char} (h : s <:+ t) : openings s ≤ openings t :=
  h.sublist.countP_le

theorem openings_cons {c : Char} (hc : isOpening c = true) (s : List Char) :
    openings (c :: s) = openings s + 1 :=
  List.countP_cons_of_pos hc

theorem isPlain_of_isOpening {c : Char} (h : isOpening c = true) : isPlain c = true := by
  rw [isOpening, Bool.or_eq_true, decide_eq_true_eq, decide_eq_true_eq] at h
  rcases h with rfl | rfl <;> decide

/-- What reading a text comes to: tokens are passed, and the text is not nested too deeply if it has
no more opening brackets than the limit. -/
structure Reads {α : Type} (limit : Nat) (s : List Char) (o : Reading α) : Prop where
  rest : ∀ a r, o = .ok (a, r) → Leaves s r
  shallow : openings s ≤ limit → o ≠ .error .tooDeep

namespace Reads

variable {α β : Type} {limit : Nat} {s : List Char} {o : Reading α}

theorem ok (a : α) {r : List Char} (h : Leaves s r) : Reads limit s (.ok (a, r)) where
  rest _ _ heq := by
    cases heq
    exact h
  shallow := nofun

theorem malformed (p : Problem) (remaining : Nat) :
    Reads (α := α) limit s (.error (.malformed p remaining)) :=
  ⟨nofun, nofun⟩

/-- What has failed has failed for all that is made of it. -/
theorem error (h : Reads limit s o) {f : Fault} (hf : o = .error f) :
    Reads (α := β) limit s (.error f) where
  rest := nofun
  shallow hs heq := by
    cases heq
    exact h.shallow hs hf

theorem of_leaves {t : List Char} (h : Reads limit t o) (hst : Leaves s t) : Reads limit s o where
  rest a r heq := hst.trans (h.rest a r heq)
  shallow hs := h.shallow (Nat.le_trans (openings_le_of_suffix hst.suffix) hs)

/-- One more bracket is made up for by one more in the limit. -/
theorem enclosed {c : Char} (hc : isOpening c = true) (h : Reads limit s o) :
    Reads (limit + 1) (c :: s) o where
  rest a r heq := (Leaves.cons (isPlain_of_isOpening hc) s).trans (h.rest a r heq)
  shallow hs := by
    rw [openings_cons hc] at hs
    exact h.shallow (Nat.le_of_succ_le_succ hs)

/-- Nothing is promised of a bracket when none is allowed. -/
theorem tooDeep {c : Char} (hc : isOpening c = true) (s : List Char) :
    Reads (α := α) 0 (c :: s) (.error .tooDeep) where
  rest := nofun
  shallow hs := by
    rw [openings_cons hc] at hs
    omega

end Reads

/-! ## Scalars -/

/-- A string with the quote before it. -/
theorem readString_reads (limit : Nat) (whole s : List Char) :
    Reads limit ('"' :: s) (readString whole s) := by
  unfold readString
  split
  · next cs r hread => exact .ok _ (readChars_leaves hread)
  · exact .malformed _ _

/-- A string as a value. -/
theorem readText_reads (limit : Nat) (whole s : List Char) :
    Reads limit ('"' :: s) ((readString whole s).map fun p => (Json.str p.1, p.2)) := by
  have hread := readString_reads limit whole s
  rcases hstring : readString whole s with f | ⟨text, r⟩
  · exact hread.error hstring
  · exact .ok _ (hread.rest text r hstring)

theorem readNumber_reads (limit : Nat) (whole s : List Char) (negative : Bool) :
    Reads limit s (readNumber whole negative s) := by
  have hend (t : List Char) : Leaves t (takeExponent (takeFraction t).2).2 :=
    (takeFraction_leaves t).trans (takeExponent_leaves _)
  simp only [readNumber, problemAt]
  -- the digits are a zero alone, or as many as there are
  split
  · next r =>
    have hrest := (Leaves.cons (by decide : isPlain '0' = true) r).trans (hend r)
    split
    · exact .malformed _ _
    split
    · split
      · exact ⟨nofun, nofun⟩
      · exact .ok _ hrest
    · exact .ok _ hrest
  · have hrest := (takeDigits_leaves rfl).trans (hend (takeDigits s).2)
    split
    · exact .malformed _ _
    split
    · split
      · exact ⟨nofun, nofun⟩
      · exact .ok _ hrest
    · exact .ok _ hrest

/-- A word is passed that is spelled with letters, apart from a sign. -/
theorem drop_leaves {s word : List Char} {v : Json}
    (h : literals.find? (fun l => l.1.isPrefixOf s) = some (word, v)) :
    Leaves s (s.drop word.length) := by
  have hliterals : (literals.all fun l => l.1.all isPlain) = true := rfl
  have hword := List.all_eq_true.mp hliterals _ (List.mem_of_find?_eq_some h)
  have hprefix : word <+: s := by simpa using List.find?_some h
  obtain ⟨r, rfl⟩ := hprefix
  rw [List.drop_left]
  exact .of_plain (List.all_eq_true.mp hword) r

theorem readScalar_reads (limit : Nat) (s : List Char) : Reads limit s (readScalar s) := by
  unfold readScalar
  split
  · next hfind => exact .ok _ (drop_leaves hfind)
  · split
    · exact (readNumber_reads limit _ _ _).of_leaves (.cons (by decide) _)
    · exact readNumber_reads limit _ _ _

/-! ## Arrays and objects -/

section

variable {value : List Char → Reading Json} {limit : Nat}

theorem readItems_reads (hvalue : ∀ s, Reads limit s (value s)) (fuel : Nat) (acc : List Json)
    (s : List Char) : Reads limit s (readItems value fuel acc s) := by
  induction fuel generalizing acc s with
  | zero => exact .malformed _ _
  | succ fuel ih =>
    unfold readItems
    split
    · next f hread => exact (hvalue s).error hread
    · next v t hread =>
      have ht := (hvalue s).rest v t hread
      split
      · next u hskip => exact .ok _ (next_leaves ht hskip (by decide))
      · next u hskip =>
        have hu := next_leaves ht hskip (by decide)
        exact (ih _ _).of_leaves (hu.trans (skipSpaces_leaves u))
      · exact .malformed _ _

theorem readArray_reads (hvalue : ∀ s, Reads limit s (value s)) (s : List Char) :
    Reads limit s (readArray value s) := by
  unfold readArray
  split
  · next t hskip => exact .ok _ (next_leaves (.refl s) hskip (by decide))
  · exact (readItems_reads hvalue _ _ _).of_leaves (skipSpaces_leaves s)

theorem readMembers_reads (hvalue : ∀ s, Reads limit s (value s)) (fuel : Nat)
    (acc : Members Json) (s : List Char) : Reads limit s (readMembers value fuel acc s) := by
  induction fuel generalizing acc s with
  | zero => exact .malformed _ _
  | succ fuel ih =>
    unfold readMembers
    split
    · next q =>
      have hname := readString_reads limit ('"' :: q) q
      split
      · next f hread => exact hname.error hread
      · next k t hread =>
        have ht := hname.rest k t hread
        split
        · next u hcolon =>
          have hu := next_leaves ht hcolon (by decide)
          have hmember := (hvalue (skipSpaces u)).of_leaves (hu.trans (skipSpaces_leaves u))
          split
          · next f hread => exact hmember.error hread
          · next v x hread =>
            have hx := hmember.rest v x hread
            split
            · next y hskip => exact .ok _ (next_leaves hx hskip (by decide))
            · next y hskip =>
              have hy := next_leaves hx hskip (by decide)
              exact (ih _ _).of_leaves (hy.trans (skipSpaces_leaves y))
            · exact .malformed _ _
        · exact .malformed _ _
    · exact .malformed _ _

theorem readObject_reads (hvalue : ∀ s, Reads limit s (value s)) (s : List Char) :
    Reads limit s (readObject value s) := by
  unfold readObject
  split
  · next t hskip => exact .ok _ (next_leaves (.refl s) hskip (by decide))
  · exact (readMembers_reads hvalue _ _ _).of_leaves (skipSpaces_leaves s)

end

/-- Whatever a text is, it takes as many opening brackets as the limit to reach it. -/
theorem readValue_reads (depth : Nat) (s : List Char) : Reads depth s (readValue depth s) := by
  induction depth generalizing s with
  | zero =>
    unfold readValue
    split
    · exact readText_reads _ _ _
    · exact .tooDeep rfl _
    · exact .tooDeep rfl _
    · exact readScalar_reads _ _
  | succ depth ih =>
    unfold readValue
    split
    · exact readText_reads _ _ _
    · exact (readArray_reads ih _).enclosed rfl
    · exact (readObject_reads ih _).enclosed rfl
    · exact readScalar_reads _ _

/-- A text with no more opening brackets than the limit is not nested too deeply. -/
theorem read_shallow {text : String} (h : openings text.toList ≤ depthLimit) :
    read text ≠ .error .tooDeep := by
  have hvalue := (readValue_reads depthLimit _).of_leaves (skipSpaces_leaves text.toList)
  unfold read readAll
  split
  · exact nofun
  · split
    · next f hread =>
      rintro ⟨⟩
      exact hvalue.shallow h hread
    · split <;> exact nofun

/-- A text that is read is made up of tokens. -/
theorem read_tokens {text : String} {v : Json} (h : read text = .ok v) : Tokens text.toList := by
  obtain ⟨-, r, hread, hnil⟩ := read_eq_ok.mp h
  have hvalue := (readValue_reads depthLimit _).of_leaves (skipSpaces_leaves text.toList)
  have hspaces := skipSpaces_leaves r
  rw [hnil] at hspaces
  exact ((hvalue.rest v r hread).trans hspaces).tokens

/-! ## Texts that begin with many brackets -/

theorem skipSpaces_bracket (s : List Char) : skipSpaces ('[' :: s) = '[' :: s :=
  List.dropWhile_cons_of_neg (by decide)

/-- An array fails as its first item does. -/
theorem readArray_of_error {value : List Char → Reading Json} {s : List Char} {f : Fault}
    (h : value ('[' :: s) = .error f) : readArray value ('[' :: s) = .error f := by
  unfold readArray
  rw [skipSpaces_bracket]
  change readItems value (('[' :: s).length + 1) [] ('[' :: s) = .error f
  rw [readItems, h]

theorem readValue_brackets {depth n : Nat} (h : depth < n) (t : List Char) :
    readValue depth (List.replicate n '[' ++ t) = .error .tooDeep := by
  induction depth generalizing n with
  | zero =>
    obtain ⟨m, rfl⟩ := Nat.exists_eq_add_of_lt h
    rw [Nat.zero_add, List.replicate_succ, List.cons_append, readValue]
  | succ depth ih =>
    obtain ⟨m, rfl⟩ : ∃ m, n = m + 2 := ⟨n - 2, by omega⟩
    have hrest := ih (n := m + 1) (by omega)
    rw [List.replicate_succ, List.cons_append] at hrest
    rw [List.replicate_succ, List.replicate_succ, List.cons_append, List.cons_append, readValue]
    exact readArray_of_error hrest

/-- A text that begins with more brackets than the limit is nested too deeply. -/
theorem read_brackets {n : Nat} (h : depthLimit < n) (t : List Char) :
    read (String.ofList (List.replicate n '[' ++ t)) = .error .tooDeep := by
  obtain ⟨m, rfl⟩ : ∃ m, n = m + 1 := ⟨n - 1, by omega⟩
  have hvalue := readValue_brackets h t
  rw [List.replicate_succ, List.cons_append] at hvalue ⊢
  unfold read readAll
  rw [String.toList_ofList, skipSpaces_bracket, hvalue]
  rfl

end MailRules.Json
