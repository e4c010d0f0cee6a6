import MailRules.Proofs.Text.Join

set_option autoImplicit false

/-!
# Words

Blanks divide a text into words that have nothing to do with each other (`words_append_blank`), so
that a stretch without blanks that stands between blanks is one of the words (`mem_words`). Blanks
at the ends of a text do not count (`words_trim`).

In the other direction, the words of a text can be told from each other: the first one stands behind
nothing but blanks (`words_eq_cons`), and what follows any number of them begins behind a blank
(`words_eq_append`). So words that are joined with a blank in between are the words of what they are
joined to (`words_join`).
-/

namespace MailRules.Text

@[simp] theorem words_nil : words [] = [] := rfl

theorem words_cons_blank {b : Char} (hb : isBlank b = true) (s : List Char) :
    words (b :: s) = words s := by
  rw [words.eq_def]
  exact if_pos hb

theorem words_singleton {c : Char} (hc : isBlank c = false) : words [c] = [[c]] := by
  rw [words.eq_def]
  exact if_neg (by simp [hc])

/-- A character that is not blank is a word of its own before a blank, and joins the word that
follows elsewhere. -/
theorem words_cons_cons {c : Char} (hc : isBlank c = false) (d : Char) (s : List Char) :
    words (c :: d :: s) =
      if isBlank d then [c] :: words (d :: s)
      else (c :: (words (d :: s)).headD []) :: (words (d :: s)).tail := by
  rw [words.eq_def]
  dsimp only
  rw [if_neg (by simp [hc])]
  cases words (d :: s) with
  | nil => simp
  | cons w ws => rfl

theorem words_cons_ne_nil {c : Char} (hc : isBlank c = false) (s : List Char) :
    words (c :: s) ≠ [] := by
  cases s with
  | nil => simp [words_singleton hc]
  | cons d s =>
    rw [words_cons_cons hc]
    split <;> simp

/-- Words on the two sides of a blank have nothing to do with each other. -/
theorem words_append_blank {b : Char} (hb : isBlank b = true) (s t : List Char) :
    words (s ++ b :: t) = words s ++ words t := by
  induction s with
  | nil => rw [List.nil_append, words_cons_blank hb, words_nil, List.nil_append]
  | cons c s ih =>
    cases hc : isBlank c with
    | true => rw [List.cons_append, words_cons_blank hc, words_cons_blank hc, ih]
    | false =>
      cases s with
      | nil =>
        rw [List.singleton_append, words_cons_cons hc, if_pos hb, words_singleton hc,
          words_cons_blank hb, List.singleton_append]
      | cons d s =>
        rw [List.cons_append] at ih
        rw [List.cons_append, List.cons_append, words_cons_cons hc, words_cons_cons hc, ih]
        cases hd : isBlank d with
        | true => rfl
        | false =>
          obtain ⟨w, ws, hwords⟩ := List.exists_cons_of_ne_nil (words_cons_ne_nil hd s)
          rw [hwords]
          rfl

theorem words_of_blank {s : List Char} (h : ∀ c ∈ s, isBlank c = true) : words s = [] := by
  induction s with
  | nil => rfl
  | cons c s ih =>
    obtain ⟨hc, hrest⟩ := List.forall_mem_cons.mp h
    rw [words_cons_blank hc, ih hrest]

theorem words_of_plain {s : List Char} (hne : s ≠ []) (h : ∀ c ∈ s, isBlank c = false) :
    words s = [s] := by
  induction s with
  | nil => exact absurd rfl hne
  | cons c s ih =>
    obtain ⟨hc, hrest⟩ := List.forall_mem_cons.mp h
    cases s with
    | nil => exact words_singleton hc
    | cons d s =>
      rw [words_cons_cons hc, if_neg (by simp [hrest d List.mem_cons_self]),
        ih (List.cons_ne_nil d s) hrest]
      rfl

theorem words_blank_append {s t : List Char} (h : ∀ c ∈ s, isBlank c = true) :
    words (s ++ t) = words t := by
  induction s with
  | nil => rfl
  | cons c s ih =>
    obtain ⟨hc, hrest⟩ := List.forall_mem_cons.mp h
    rw [List.cons_append, words_cons_blank hc, ih hrest]

theorem words_append_of_blank {s t : List Char} (h : ∀ c ∈ t, isBlank c = true) :
    words (s ++ t) = words s := by
  cases t with
  | nil => rw [List.append_nil]
  | cons b t =>
    obtain ⟨hb, hrest⟩ := List.forall_mem_cons.mp h
    rw [words_append_blank hb, words_of_blank hrest, List.append_nil]

/-- Blanks at the ends of a text do not count. -/
@[simp] theorem words_trim (s : List Char) : words (trim s) = words s := by
  obtain ⟨before, after, hs, hbefore, hafter⟩ := trim_split s
  rw [hs, words_append_of_blank hafter, words_blank_append hbefore, ← hs]

/-- Words on the two sides of a cut have nothing to do with each other if there is a blank beside
it. -/
theorem words_append {s t : List Char}
    (h : s.getLast?.all isBlank = true ∨ t.head?.all isBlank = true) :
    words (s ++ t) = words s ++ words t := by
  rcases h with hlast | hhead
  · rw [Option.all_eq_true] at hlast
    cases hs : s.getLast? with
    | none => rw [List.getLast?_eq_none_iff.mp hs, List.nil_append, words_nil, List.nil_append]
    | some b =>
      obtain ⟨start, rfl⟩ := List.getLast?_eq_some_iff.mp hs
      have hb : isBlank b = true := hlast b hs
      rw [List.append_assoc, List.singleton_append, words_append_blank hb, words_append_blank hb,
        words_nil, List.append_nil]
  · cases t with
    | nil => rw [words_nil, List.append_nil, List.append_nil]
    | cons b t =>
      have hb : isBlank b = true := hhead
      rw [words_append_blank hb, words_cons_blank hb]

/-- A stretch without blanks that stands between blanks, or at an end of the text, is a word. -/
theorem mem_words {before w after : List Char} (hne : w ≠ []) (hw : ∀ c ∈ w, isBlank c = false)
    (hbefore : ∀ c, before.getLast? = some c → isBlank c = true)
    (hafter : ∀ c, after.head? = some c → isBlank c = true) : w ∈ words (before ++ w ++ after) := by
  have hahead : w ∈ words (w ++ after) := by
    cases after with
    | nil => simp [words_of_plain hne hw]
    | cons b after => simp [words_append_blank (hafter b rfl), words_of_plain hne hw]
  rw [List.append_assoc]
  cases hlast : before.getLast? with
  | none => rwa [List.getLast?_eq_none_iff.mp hlast, List.nil_append]
  | some b =>
    obtain ⟨start, rfl⟩ := List.getLast?_eq_some_iff.mp hlast
    rw [List.append_assoc, List.singleton_append, words_append_blank (hbefore b hlast)]
    exact List.mem_append_right _ hahead

/-! ## Texts by their words -/

/-- A text up to its first blank. -/
theorem exists_unblank_prefix (s : List Char) :
    ∃ w rest, s = w ++ rest ∧ (∀ c ∈ w, isBlank c = false) ∧ rest.head?.all isBlank = true := by
  refine ⟨s.takeWhile fun c => !isBlank c, s.dropWhile fun c => !isBlank c,
    List.takeWhile_append_dropWhile.symm, fun c hc => ?_, ?_⟩
  · simpa using List.mem_takeWhile_imp hc
  · rw [Option.all_eq_true]
    intro c hc
    simpa using head?_stripStart hc

/-- A text from behind its last blank on. -/
theorem exists_unblank_suffix (s : List Char) :
    ∃ start w, s = start ++ w ∧ start.getLast?.all isBlank = true ∧ ∀ c ∈ w, isBlank c = false := by
  obtain ⟨w, hs, hw⟩ := stripEnd_split (fun c => !isBlank c) s
  refine ⟨_, w, hs, ?_, fun c hc => by simpa using hw c hc⟩
  rw [Option.all_eq_true]
  intro c hc
  simpa using getLast?_stripEnd hc

/-- The first word of a text stands behind nothing but blanks, and is followed by one if anything
follows. -/
theorem words_eq_cons {s w : List Char} {ws : List (List Char)} (h : words s = w :: ws) :
    (w ≠ [] ∧ ∀ c ∈ w, isBlank c = false) ∧
      ∃ before after, s = before ++ w ++ after ∧ (∀ c ∈ before, isBlank c = true) ∧
        after.head?.all isBlank = true ∧ words after = ws := by
  obtain ⟨before, t, rfl, hbefore, hfirst⟩ : ∃ before t, s = before ++ t ∧
      (∀ c ∈ before, isBlank c = true) ∧ ∀ c, t.head? = some c → isBlank c = false :=
    ⟨s.takeWhile isBlank, s.dropWhile isBlank, List.takeWhile_append_dropWhile.symm,
      fun c hc => List.mem_takeWhile_imp hc, fun c hc => head?_stripStart hc⟩
  obtain ⟨v, after, rfl, hv, hafter⟩ := exists_unblank_prefix t
  rw [words_blank_append hbefore, words_append (Or.inr hafter)] at h
  have hne : v ≠ [] := by
    rintro rfl
    -- what follows would begin with a blank and with none, so that there is nothing
    cases after with
    | nil => cases h
    | cons b after =>
      have hb : isBlank b = true := hafter
      rw [hfirst b rfl] at hb
      cases hb
  rw [words_of_plain hne hv, List.singleton_append, List.cons.injEq] at h
  obtain ⟨rfl, hrest⟩ := h
  exact ⟨⟨hne, hv⟩, before, after, by rw [List.append_assoc], hbefore, hafter, hrest⟩

/-- Words are not empty, and have no blanks. -/
theorem solid_of_mem_words {s w : List Char} (h : w ∈ words s) :
    w ≠ [] ∧ ∀ c ∈ w, isBlank c = false := by
  generalize hws : words s = ws at h
  induction ws generalizing s with
  | nil => cases h
  | cons v ws ih =>
    obtain ⟨hsolid, -, after, -, -, -, hafter⟩ := words_eq_cons hws
    rcases List.mem_cons.mp h with rfl | hmem
    · exact hsolid
    · exact ih hafter hmem

/-- A text without words is blank. -/
theorem blank_of_words_eq_nil {s : List Char} (h : words s = []) : ∀ c ∈ s, isBlank c = true := by
  induction s with
  | nil => simp
  | cons c s ih =>
    cases hc : isBlank c with
    | false => exact absurd h (words_cons_ne_nil hc s)
    | true =>
      rw [words_cons_blank hc] at h
      exact List.forall_mem_cons.mpr ⟨hc, ih h⟩

section Ends

variable {p q : Char → Bool} {o o' : Option Char}

theorem all_or (hqp : ∀ c, q c = true → p c = true) (ho : o.all p = true) (ho' : o'.all q = true) :
    (o.or o').all p = true := by
  cases o with
  | none =>
    rw [Option.all_eq_true] at ho'
    rw [Option.none_or, Option.all_eq_true]
    exact fun c hc => hqp c (ho' c hc)
  | some c => exact ho

theorem all_of_or (h : (o.or o').all p = true) : o.all p = true := by
  cases o with
  | none => rfl
  | some c => exact h

theorem getLast?_all_append {l r : List Char} (hl : l.getLast?.all p = true)
    (hr : r.getLast?.all p = true) : (l ++ r).getLast?.all p = true := by
  rw [List.getLast?_append]
  exact all_or (fun _ => id) hr hl

theorem getLast?_all_of_all {l : List Char} (h : ∀ c ∈ l, p c = true) :
    l.getLast?.all p = true := by
  rw [Option.all_eq_true]
  exact fun c hc => h c (List.mem_of_getLast? hc)

theorem getLast?_all_append_cons {b : Char} (l : List Char) {r : List Char} (hb : p b = true)
    (hr : r.getLast?.all p = true) : (l ++ b :: r).getLast?.all p = true := by
  rw [List.getLast?_append_of_ne_nil _ (List.cons_ne_nil b r)]
  exact getLast?_all_append (l := [b]) hb hr

end Ends

/-- What follows the first words of a text begins behind a blank. -/
theorem words_eq_append {s : List Char} {as bs : List (List Char)} (h : words s = as ++ bs)
    (hne : bs ≠ []) :
    ∃ before after, s = before ++ after ∧ before.getLast?.all isBlank = true ∧
      words after = bs := by
  induction as generalizing s with
  | nil => exact ⟨[], s, rfl, rfl, h⟩
  | cons a as ih =>
    obtain ⟨-, start, rest, rfl, -, hrest, hwords⟩ := words_eq_cons h
    obtain ⟨b, rest, rfl⟩ : ∃ b r, rest = b :: r := by
      refine List.exists_cons_of_ne_nil ?_
      rintro rfl
      exact hne (List.append_eq_nil_iff.mp hwords.symm).2
    have hb : isBlank b = true := hrest
    rw [words_cons_blank hb] at hwords
    obtain ⟨before, after, rfl, hbefore, hafter⟩ := ih hwords
    exact ⟨start ++ a ++ b :: before, after, by simp, getLast?_all_append_cons _ hb hbefore, hafter⟩

/-- Words that are joined with a blank in between can be told from each other. -/
theorem words_join {b : Char} (hb : isBlank b = true) {ws : List (List Char)}
    (h : ∀ w ∈ ws, w ≠ [] ∧ ∀ c ∈ w, isBlank c = false) : words (join [b] ws) = ws := by
  induction ws with
  | nil => rfl
  | cons w ws ih =>
    obtain ⟨⟨hne, hw⟩, hrest⟩ := List.forall_mem_cons.mp h
    by_cases hnil : ws = []
    · rw [hnil]
      exact words_of_plain hne hw
    · rw [join_cons_of_ne_nil [b] w hnil, List.append_assoc, List.singleton_append,
        words_append_blank hb, words_of_plain hne hw, ih hrest, List.singleton_append]

end MailRules.Text
