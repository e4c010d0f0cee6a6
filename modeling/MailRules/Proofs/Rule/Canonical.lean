import Mathlib.Data.List.TakeWhile
import MailRules.Proofs.Rule.Record
import MailRules.Proofs.Text.Blank
import MailRules.Proofs.Text.Lowered
import MailRules.Rule.Canonical

set_option autoImplicit false

/-!
# Canonical form once more

Exceptions and notes in canonical form are in canonical form already when it is applied again
(`exception_exception`, `notes_notes`), and so are patterns, with one exception: only ASCII blanks
are taken from the start of a domain after an `@`, so that the canonical form of a domain can begin
with another blank, which a second pass takes away (`pattern_pattern_iff`). Which domains these are
can be seen from the text that was given (`canonical_again`).
-/

namespace MailRules

namespace Canonical

open Text

/-- Whether a text begins with a blank. -/
def beginsBlank (s : String) : Bool :=
  s.toList.head?.any isBlank

/-- Lowercasing a trimmed text leaves it trimmed. -/
theorem isTrimmed_lower {s : List Char} (h : IsTrimmed s) : IsTrimmed (lower s) := by
  refine ⟨fun d hd => ?_, fun d hd => ?_⟩
  · obtain ⟨c, hc, hblank, -⟩ := head?_lower hd
    rw [hblank, h.head c hc]
  · obtain ⟨c, hc, hblank⟩ := getLast?_lowerAfter hd
    rw [hblank, h.last c hc]

/-- Text that is trimmed and in lower case. -/
theorem lower_trim_lower_trim (s : List Char) : lower (trim (lower (trim s))) = lower (trim s) := by
  rw [(isTrimmed_lower (isTrimmed_trim s)).trim_eq, lower_lower]

/-- Everything but `@` that may stand before a domain is blank. -/
theorem isBlank_of_isDomainLead {c : Char} (h : isDomainLead c = true) :
    c = '@' ∨ isBlank c = true := by
  simp only [isDomainLead, Bool.or_eq_true, decide_eq_true_eq] at h
  rcases h with (((((rfl | rfl) | rfl) | rfl) | rfl) | rfl) | rfl
  · exact Or.inl rfl
  all_goals exact Or.inr (by decide)

/-- Canonical characters are trimmed, unless they are those of a domain and begin with a blank. -/
theorem isTrimmed_patternChars {kind : RuleKind} {s : List Char}
    (h : kind = .domain → ∀ c, (patternChars kind s).head? = some c → isBlank c = false) :
    IsTrimmed (patternChars kind s) := by
  cases kind with
  | domain =>
    refine ⟨h rfl, fun d hd => ?_⟩
    obtain ⟨c, hc, hblank⟩ := getLast?_lowerAfter hd
    rw [hblank]
    -- what is left of a trimmed text ends as the text does
    obtain ⟨t, ht⟩ : stripStart isDomainLead (trim s) <:+ trim s := List.dropWhile_suffix _
    refine (isTrimmed_trim s).last c ?_
    rw [← ht, List.getLast?_append, hc, Option.some_or]
  | _ => exact isTrimmed_lower (isTrimmed_trim s)

/-- Canonical characters of a domain begin with nothing that is stripped, but for other blanks. -/
theorem stripStart_patternChars {s : List Char}
    (h : ∀ c, (patternChars .domain s).head? = some c → isBlank c = false) :
    stripStart isDomainLead (patternChars .domain s) = patternChars .domain s := by
  refine stripStart_of_head fun d hd => ?_
  obtain ⟨c, hc, -, hat⟩ := head?_lower hd
  -- an `@` at the start would have been stripped before lowercasing
  have hkept := head?_stripStart hc
  rw [← Bool.not_eq_true]
  intro hlead
  rcases isBlank_of_isDomainLead hlead with rfl | hblank
  · rw [hat rfl] at hkept
    cases hkept
  · rw [h d hd] at hblank
    cases hblank

/-- Canonical characters are left alone, unless they are those of a domain and begin with a
blank. -/
theorem patternChars_patternChars {kind : RuleKind} {s : List Char}
    (h : kind = .domain → ∀ c, (patternChars kind s).head? = some c → isBlank c = false) :
    patternChars kind (patternChars kind s) = patternChars kind s := by
  have htrimmed := isTrimmed_patternChars h
  cases kind with
  | domain =>
    calc patternChars .domain (patternChars .domain s)
        = lower (stripStart isDomainLead (trim (patternChars .domain s))) := rfl
      _ = lower (patternChars .domain s) := by
        rw [htrimmed.trim_eq, stripStart_patternChars (h rfl)]
      _ = patternChars .domain s := lower_lower _
  | _ => exact lower_trim_lower_trim s

theorem mapText_mapText {f : List Char → List Char} {s : String} (h : f (f s.toList) = f s.toList) :
    mapText f (mapText f s) = mapText f s := by
  rw [mapText, toList_mapText, h, mapText]

/-- What it says of the characters of a pattern that it begins with no blank. -/
theorem head_of_beginsBlank {kind : RuleKind} {p : String}
    (h : beginsBlank (pattern kind p) = false) (c : Char)
    (hc : (patternChars kind p.toList).head? = some c) : isBlank c = false := by
  rw [beginsBlank, pattern, toList_mapText, hc] at h
  exact h

/-- A pattern in canonical form is left alone, unless it is a domain that begins with a blank. -/
theorem pattern_pattern {kind : RuleKind} {p : String}
    (h : kind = .domain → beginsBlank (pattern kind p) = false) :
    pattern kind (pattern kind p) = pattern kind p :=
  mapText_mapText (patternChars_patternChars fun hkind => head_of_beginsBlank (h hkind))

/-- A domain that begins with a blank is not: the blank goes, and nothing comes in its place. -/
theorem patternChars_ne {s : List Char} {c : Char} (hc : (patternChars .domain s).head? = some c)
    (hblank : isBlank c = true) :
    patternChars .domain (patternChars .domain s) ≠ patternChars .domain s := by
  intro heq
  have hlow : ∀ d ∈ patternChars .domain s, IsLow d := fun d hd => isLow_of_mem_lowerAfter hd
  obtain ⟨r, hr⟩ := List.head?_eq_some_iff.mp hc
  rw [hr] at heq hlow
  have hsub : (stripStart isDomainLead (trim (c :: r))).Sublist (trim (c :: r)) :=
    List.dropWhile_sublist _
  -- what is left is in lower case already
  have hsame : patternChars .domain (c :: r) = stripStart isDomainLead (trim (c :: r)) :=
    lowerAfter_of_low (fun d hd => hlow d ((trim_sublist (c :: r)).subset (hsub.subset hd))) false
  have hlength := length_trim_lt (s := r) hblank
  have hle := hsub.length_le
  rw [← hsame, heq] at hle
  omega

/-- Bringing a pattern into canonical form twice is doing so once, unless it is a domain that begins
with a blank then. -/
theorem pattern_pattern_iff {kind : RuleKind} {p : String} :
    pattern kind (pattern kind p) = pattern kind p ↔
      (kind = .domain → beginsBlank (pattern kind p) = false) := by
  refine ⟨?_, pattern_pattern⟩
  rintro heq rfl
  rw [← Bool.not_eq_true]
  intro hbegins
  rw [beginsBlank, pattern, toList_mapText, Option.any_eq_true] at hbegins
  obtain ⟨c, hc, hblank⟩ := hbegins
  refine patternChars_ne hc hblank ?_
  have hchars := congrArg String.toList heq
  rwa [pattern, pattern, toList_mapText, toList_mapText] at hchars

/-! ## Texts that may be absent -/

/-- A trimmed text that is not empty is not blank. -/
theorem isBlankText_of_isTrimmed {s : String} (h : IsTrimmed s.toList) (hne : s ≠ "") :
    isBlankText s = false := by
  cases hs : s.toList with
  | nil => exact absurd (String.toList_eq_nil_iff.mp hs) hne
  | cons c cs =>
    have hc : isBlank c = false := h.head c (by rw [hs]; rfl)
    simp [isBlankText, hs, hc]

/-- A pattern in canonical form is not blank, unless it is a domain that begins with a blank. -/
theorem isBlankText_pattern {kind : RuleKind} {p : String} (hne : pattern kind p ≠ "")
    (h : kind = .domain → beginsBlank (pattern kind p) = false) :
    isBlankText (pattern kind p) = false := by
  refine isBlankText_of_isTrimmed ?_ hne
  rw [pattern, toList_mapText]
  exact isTrimmed_patternChars fun hkind => head_of_beginsBlank (h hkind)

variable {f : List Char → List Char}

/-- Bringing a text that may be absent into a form twice is doing so once if it is on characters. -/
theorem nonEmpty?_mapText (hf : ∀ s, f (f s) = f s) (e : Option String) :
    ((e.bind fun s => nonEmpty? (mapText f s)).bind fun s => nonEmpty? (mapText f s)) =
      e.bind fun s => nonEmpty? (mapText f s) := by
  cases e with
  | none => rfl
  | some s =>
    simp only [Option.bind_some, nonEmpty?]
    split
    · rfl
    · rename_i hne
      simp only [Option.bind_some, mapText_mapText (hf s.toList), if_neg hne]

theorem isBlankText_of_nonEmpty? (hf : ∀ s, IsTrimmed (f s)) {e : Option String} {s : String}
    (h : (e.bind fun s => nonEmpty? (mapText f s)) = some s) : isBlankText s = false := by
  cases e with
  | none => cases h
  | some t =>
    simp only [Option.bind_some, nonEmpty?] at h
    split at h
    · cases h
    · rename_i hne
      cases h
      exact isBlankText_of_isTrimmed (by rw [toList_mapText]; exact hf _) hne

@[simp] theorem exception_exception (e : Option String) : exception (exception e) = exception e :=
  nonEmpty?_mapText lower_trim_lower_trim e

@[simp] theorem notes_notes (n : Option String) : notes (notes n) = notes n :=
  nonEmpty?_mapText trim_trim n

theorem isBlankText_exception {e : Option String} {s : String} (h : exception e = some s) :
    isBlankText s = false :=
  isBlankText_of_nonEmpty? (fun s => isTrimmed_lower (isTrimmed_trim s)) h

/-- Something is left of a text that is not blank. -/
theorem mapText_lower_trim_ne {x : String} (h : isBlankText x = false) :
    mapText (fun cs => lower (trim cs)) x ≠ "" := by
  intro hempty
  have hlower := congrArg String.toList hempty
  rw [toList_mapText] at hlower
  have htrim : trim x.toList = [] := by
    by_contra hne
    exact lower_ne_nil hne hlower
  obtain ⟨before, after, hx, hbefore, hafter⟩ := trim_split x.toList
  rw [htrim, List.append_nil] at hx
  have hblank : isBlankText x = true := by
    rw [isBlankText, hx, List.all_append, Bool.and_eq_true]
    exact ⟨List.all_eq_true.mpr hbefore, List.all_eq_true.mpr hafter⟩
  rw [hblank] at h
  cases h

/-- What the exception of a rule comes to. -/
theorem exception_of_not_blank {x : String} (h : isBlankText x = false) :
    exception (some x) = some (mapText (fun cs => lower (trim cs)) x) := by
  simp only [exception, Option.bind_some, nonEmpty?,
    if_neg (mapText_lower_trim_ne h)]

theorem isBlankText_notes {n : Option String} {s : String} (h : notes n = some s) :
    isBlankText s = false :=
  isBlankText_of_nonEmpty? isTrimmed_trim h

/-! ## Domains that have to be brought into canonical form again -/

/-- What may stand before a domain, blanks at the ends of the text left out, is followed by a blank
of another sort. -/
def HidesBlank (p : String) : Prop :=
  ∃ lead b rest, trim p.toList = lead ++ b :: rest ∧ (∀ c ∈ lead, isDomainLead c = true) ∧
    isDomainLead b = false ∧ isBlank b = true

/-- A lowercased text begins with a blank just if the text does. -/
theorem any_head?_lower (s : List Char) : (lower s).head?.any isBlank = s.head?.any isBlank := by
  cases hhead : (lower s).head? with
  | none =>
    have hnil : s = [] := by
      by_contra hne
      exact lower_ne_nil hne (List.head?_eq_none_iff.mp hhead)
    rw [hnil]
    rfl
  | some d =>
    obtain ⟨c, hc, hblank, -⟩ := head?_lower hhead
    rw [hc, Option.any_some, Option.any_some, hblank]

/-- The canonical form of a domain begins with a blank just if the domain hides one. -/
theorem beginsBlank_pattern_iff {p : String} :
    beginsBlank (pattern .domain p) = true ↔ HidesBlank p := by
  rw [beginsBlank, pattern, toList_mapText, patternChars, any_head?_lower, Option.any_eq_true,
    stripStart]
  constructor
  · rintro ⟨b, hb, hblank⟩
    obtain ⟨rest, hrest⟩ := List.head?_eq_some_iff.mp hb
    refine ⟨(trim p.toList).takeWhile isDomainLead, b, rest, ?_,
      fun c hc => List.mem_takeWhile_imp hc, head?_stripStart hb, hblank⟩
    rw [← hrest, List.takeWhile_append_dropWhile]
  · rintro ⟨lead, b, rest, htrim, hlead, hb, hblank⟩
    refine ⟨b, ?_, hblank⟩
    rw [htrim, List.dropWhile_append_of_pos hlead, List.dropWhile_cons_of_neg (by simp [hb]),
      List.head?_cons]

/-- What is in canonical form is left alone when it is brought into canonical form again: all
exceptions, all notes, and all patterns but those of domains that hide a blank. -/
theorem canonical_again (kind : RuleKind) (p : String) (e n : Option String) :
    (pattern kind (pattern kind p) = pattern kind p ↔ ¬(kind = .domain ∧ HidesBlank p)) ∧
      exception (exception e) = exception e ∧ notes (notes n) = notes n := by
  refine ⟨?_, exception_exception e, notes_notes n⟩
  rw [pattern_pattern_iff]
  constructor
  · rintro h ⟨rfl, hhides⟩
    rw [← beginsBlank_pattern_iff, h rfl] at hhides
    cases hhides
  · rintro h rfl
    rw [← Bool.not_eq_true, beginsBlank_pattern_iff]
    exact fun hhides => h ⟨rfl, hhides⟩

/-- A no-break space after the `@` is taken away by the second pass only. -/
theorem hidden_blank_goes_later :
    pattern .domain "@\u00a0X.org" = "\u00a0x.org" ∧
      pattern .domain (pattern .domain "@\u00a0X.org") = "x.org" ∧
      pattern .domain (pattern .domain "@\u00a0X.org") ≠ pattern .domain "@\u00a0X.org" := by
  decide +kernel

end Canonical

end MailRules
