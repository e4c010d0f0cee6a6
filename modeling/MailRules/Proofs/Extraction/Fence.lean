import MailRules.Extraction.Output
import MailRules.Proofs.Json.Depth
import MailRules.Proofs.Text.Blank
import MailRules.Proofs.Text.Join

set_option autoImplicit false

/-!
# Fences

A fence around a JSON text makes no difference to what is read of it (`read_fenced`), whatever is
said on its first line, however it is closed, and whatever blanks are around the whole.

A closing fence is looked for on the last line, and accents are taken away at the end. Neither may
touch the text itself: its accents all stand in strings, so that on the line of each of them there
is a quote before it, and a quote comes after it (`Shelters`).
-/

namespace MailRules.Output

open Text

/-! ## Accents in a JSON text -/

/-- Whether a character is neither blank nor a grave accent. -/
def isSolid (c : Char) : Bool :=
  !isBlank c && c ≠ grave

/-- Each grave accent of a text comes after something solid on its line, and before something
solid. -/
def Shelters (s : List Char) : Prop :=
  ∀ u v, s = u ++ grave :: v →
    (∃ a d b, u = a ++ d :: b ∧ isSolid d = true ∧ '\n' ∉ b) ∧ ∃ d ∈ v, isSolid d = true

/-- Accents stand in strings only, and a string is on one line with its quotes. -/
theorem tokens_shelters {s : List Char} (h : Json.Tokens s) : Shelters s := by
  have hquote : isSolid '"' = true := by decide
  induction h with
  | nil =>
    intro u v heq
    simp at heq
  | @plain c s hc _ ih =>
    intro u v heq
    cases u with
    | nil =>
      rw [List.nil_append, List.cons.injEq] at heq
      rw [heq.1] at hc
      exact absurd hc (by decide)
    | cons d u =>
      rw [List.cons_append, List.cons.injEq] at heq
      obtain ⟨⟨a, e, b, hu, he⟩, hafter⟩ := ih u v heq.2
      exact ⟨⟨d :: a, e, b, by rw [hu]; rfl, he⟩, hafter⟩
  | @quoted t s ht _ ih =>
    intro u v heq
    cases u with
    | nil =>
      rw [List.nil_append, List.cons.injEq] at heq
      exact absurd heq.1 (by decide)
    | cons q u =>
      rw [List.cons_append, List.cons.injEq] at heq
      obtain ⟨rfl, heq⟩ := heq
      rcases List.append_eq_append_iff.mp heq with ⟨w, rfl, hw⟩ | ⟨w, rfl, hw⟩
      · -- the accent comes after the string
        cases w with
        | nil =>
          rw [List.nil_append, List.cons.injEq] at hw
          exact absurd hw.1 (by decide)
        | cons e w =>
          rw [List.cons_append, List.cons.injEq] at hw
          obtain ⟨⟨a, d, b, rfl, hd⟩, hafter⟩ := ih w v hw.2
          exact ⟨⟨'"' :: (t ++ e :: a), d, b, by simp, hd⟩, hafter⟩
      · -- the accent is in the string
        cases w with
        | nil =>
          rw [List.nil_append, List.cons.injEq] at hw
          exact absurd hw.1 (by decide)
        | cons e w =>
          rw [List.cons_append, List.cons.injEq] at hw
          obtain ⟨rfl, rfl⟩ := hw
          have hline : '\n' ∉ u := fun hmem => ht (List.mem_append_left _ hmem)
          exact ⟨⟨[], '"', u, rfl, hquote, hline⟩, '"', by simp, hquote⟩

namespace Shelters

variable {s : List Char}

theorem of_append_blank {after : List Char} (h : Shelters (s ++ after))
    (hafter : ∀ c ∈ after, isBlank c = true) : Shelters s := by
  intro u v heq
  obtain ⟨hbefore, d, hd, hsolid⟩ := h u (v ++ after) (by rw [heq]; simp)
  refine ⟨hbefore, d, ?_, hsolid⟩
  rcases List.mem_append.mp hd with hd | hd
  · exact hd
  · simp [isSolid, hafter d hd] at hsolid

/-- Such a text does not end with an accent. -/
theorem stripEnd_eq (h : Shelters s) : stripEnd (· = grave) s = s := by
  refine stripEnd_of_last fun c hc => ?_
  obtain ⟨u, rfl⟩ := List.getLast?_eq_some_iff.mp hc
  by_contra hgrave
  obtain rfl : c = grave := by simpa using hgrave
  obtain ⟨-, d, hd, -⟩ := h u [] rfl
  cases hd

/-- The first thing that is not blank on a later line is no accent. -/
theorem head_of_line {front last : List Char} (h : Shelters (front ++ '\n' :: last)) :
    (stripStart isBlank last).head? ≠ some grave := by
  intro hhead
  obtain ⟨v, hv⟩ := List.head?_eq_some_iff.mp hhead
  have hlast : last = last.takeWhile isBlank ++ grave :: v := by
    rw [← hv, stripStart, List.takeWhile_append_dropWhile]
  have hline : front ++ '\n' :: last =
      (front ++ ['\n'] ++ last.takeWhile isBlank) ++ grave :: v := by
    rw [List.append_assoc, List.append_assoc, ← hlast]
    rfl
  obtain ⟨⟨a, d, b, hsplit, hd, hb⟩, -⟩ := h _ v hline
  have hunblank : isBlank d = false := by
    rw [isSolid, Bool.and_eq_true] at hd
    simpa using hd.1
  have hblank : d ∉ last.takeWhile isBlank := by
    intro hmem
    rw [List.mem_takeWhile_imp hmem] at hunblank
    cases hunblank
  rcases List.append_eq_append_iff.mp hsplit with ⟨w, -, hw⟩ | ⟨w, hw, hrest⟩
  · exact hblank (by rw [hw]; simp)
  · -- what is solid would have to come before the line
    rcases List.eq_nil_or_concat w with rfl | ⟨w, e, rfl⟩
    · rw [List.nil_append] at hrest
      exact hblank (by rw [← hrest]; simp)
    · rw [List.concat_eq_append, ← List.append_assoc] at hw
      obtain rfl : '\n' = e := List.singleton_inj.mp (List.append_inj' hw rfl).2
      have hmem : '\n' ∈ d :: b := by
        rw [hrest]
        simp
      rcases List.mem_cons.mp hmem with rfl | hmem
      · exact absurd hunblank (by decide)
      · exact hb hmem

/-- The first thing that is not blank is no accent. -/
theorem head (h : Shelters s) : (stripStart isBlank s).head? ≠ some grave := by
  intro hhead
  obtain ⟨v, hv⟩ := List.head?_eq_some_iff.mp hhead
  have hs : s = s.takeWhile isBlank ++ grave :: v := by
    rw [← hv, stripStart, List.takeWhile_append_dropWhile]
  obtain ⟨⟨a, d, b, hsplit, hd, -⟩, -⟩ := h _ v hs
  have hmem : d ∈ s.takeWhile isBlank := by
    rw [hsplit]
    simp
  simp [isSolid, List.mem_takeWhile_imp hmem] at hd

end Shelters

/-- A text that begins with a fence begins with an accent. -/
theorem head_trim_of_fence {s : List Char} (h : fence.isPrefixOf (trim s) = true) :
    (stripStart isBlank s).head? = some grave := by
  obtain ⟨r, hr⟩ := List.isPrefixOf_iff_prefix.mp h
  obtain ⟨t, ht⟩ := stripEnd_isPrefix (p := isBlank) (stripStart isBlank s)
  rw [trim, strip] at hr
  rw [← ht, ← hr]
  rfl

/-! ## Taking a fence away -/

section

variable {opening : List Char}

theorem withoutFence_oneLine (hfence : fence <+: opening) (hopening : '\n' ∉ opening)
    {rest : List Char} (hrest : '\n' ∉ rest) :
    withoutFence (opening ++ '\n' :: rest) = stripEnd (· = grave) rest := by
  have hbegins : fence.isPrefixOf (opening ++ '\n' :: rest) = true :=
    List.isPrefixOf_iff_prefix.mpr (hfence.trans (List.prefix_append _ _))
  simp [withoutFence, hbegins, segments_append_cons, segments_of_not_mem hopening,
    segments_of_not_mem hrest, unlines, join]

theorem withoutFence_lines (hfence : fence <+: opening) (hopening : '\n' ∉ opening)
    (front : List Char) {last : List Char} (hlast : '\n' ∉ last) :
    withoutFence (opening ++ '\n' :: (front ++ '\n' :: last)) =
      if fence.isPrefixOf (trim last) then front
      else stripEnd (· = grave) (front ++ '\n' :: last) := by
  have hbegins : fence.isPrefixOf (opening ++ '\n' :: (front ++ '\n' :: last)) = true :=
    List.isPrefixOf_iff_prefix.mpr (hfence.trans (List.prefix_append _ _))
  have hrest : segments '\n' (front ++ '\n' :: last) = segments '\n' front ++ [last] := by
    rw [segments_append_cons, segments_of_not_mem hlast]
  have hlines : segments '\n' (opening ++ '\n' :: (front ++ '\n' :: last)) =
      opening :: (segments '\n' front ++ [last]) := by
    rw [segments_append_cons, segments_of_not_mem hopening, hrest]
    rfl
  have hmany : 2 < (opening :: (segments '\n' front ++ [last])).length := by
    have hpos := List.length_pos_iff.mpr (segments_ne_nil '\n' front)
    simp only [List.length_cons, List.length_append, List.length_nil]
    omega
  have hjoined : unlines (segments '\n' front ++ [last]) = front ++ '\n' :: last := by
    rw [← hrest]
    exact join_segments '\n' _
  have hends : (opening :: (segments '\n' front ++ [last])).getLast? = some last := by
    rw [← List.cons_append, List.getLast?_concat]
  have hbetween : unlines (segments '\n' front ++ [last]).dropLast = front := by
    rw [List.dropLast_concat]
    exact join_segments '\n' front
  simp only [withoutFence, hbegins, hlines, hmany, hends, List.tail_cons, hbetween, hjoined,
    Bool.not_true, Bool.false_eq_true, if_false, decide_true, Bool.true_and, Option.getD_some]

/-- A text that has a line feed has a last line. -/
theorem exists_lastLine {s : List Char} (h : '\n' ∈ s) :
    ∃ front last, s = front ++ '\n' :: last ∧ '\n' ∉ last := by
  obtain ⟨last, front, heq, hlast⟩ := List.eq_append_cons_of_mem (List.mem_reverse.mpr h)
  refine ⟨front.reverse, last.reverse, ?_, by simpa using hlast⟩
  have hreverse := congrArg List.reverse heq
  simpa using hreverse

/-- Accents right behind the text go, or none have to. -/
theorem trim_withoutFence (hfence : fence <+: opening) (hopening : '\n' ∉ opening)
    {s accents : List Char} (hs : Shelters s) (haccents : ∀ c ∈ accents, c = grave) :
    trim (withoutFence (opening ++ '\n' :: (s ++ accents))) = trim s := by
  have hnone : '\n' ∉ accents := fun hmem => absurd (haccents _ hmem) (by decide)
  have hstrip : stripEnd (· = grave) (s ++ accents) = s := by
    rw [stripEnd_append fun c hc => by simp [haccents c hc], hs.stripEnd_eq]
  by_cases hline : '\n' ∈ s
  · obtain ⟨front, last, rfl, hlast⟩ := exists_lastLine hline
    have hrest : '\n' ∉ last ++ accents := by simp [hlast, hnone]
    have hassoc : front ++ '\n' :: last ++ accents = front ++ '\n' :: (last ++ accents) := by simp
    rw [hassoc] at hstrip ⊢
    rw [withoutFence_lines hfence hopening front hrest, hstrip]
    split
    · next hclosed =>
      -- the last line of the text itself is blank then
      have hblank : ∀ c ∈ last, isBlank c = true := by
        by_contra hsome
        push Not at hsome
        obtain ⟨c, hc, hunblank⟩ := hsome
        have hhead := head_trim_of_fence hclosed
        have hne : stripStart isBlank last ≠ [] := by
          intro hnil
          exact hunblank (List.dropWhile_eq_nil_iff.mp hnil c hc)
        rw [stripStart_append hc (by simpa using hunblank),
          List.head?_append_of_ne_nil _ hne] at hhead
        exact hs.head_of_line hhead
      have hafter : ∀ c ∈ '\n' :: last, isBlank c = true :=
        List.forall_mem_cons.mpr ⟨by decide, hblank⟩
      exact (trim_append_blank front hafter).symm
    · rfl
  · have hrest : '\n' ∉ s ++ accents := by simp [hline, hnone]
    rw [withoutFence_oneLine hfence hopening hrest, hstrip]

end

/-! ## Texts in fences -/

/-- How a fence is closed: on a line of its own, right behind the text, or not at all. -/
inductive Closing
  | ownLine
  | behind
  | missing
  deriving Repr, DecidableEq

/-- What closes a fence. -/
def Closing.text : Closing → List Char
  | ownLine => '\n' :: fence
  | behind => fence
  | missing => []

/-- A text in a fence that has something on its first line. -/
def fenced (info text : String) (closing : Closing) : String :=
  String.ofList (fence ++ info.toList ++ '\n' :: (text.toList ++ closing.text))

/-- What begins and ends with an accent has no blanks at its ends. -/
theorem trim_fence_append (between : List Char) : trim (fence ++ between ++ fence) =
    fence ++ between ++ fence := by
  refine IsTrimmed.trim_eq ⟨fun c hc => ?_, fun c hc => ?_⟩
  · cases hc
    decide
  · rw [List.getLast?_append_of_ne_nil _ (by decide)] at hc
    cases hc
    decide

theorem trim_fence (rest : List Char) : trim (fence ++ rest) = fence ++ stripEnd isBlank rest := by
  have hgrave : isBlank grave = false := by decide
  have hstart : stripStart isBlank (fence ++ rest) = fence ++ rest := rfl
  rw [trim, strip, hstart]
  simp [fence, stripEnd_cons hgrave]

/-- Blanks after what is in an open fence go as they would without it. -/
theorem trim_open (info : List Char) {s : List Char} {c : Char} (hmem : c ∈ s)
    (hc : isBlank c = false) :
    trim (fence ++ info ++ '\n' :: s) = fence ++ info ++ '\n' :: stripEnd isBlank s := by
  obtain ⟨p, q, rfl⟩ := List.append_of_mem hmem
  have hassoc : info ++ '\n' :: (p ++ c :: q) = (info ++ '\n' :: p) ++ c :: q := by simp
  rw [List.append_assoc, trim_fence, hassoc, stripEnd_append_cons _ hc, stripEnd_append_cons _ hc]
  simp

/-- A fence is taken away together with the blanks around it. -/
theorem trim_withoutFence_trim {info s : List Char} (hinfo : '\n' ∉ info) (hs : Shelters s)
    (closing : Closing) :
    trim (withoutFence (trim (fence ++ info ++ '\n' :: (s ++ closing.text)))) = trim s := by
  have hfence : fence <+: fence ++ info := List.prefix_append _ _
  have hopening : '\n' ∉ fence ++ info := by
    rw [List.mem_append, not_or]
    exact ⟨by decide, hinfo⟩
  have haccents : ∀ c ∈ fence, c = grave := by simp [fence]
  cases closing with
  | ownLine =>
    have hends : fence ++ info ++ '\n' :: (s ++ '\n' :: fence) =
        fence ++ (info ++ '\n' :: (s ++ ['\n'])) ++ fence := by simp
    simp only [Closing.text]
    rw [hends, trim_fence_append, ← hends,
      withoutFence_lines hfence hopening s (by decide), if_pos (by decide)]
  | behind =>
    have hends : fence ++ info ++ '\n' :: (s ++ fence) =
        fence ++ (info ++ '\n' :: s) ++ fence := by simp
    simp only [Closing.text]
    rw [hends, trim_fence_append, ← hends, trim_withoutFence hfence hopening hs haccents]
  | missing =>
    simp only [Closing.text, List.append_nil]
    by_cases hblank : ∀ c ∈ s, isBlank c = true
    · -- nothing is left of the text, nor of the line feed before it
      have hnil := trim_of_blank hblank
      have hall : ∀ c ∈ '\n' :: s, isBlank c = true :=
        List.forall_mem_cons.mpr ⟨by decide, hblank⟩
      have hline : '\n' ∉ trim (fence ++ info) := fun hmem =>
        hopening ((trim_sublist _).mem hmem)
      have hbegins : fence.isPrefixOf (trim (fence ++ info)) = true := by
        rw [trim_fence]
        exact List.isPrefixOf_iff_prefix.mpr (List.prefix_append _ _)
      have htrim : trim (fence ++ info ++ '\n' :: s) = trim (fence ++ info) :=
        trim_append_blank (fence ++ info) hall
      rw [htrim, hnil]
      simp [withoutFence, hbegins, segments_of_not_mem hline, unlines, join]
    · push Not at hblank
      obtain ⟨c, hmem, hc⟩ := hblank
      obtain ⟨after, hsplit, hafter⟩ := stripEnd_split isBlank s
      have hkept : Shelters (stripEnd isBlank s) := by
        rw [hsplit] at hs
        exact hs.of_append_blank hafter
      have hsame : trim (stripEnd isBlank s) = trim s := by
        conv_rhs => rw [hsplit]
        exact (trim_append_blank _ hafter).symm
      rw [trim_open info hmem (by simpa using hc), ← hsame]
      have hnone := trim_withoutFence hfence hopening hkept (List.forall_mem_nil _)
      rwa [List.append_nil] at hnone

/-- A text whose accents are sheltered is in no fence itself. -/
theorem withoutFence_trim {s : List Char} (hs : Shelters s) : withoutFence (trim s) = trim s := by
  unfold withoutFence
  split
  · rfl
  · next hbegins =>
    refine absurd (head_trim_of_fence ?_) hs.head
    simpa using hbegins

/-- A JSON text in a fence is the same answer as the text alone. -/
theorem read_fenced {text info before after : String} {v : Json}
    (htext : Json.read text = .ok v) (hinfo : '\n' ∉ info.toList)
    (hbefore : isBlankText before = true) (hafter : isBlankText after = true)
    (closing : Closing) :
    read (.text (before ++ fenced info text closing ++ after)) = read (.text text) := by
  have hshelters := tokens_shelters (Json.read_tokens htext)
  have hbody : body (before ++ fenced info text closing ++ after) = body text := by
    have hblank {s : String} (h : isBlankText s = true) : ∀ c ∈ s.toList, isBlank c = true := by
      simpa [isBlankText] using h
    simp only [body, mapText, fenced, String.toList_append, String.toList_ofList]
    rw [trim_between (hblank hbefore) _ (hblank hafter), trim_withoutFence_trim hinfo hshelters,
      withoutFence_trim hshelters, trim_trim]
  simp only [read, decode, hbody]

/-- An answer on three lines, with accents of its own. -/
def someAnswer : String :=
  "\x7b\"type\": \"TOPIC\",\r\n \"pattern\": \"a ```b\", \"action\": \"VIP\",\n\"notes\": \"```\"\x7d"

/-- The accents of the answer stay, those behind it go. -/
theorem read_fenced_accents :
    Json.read someAnswer = .ok (.object [("type", .str "TOPIC"), ("pattern", .str "a ```b"),
        ("action", .str "VIP"), ("notes", .str "```")]) ∧
      read (.text (" \n" ++ fenced "json `" someAnswer .behind ++ "\u00a0")) =
        read (.text someAnswer) ∧
      read (.text someAnswer) = .ok ⟨.topic, "a ```b", .vip, none, some "```", none⟩ := by
  have htext : Json.read someAnswer = .ok (.object [("type", .str "TOPIC"),
      ("pattern", .str "a ```b"), ("action", .str "VIP"), ("notes", .str "```")]) := rfl
  exact ⟨htext, read_fenced htext (by decide) (by decide) (by decide) .behind, rfl⟩

end MailRules.Output
