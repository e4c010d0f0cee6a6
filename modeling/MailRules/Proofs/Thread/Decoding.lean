import MailRules.Proofs.Json.Depth
import MailRules.Proofs.Thread.Sender

set_option autoImplicit false

/-!
# Participants of any form

Whatever is stored in place of participants, they are decoded and name a sender, unless the text
goes beyond the depth to which nesting is read; that takes many opening brackets
(`decoded_unless_deep`). A text that is neither an array nor has an address in angle brackets
(`Sender.HasBracketed`) is name and address at once.
-/

namespace MailRules

open Text

namespace Sender

/-! ## Addresses in angle brackets -/

/-- What may stand in angle brackets as an address: no blank and no bracket, and an `@` that is
neither first nor last. -/
structure IsAddress (a : List Char) : Prop where
  plain : ∀ c ∈ a, isBracketed c = true
  at_inside : a.tail.dropLast.contains '@' = true

/-- An address in angle brackets stands somewhere in a text. -/
def HasBracketed (s : List Char) : Prop :=
  ∃ before a after, IsAddress a ∧ s = before ++ '<' :: (a ++ '>' :: after)

theorem bracketed?_eq_some {s a : List Char} (h : bracketed? s = some a) :
    IsAddress a ∧ ∃ t, s = a ++ '>' :: t := by
  unfold bracketed? at h
  split at h
  · next t hdrop =>
    dsimp only at h
    split at h
    · next hat =>
      cases h
      refine ⟨⟨fun c hc => List.mem_takeWhile_imp hc, hat⟩, t, ?_⟩
      rw [← hdrop, List.takeWhile_append_dropWhile]
    · cases h
  · cases h

/-- No address is overlooked. -/
theorem findBracketed_eq_none_iff {s : List Char} :
    findBracketed s = none ↔ ¬HasBracketed s := by
  induction s with
  | nil =>
    refine iff_of_true rfl ?_
    rintro ⟨before, a, after, -, h⟩
    simp at h
  | cons c r ih =>
    rw [findBracketed]
    split
    · next a hfound =>
      refine iff_of_false (Option.some_ne_none _) (not_not_intro ?_)
      split at hfound
      · next hc =>
        obtain ⟨ha, t, rfl⟩ := bracketed?_eq_some hfound
        exact ⟨[], a, t, ha, by rw [hc, List.nil_append]⟩
      · cases hfound
    · next hhere =>
      rw [Option.map_eq_none_iff, ih, not_iff_not]
      constructor
      · rintro ⟨before, a, after, ha, rfl⟩
        exact ⟨c :: before, a, after, ha, rfl⟩
      · rintro ⟨before, a, after, ha, h⟩
        cases before with
        | nil =>
          -- there is no address behind this bracket
          cases h
          rw [if_pos rfl, bracketed?_address ha.plain ha.at_inside] at hhere
          cases hhere
        | cons d before =>
          cases h
          exact ⟨before, a, after, ha, rfl⟩

theorem HasBracketed.around {s : List Char} (h : HasBracketed s) (before after : List Char) :
    HasBracketed (before ++ s ++ after) := by
  obtain ⟨u, a, v, ha, rfl⟩ := h
  exact ⟨before ++ u, a, v ++ after, ha, by simp⟩

theorem not_hasBracketed_trim {s : List Char} (h : ¬HasBracketed s) : ¬HasBracketed (trim s) := by
  obtain ⟨before, after, hs, -, -⟩ := trim_split s
  rw [hs] at h
  exact fun htrim => h (htrim.around before after)

/-- A text without an address in angle brackets is name and address at once. -/
theorem ofParticipants_text {s : String} (h : ¬HasBracketed s.toList) :
    ofParticipants (.text s) = ofEntry s := by
  have hnone := findBracketed_eq_none_iff.mpr (not_hasBracketed_trim h)
  simp only [ofParticipants, ofBracketed?, hnone, Option.map_none, Option.getD_none]

end Sender

/-! ## Decoding -/

namespace Participants

/-- What is stored is a text that is nested beyond the depth to which it is read. -/
def IsDeep (raw : Option String) : Prop :=
  ∃ s, raw = some s ∧ isBlankText s = false ∧ Json.read s = .error .tooDeep

theorem decode?_eq_none_iff {raw : Option String} : decode? raw = none ↔ IsDeep raw := by
  constructor
  · intro h
    unfold decode? at h
    split at h
    · cases h
    · next s =>
      split at h
      · cases h
      · next hblank =>
        split at h
        · next hread => exact ⟨s, rfl, Bool.not_eq_true _ ▸ hblank, hread⟩
        · cases h
        · split at h <;> cases h
        · cases h
  · rintro ⟨s, rfl, hblank, hread⟩
    simp only [decode?, hblank, hread, Bool.false_eq_true, if_false]

/-- A text that is no array is kept as it is. -/
theorem decode?_text {s : String} (hdeep : ¬IsDeep (some s)) (hblank : isBlankText s = false)
    (harray : ∀ items, Json.read s ≠ .ok (.array items)) : decode? (some s) = some (.text s) := by
  simp only [decode?, hblank, Bool.false_eq_true, if_false]
  split
  · next hread => exact absurd ⟨s, rfl, hblank, hread⟩ hdeep
  · next hread => exact absurd hread (harray _)
  · next hread => exact absurd hread (harray _)
  · rfl

/-- It takes many brackets to go beyond the depth. -/
theorem IsDeep.openings {raw : Option String} (h : IsDeep raw) :
    ∃ s, raw = some s ∧ Json.depthLimit < Json.openings s.toList := by
  obtain ⟨s, rfl, -, hread⟩ := h
  refine ⟨s, rfl, ?_⟩
  by_contra hfew
  exact Json.read_shallow (Nat.le_of_not_lt hfew) hread

/-- Too many brackets at the start of a text go beyond the depth. -/
theorem isDeep_brackets {n : Nat} (h : Json.depthLimit < n) (t : List Char) :
    IsDeep (some (String.ofList (List.replicate n '[' ++ t))) := by
  refine ⟨_, rfl, ?_, Json.read_brackets h t⟩
  obtain ⟨m, rfl⟩ : ∃ m, n = m + 1 := ⟨n - 1, by omega⟩
  rw [isBlankText, String.toList_ofList, List.replicate_succ, List.cons_append, List.all_cons]
  rfl

end Participants

/-- Stored participants are decoded, and rules see a sender, unless the text is nested beyond the
depth to which it is read, for which it has to have more opening brackets than that. A text that is
no array and has no address in angle brackets is trimmed and taken for name and address. -/
theorem decoded_unless_deep (raw : Option String) :
    (Participants.decode? raw = none ↔ Participants.IsDeep raw) ∧
    (∀ title, Subject.of? raw title = none ↔ Participants.IsDeep raw) ∧
    (∀ s, raw = some s → Json.openings s.toList ≤ Json.depthLimit → ¬Participants.IsDeep raw) ∧
    ∀ s, raw = some s → ¬Participants.IsDeep raw → isBlankText s = false →
      (∀ items, Json.read s ≠ .ok (.array items)) → ¬Sender.HasBracketed s.toList →
      ∃ p, Participants.decode? raw = some p ∧
        Sender.ofParticipants p = ⟨mapText trim s, mapText (fun cs => lower (trim cs)) s⟩ ∧
        ∀ title, Subject.of? raw title = some ⟨mapText trim s,
          mapText (fun cs => lower (trim cs)) s, mapText lower (title.getD "")⟩ := by
  refine ⟨Participants.decode?_eq_none_iff, fun title => ?_, ?_, ?_⟩
  · rw [Subject.of?, Option.map_eq_none_iff, Participants.decode?_eq_none_iff]
  · rintro s rfl hfew hdeep
    obtain ⟨t, ht, hmany⟩ := hdeep.openings
    cases ht
    omega
  · rintro s rfl hdeep hblank harray hbracketed
    have hdecode := Participants.decode?_text hdeep hblank harray
    have hsender := Sender.ofParticipants_text hbracketed
    refine ⟨_, hdecode, hsender, fun title => ?_⟩
    rw [Subject.of?, hdecode, Option.map_some, hsender]
    rfl

/-- A name alone is no JSON. -/
theorem decoded_unless_deep_name :
    ∃ p, Participants.decode? (some " Ann B. ") = some p ∧
      Sender.ofParticipants p = ⟨"Ann B.", "ann b."⟩ := by
  obtain ⟨-, -, hshallow, htext⟩ := decoded_unless_deep (some " Ann B. ")
  have harray : ∀ items, Json.read " Ann B. " ≠ .ok (.array items) := by
    intro items hread
    exact absurd (Json.bracket_mem_of_read hread) (by decide +kernel)
  have hbracketed : ¬Sender.HasBracketed " Ann B. ".toList :=
    Sender.findBracketed_eq_none_iff.mp (by decide +kernel)
  obtain ⟨p, hdecode, hsender, -⟩ := htext _ rfl (hshallow _ rfl (by decide +kernel))
    (by decide +kernel) harray hbracketed
  exact ⟨p, hdecode, hsender.trans (by decide +kernel)⟩

/-! ## Nothing but brackets -/

/-- A text of opening brackets alone. -/
def brackets (n : Nat) : String :=
  String.ofList (List.replicate n '[')

theorem brackets_isDeep {n : Nat} (h : Json.depthLimit < n) :
    Participants.IsDeep (some (brackets n)) := by
  have hdeep := Participants.isDeep_brackets h []
  rwa [List.append_nil] at hdeep

theorem not_hasBracketed_brackets (n : Nat) : ¬Sender.HasBracketed (brackets n).toList := by
  refine Sender.findBracketed_eq_none_iff.mp (Sender.findBracketed_none ?_)
  rw [brackets, String.toList_ofList, List.mem_replicate]
  exact fun h => absurd h.2 (by decide)

/-- Nothing comes of too many brackets, though they are neither blank nor an array, and have no
address in angle brackets. -/
theorem brackets_undecoded {n : Nat} (h : Json.depthLimit < n) :
    isBlankText (brackets n) = false ∧ (∀ items, Json.read (brackets n) ≠ .ok (.array items)) ∧
      ¬Sender.HasBracketed (brackets n).toList ∧
      Participants.decode? (some (brackets n)) = none ∧
      ∀ title, Subject.of? (some (brackets n)) title = none := by
  obtain ⟨s, hs, hblank, hread⟩ := brackets_isDeep h
  cases hs
  have hdecode := Participants.decode?_eq_none_iff.mpr (brackets_isDeep h)
  refine ⟨hblank, ?_, not_hasBracketed_brackets n, hdecode, fun title => ?_⟩
  · rw [hread]
    exact nofun
  · rw [Subject.of?, hdecode, Option.map_none]

/-- One bracket more than arrays are read within one another. -/
theorem brackets_undecoded_many :
    isBlankText (brackets 991) = false ∧
      (∀ items, Json.read (brackets 991) ≠ .ok (.array items)) ∧
      ¬Sender.HasBracketed (brackets 991).toList ∧
      Participants.decode? (some (brackets 991)) = none ∧
      Subject.of? (some (brackets 991)) none = none := by
  obtain ⟨hblank, harray, hbracketed, hdecode, hsubject⟩ := brackets_undecoded (n := 991) (by decide)
  exact ⟨hblank, harray, hbracketed, hdecode, hsubject none⟩

end MailRules
