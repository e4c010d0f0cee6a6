import MailRules.Proofs.Json.Texts
import MailRules.Proofs.Text.Blank
import MailRules.Proofs.Text.Lower
import MailRules.Thread.Participants

set_option autoImplicit false

/-!
# The sender of a thread

Where the first participant of a thread names an address of two parts around an `@`, rules see that
address in lower case, and as its domain the second part in lower case by itself
(`subject_of_names`).
-/

namespace MailRules

open Text

/-- A part of an address: a text without an `@`, angle brackets and blanks. -/
structure IsPart (s : String) : Prop where
  nonempty : s ≠ ""
  plain : ∀ c ∈ s.toList, c ≠ '@' ∧ c ≠ '<' ∧ c ≠ '>' ∧ isBlank c = false

instance (s : String) : Decidable (IsPart s) :=
  decidable_of_iff
    (s ≠ "" ∧ (s.toList.all fun c => c ≠ '@' ∧ c ≠ '<' ∧ c ≠ '>' ∧ isBlank c = false) = true)
    (by simp only [List.all_eq_true, decide_eq_true_eq]
        exact ⟨fun h => ⟨h.1, h.2⟩, fun h => ⟨h.nonempty, h.plain⟩⟩)

/-- How a participant names an address: by itself, or in angle brackets after a name, with anything
behind. -/
inductive Names (address : String) : String → Prop
  | bare : Names address address
  | bracketed (name tail : String) (h : '<' ∉ name.toList) :
    Names address (name ++ "<" ++ address ++ ">" ++ tail)

/-- The address with two parts. -/
def addressOf (user domain : String) : String :=
  user ++ "@" ++ domain

namespace Sender

/-! ## Angle brackets -/

theorem bracketed?_address {s : List Char} (hs : ∀ c ∈ s, isBracketed c = true)
    (hat : s.tail.dropLast.contains '@' = true) (t : List Char) :
    bracketed? (s ++ '>' :: t) = some s := by
  have hdrop : (s ++ '>' :: t).dropWhile isBracketed = '>' :: t := by
    rw [List.dropWhile_append_of_pos hs]
    exact List.dropWhile_cons_of_neg (by decide)
  have htake : (s ++ '>' :: t).takeWhile isBracketed = s := by
    rw [List.takeWhile_append_of_pos hs, List.takeWhile_cons_of_neg (by decide), List.append_nil]
  unfold bracketed?
  rw [hdrop, htake]
  exact if_pos hat

/-- The first bracket is taken if an address follows. -/
theorem findBracketed_address {name s : List Char} (hname : '<' ∉ name)
    (hs : ∀ c ∈ s, isBracketed c = true) (hat : s.tail.dropLast.contains '@' = true)
    (t : List Char) : findBracketed (name ++ '<' :: (s ++ '>' :: t)) = some (name, s) := by
  induction name with
  | nil =>
    rw [List.nil_append, findBracketed, if_pos rfl, bracketed?_address hs hat]
  | cons c name ih =>
    obtain ⟨hc, hrest⟩ := not_or.mp (mt List.mem_cons.mpr hname)
    rw [List.cons_append, findBracketed, if_neg (Ne.symm hc), ih hrest]
    rfl

theorem findBracketed_none {s : List Char} (h : '<' ∉ s) : findBracketed s = none := by
  induction s with
  | nil => rfl
  | cons c s ih =>
    obtain ⟨hc, hrest⟩ := not_or.mp (mt List.mem_cons.mpr h)
    rw [findBracketed, if_neg (Ne.symm hc), ih hrest]
    rfl

end Sender

/-! ## Addresses of two parts -/

section

variable {l d : String}

theorem IsPart.toList_ne_nil (h : IsPart l) : l.toList ≠ [] := by
  intro hnil
  exact h.nonempty (String.toList_inj.mp hnil)

theorem IsPart.at_not_mem (h : IsPart l) : '@' ∉ l.toList :=
  fun hmem => (h.plain '@' hmem).1 rfl

theorem toList_addressOf (l d : String) : (addressOf l d).toList = l.toList ++ '@' :: d.toList := by
  simp [addressOf, String.toList_append]

/-- The characters of an address are neither blanks nor angle brackets. -/
theorem mem_address (hl : IsPart l) (hd : IsPart d) :
    ∀ c ∈ (addressOf l d).toList, c ≠ '<' ∧ c ≠ '>' ∧ isBlank c = false := by
  intro c hc
  rw [toList_addressOf, List.mem_append, List.mem_cons] at hc
  rcases hc with hc | rfl | hc
  · exact (hl.plain c hc).2
  · decide
  · exact (hd.plain c hc).2

/-- The `@` of an address is neither first nor last. -/
theorem at_inside (hl : IsPart l) (hd : IsPart d) :
    (addressOf l d).toList.tail.dropLast.contains '@' = true := by
  obtain ⟨c, s, hs⟩ := List.exists_cons_of_ne_nil hl.toList_ne_nil
  rw [toList_addressOf, hs, List.cons_append, List.tail_cons,
    List.dropLast_append_of_ne_nil (List.cons_ne_nil _ _),
    List.dropLast_cons_of_ne_nil hd.toList_ne_nil]
  simp

/-- The sender has the address that the first participant names. -/
theorem email_of_names (hl : IsPart l) (hd : IsPart d) {first : String}
    (hfirst : Names (addressOf l d) first) (others : List String) :
    (Sender.ofParticipants (.entries first others)).email = mapText lower (addressOf l d) := by
  have hmem := mem_address hl hd
  cases hfirst with
  | bare =>
    -- without a bracket the entry is the address, and there are no blanks to strip
    have hnone : Sender.findBracketed (addressOf l d).toList = none :=
      Sender.findBracketed_none fun h => (hmem _ h).1 rfl
    have htrim : trim (addressOf l d).toList = (addressOf l d).toList := by
      have hpad : trim ([] ++ (addressOf l d).toList ++ []) = (addressOf l d).toList :=
        trim_pad (by simp) (fun c hc => (hmem c hc).2.2) (by simp)
      rwa [List.nil_append, List.append_nil] at hpad
    simp only [Sender.ofParticipants, Sender.ofBracketed?, hnone, Option.map_none,
      Option.getD_none, Sender.ofEntry, htrim, mapText]
  | bracketed name tail hname =>
    have hbracketed : ∀ c ∈ (addressOf l d).toList, Sender.isBracketed c = true := by
      intro c hc
      obtain ⟨hopen, hclose, hblank⟩ := hmem c hc
      simp [Sender.isBracketed, hopen, hclose, hblank]
    have hfind := Sender.findBracketed_address hname hbracketed (at_inside hl hd) tail.toList
    have hlist : (name ++ "<" ++ addressOf l d ++ ">" ++ tail).toList =
        name.toList ++ '<' :: ((addressOf l d).toList ++ '>' :: tail.toList) := by
      simp [String.toList_append]
    simp only [Sender.ofParticipants, Sender.ofBracketed?, hlist, hfind, Option.map_some,
      Option.getD_some, mapText]

/-- The domain of an address is lowercased by itself. -/
theorem domain_of_email (hl : IsPart l) {s : Subject}
    (hs : s.email = mapText lower (addressOf l d)) : s.domain = mapText lower d := by
  have hlower : s.email.toList = lower l.toList ++ '@' :: lower d.toList := by
    rw [hs, toList_mapText, toList_addressOf, lower_at]
  have hbefore : ∀ c ∈ lower l.toList, (decide (c ≠ '@')) = true := by
    intro c hc
    refine decide_eq_true fun h => ?_
    exact hl.at_not_mem (at_mem_lower (h ▸ hc))
  -- no `@` arises in front of the one between the parts
  have hdrop : s.email.toList.dropWhile (· ≠ '@') = '@' :: lower d.toList := by
    rw [hlower, List.dropWhile_append_of_pos hbefore]
    exact List.dropWhile_cons_of_neg (by decide)
  unfold Subject.domain cutAt
  rw [hdrop]
  rfl

/-- A text that names an address is not blank. -/
theorem not_blank_of_names {first : String} (hfirst : Names (addressOf l d) first) :
    isBlankText first = false := by
  have hat : '@' ∈ first.toList := by
    cases hfirst with
    | bare => simp [toList_addressOf]
    | bracketed name tail hname => simp [toList_addressOf, String.toList_append]
  rw [← Bool.not_eq_true]
  intro hblank
  exact absurd (List.all_eq_true.mp hblank '@' hat) (by decide)

/-- An array of texts is decoded as such. -/
theorem decode_of_read {raw first : String} {others : List String}
    (hraw : Json.read raw = .ok (.array ((first :: others).map .str)))
    (hfirst : isBlankText first = false) :
    Participants.decode? (some raw) =
      some (.entries first (Participants.textsOf (others.map .str))) := by
  have hbracket := Json.bracket_mem_of_read hraw
  have hblank : isBlankText raw = false := by
    rw [← Bool.not_eq_true]
    intro hblank
    exact absurd (List.all_eq_true.mp hblank '[' hbracket) (by decide)
  rw [List.map_cons] at hraw
  simp only [Participants.decode?, hblank, hraw, hfirst, Bool.false_eq_true, if_false]

/-- What rules see of a thread whose first participant names an address. -/
theorem subject_of_names (hl : IsPart l) (hd : IsPart d) {raw first : String}
    (hfirst : Names (addressOf l d) first) {others : List String}
    (hraw : Json.read raw = .ok (.array ((first :: others).map .str))) (title : Option String) :
    ∃ s, Subject.of? (some raw) title = some s ∧ s.email = mapText lower (addressOf l d) ∧
      s.domain = mapText lower d ∧ s.title = mapText lower (title.getD "") := by
  have hdecode := decode_of_read hraw (not_blank_of_names hfirst)
  have hemail := email_of_names hl hd hfirst (Participants.textsOf (others.map .str))
  refine ⟨_, by rw [Subject.of?, hdecode, Option.map_some], hemail, ?_, rfl⟩
  exact domain_of_email hl hemail

end

end MailRules
