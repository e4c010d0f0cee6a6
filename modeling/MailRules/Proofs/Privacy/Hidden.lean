import MailRules.Proofs.Privacy.Address
import MailRules.Proofs.Privacy.Mask
import MailRules.Proofs.Text.Blank
import MailRules.Proofs.Text.Lowered

set_option autoImplicit false

/-!
# The hidden part of an address

Behind a character that is neither local nor an `@` masking begins anew (`maskFrom_break`), so an
address that the text before does not run on into is masked by itself. Local parts that begin alike
(`Lookalikes`) then come out alike, whatever is hidden of them (`mask_lookalikes`).
-/

namespace MailRules.Privacy

/-- No local part runs on from the end of a text: it is empty, or its last character is neither an
`@` nor local. -/
def EndsApart (s : List Char) : Prop :=
  ∀ c ∈ s.getLast?, c ≠ '@' ∧ isLocal c = false

instance (s : List Char) : Decidable (EndsApart s) :=
  decidable_of_iff (s.getLast?.all (fun c => c ≠ '@' && !isLocal c) = true)
    (by simp [EndsApart, Option.all_eq_true])

/-- Two local parts between the same texts, with the same first two characters: the text before does
not run on into them, and a domain follows their `@`. -/
structure Lookalikes (u l l' v : List Char) : Prop where
  apart : EndsApart u
  nonempty : l ≠ []
  nonempty' : l' ≠ []
  user : ∀ c ∈ l, isLocal c = true
  user' : ∀ c ∈ l', isLocal c = true
  shown : l.take 2 = l'.take 2
  host : v.head?.any isHost = true

instance (u l l' v : List Char) : Decidable (Lookalikes u l l' v) :=
  decidable_of_iff
    (EndsApart u ∧ l ≠ [] ∧ l' ≠ [] ∧ l.all isLocal = true ∧ l'.all isLocal = true ∧
      l.take 2 = l'.take 2 ∧ v.head?.any isHost = true)
    (by simp only [List.all_eq_true]
        exact ⟨fun ⟨h₁, h₂, h₃, h₄, h₅, h₆, h₇⟩ => ⟨h₁, h₂, h₃, h₄, h₅, h₆, h₇⟩,
          fun h => ⟨h.apart, h.nonempty, h.nonempty', h.user, h.user', h.shown, h.host⟩⟩)

/-- A text with an address in it: a local part and an `@` between two texts. -/
def withAddress (before user after : String) : String :=
  before ++ user ++ "@" ++ after

theorem toList_withAddress (u l v : String) :
    (withAddress u l v).toList = u.toList ++ (l.toList ++ '@' :: v.toList) := by
  simp [withAddress, String.toList_append]

/-! ## Masking a text in parts -/

theorem not_isHost_of_not_isLocal {c : Char} (h : isLocal c = false) : isHost c = false := by
  rw [← Bool.not_eq_true] at h ⊢
  exact mt isLocal_of_isHost h

/-- Behind a character that is neither local nor an `@` masking begins anew. -/
theorem maskFrom_break {c : Char} (hat : c ≠ '@') (hc : isLocal c = false) (place : Place)
    (s t : List Char) :
    maskFrom place (s ++ c :: t) = maskFrom place (s ++ [c]) ++ maskFrom (.after []) t := by
  induction s generalizing place with
  | nil =>
    cases place with
    | after p => simp [maskFrom, hc, hat]
    | host => simp [maskFrom, hc, not_isHost_of_not_isLocal hc]
  | cons d s ih =>
    -- what comes next in the text is the same in both
    have hhead : (s ++ c :: t).head? = (s ++ [c]).head? := by cases s <;> rfl
    rw [List.cons_append, List.cons_append]
    cases place with
    | after p =>
      rw [maskFrom, maskFrom, hhead]
      split
      · exact ih _
      split
      · rw [ih]
        simp only [List.append_assoc, List.cons_append]
      · rw [ih]
        simp only [List.append_assoc, List.cons_append]
    | host =>
      rw [maskFrom, maskFrom]
      split
      · rw [ih]
        rfl
      split
      · exact ih _
      · rw [ih]
        rfl

/-- What stands apart from the text before it is masked by itself. -/
theorem EndsApart.maskFrom_append {s : List Char} (h : EndsApart s) (t : List Char) :
    maskFrom (.after []) (s ++ t) = maskFrom (.after []) s ++ maskFrom (.after []) t := by
  rcases List.eq_nil_or_concat s with rfl | ⟨s, c, rfl⟩
  · rfl
  · rw [List.concat_eq_append] at h ⊢
    obtain ⟨hat, hc⟩ := h c (by simp)
    rw [List.append_assoc, List.singleton_append, maskFrom_break hat hc]

/-- Local characters wait for an `@`. -/
theorem maskFrom_locals {l : List Char} (hl : ∀ c ∈ l, isLocal c = true) (p s : List Char) :
    maskFrom (.after p) (l ++ s) = maskFrom (.after (l.reverse ++ p)) s := by
  induction l generalizing p with
  | nil => rfl
  | cons c l ih =>
    obtain ⟨hc, hrest⟩ := List.forall_mem_cons.mp hl
    rw [List.cons_append, maskFrom, if_pos hc, ih hrest, List.reverse_cons, List.append_assoc]
    rfl

/-- Of an address the beginning of the local part and the domain are left. -/
theorem maskFrom_address {l v : List Char} (hne : l ≠ []) (hl : ∀ c ∈ l, isLocal c = true)
    (hv : v.head?.any isHost = true) :
    maskFrom (.after []) (l ++ '@' :: v) = l.take 2 ++ marker ++ '@' :: maskFrom .host v := by
  rw [maskFrom_locals hl, maskFrom, if_neg (by decide), if_pos (by simp [hne, hv]),
    List.append_nil, List.reverse_reverse]

/-- Lookalikes come out alike. -/
theorem Lookalikes.maskChars_eq {u l l' v : List Char} (h : Lookalikes u l l' v) :
    maskChars (u ++ (l ++ '@' :: v)) = maskChars (u ++ (l' ++ '@' :: v)) := by
  unfold maskChars
  rw [h.apart.maskFrom_append, h.apart.maskFrom_append, maskFrom_address h.nonempty h.user h.host,
    maskFrom_address h.nonempty' h.user' h.host, h.shown]

/-- Masking shows nothing of a local part but its beginning. -/
theorem mask_lookalikes {u l l' v : String}
    (h : Lookalikes u.toList l.toList l'.toList v.toList) :
    mask (withAddress u l v) = mask (withAddress u l' v) := by
  unfold mask Text.mapText
  rw [toList_withAddress, toList_withAddress, h.maskChars_eq]

/-! ## Trimming -/

theorem not_isLocal_of_isBlank {c : Char} (h : Text.isBlank c = true) : isLocal c = false :=
  Text.blank_forall (p := fun c => isLocal c = false) (by decide +kernel) h

theorem isBlank_of_isLocal {c : Char} (h : isLocal c = true) : Text.isBlank c = false := by
  rw [← Bool.not_eq_true]
  intro hblank
  rw [not_isLocal_of_isBlank hblank] at h
  cases h

theorem EndsApart.stripStart {s : List Char} (h : EndsApart s) (p : Char → Bool) :
    EndsApart (Text.stripStart p s) := by
  intro c hc
  obtain ⟨before, hbefore⟩ := List.dropWhile_suffix (l := s) p
  refine h c ?_
  rw [← hbefore, List.getLast?_append, show (s.dropWhile p).getLast? = some c from hc]
  rfl

/-- Trimming leaves the address in a text alone. -/
theorem trim_address {l : List Char} (hne : l ≠ []) (hl : ∀ c ∈ l, isLocal c = true) {d : Char}
    (hd : isHost d = true) (u v : List Char) :
    Text.trim (u ++ (l ++ '@' :: d :: v)) =
      Text.stripStart Text.isBlank u ++ (l ++ '@' :: d :: Text.stripEnd Text.isBlank v) := by
  obtain ⟨c, l, rfl⟩ := List.exists_cons_of_ne_nil hne
  have hc : Text.isBlank c = false := isBlank_of_isLocal (hl c List.mem_cons_self)
  have htrim := Text.trim_around hc (isBlank_of_isLocal (isLocal_of_isHost hd)) u (l ++ ['@']) v
  simpa only [List.append_assoc, List.cons_append, List.nil_append] using htrim

/-- Lookalikes stay such when the blanks around them are trimmed. -/
theorem Lookalikes.trim {u l l' v : List Char} (h : Lookalikes u l l' v) :
    ∃ u' v', Lookalikes u' l l' v' ∧
      Text.trim (u ++ (l ++ '@' :: v)) = u' ++ (l ++ '@' :: v') ∧
      Text.trim (u ++ (l' ++ '@' :: v)) = u' ++ (l' ++ '@' :: v') := by
  obtain ⟨d, v, rfl⟩ : ∃ d r, v = d :: r := by
    cases v with
    | nil => exact absurd h.host (by simp)
    | cons d r => exact ⟨d, r, rfl⟩
  have hd : isHost d = true := h.host
  exact ⟨Text.stripStart Text.isBlank u, d :: Text.stripEnd Text.isBlank v,
    { h with apart := h.apart.stripStart _, host := hd },
    trim_address h.nonempty h.user hd u v, trim_address h.nonempty' h.user' hd u v⟩

end MailRules.Privacy
