import Mathlib.Data.List.Basic
import MailRules.Privacy.Mask
import MailRules.Text.Segment

set_option autoImplicit false

/-!
# Masking a text with one `@`

In a text with one `@` masking looks at the characters around it (`IsSeen`). If they are such as
addresses have for it, what comes out does not have the text in it, since the marker stands right
before the `@`; if not, the text comes out as it was (`infix_maskChars_iff`).
-/

namespace MailRules.Privacy

/-- Whether masking sees an address in two texts around an `@`: the first one ends with a local
character, and the second begins with a domain character. -/
def IsSeen (user host : List Char) : Bool :=
  user.getLast?.any isLocal && host.head?.any isHost

theorem getLast?_append_cons {before s : List Char} (c : Char) (h : s ≠ []) :
    (before ++ c :: s).getLast? = s.getLast? := by
  obtain ⟨d, s, rfl⟩ := List.exists_cons_of_ne_nil h
  rw [List.getLast?_append, List.getLast?_cons_cons, List.getLast?_eq_some_getLast h,
    Option.some_or]

/-- Without an `@` nothing is masked. -/
theorem maskFrom_of_no_at {s : List Char} (h : '@' ∉ s) :
    (∀ p, maskFrom (.after p) s = p.reverse ++ s) ∧ maskFrom .host s = s := by
  induction s with
  | nil => exact ⟨fun p => by simp [maskFrom], rfl⟩
  | cons c s ih =>
    have hc : c ≠ '@' := (List.ne_of_not_mem_cons h).symm
    obtain ⟨hafter, hhost⟩ := ih (List.not_mem_of_not_mem_cons h)
    constructor
    · intro p
      rw [maskFrom]
      split
      · simp [hafter]
      · simp [hafter, hc]
    · rw [maskFrom]
      split
      · rw [hhost]
      · split <;> simp [hafter]

variable {user host p : List Char}

/-- Where masking sees an address, a marker comes before the `@`. Local characters are pending. -/
theorem maskFrom_seen (hhost : '@' ∉ host) (hhead : host.head?.any isHost = true)
    (huser : '@' ∉ user) (hp : ∀ c ∈ p, isLocal c = true)
    (hlast : (p.reverse ++ user).getLast?.any isLocal = true) :
    ∃ v, '@' ∉ v ∧
      maskFrom (.after p) (user ++ '@' :: host) = v ++ marker ++ '@' :: host := by
  have hpending : ∀ q : List Char, (∀ c ∈ q, isLocal c = true) → '@' ∉ q := by
    intro q hq hmem
    exact absurd (hq '@' hmem) (by decide)
  induction user generalizing p with
  | nil =>
    have hne : p.isEmpty = false := by
      cases p with
      | nil => cases hlast
      | cons c p => rfl
    refine ⟨p.reverse.take 2, fun hmem => ?_, ?_⟩
    · exact hpending p hp (List.mem_reverse.mp (List.mem_of_mem_take hmem))
    · rw [List.nil_append, maskFrom, if_neg (by decide), if_pos (by simp [hne, hhead]),
        (maskFrom_of_no_at hhost).2]
  | cons c user ih =>
    have hat : c ≠ '@' := (List.ne_of_not_mem_cons huser).symm
    have huser : '@' ∉ user := List.not_mem_of_not_mem_cons huser
    rw [List.cons_append, maskFrom]
    split
    · next hc =>
      refine ih huser (List.forall_mem_cons.mpr ⟨hc, hp⟩) ?_
      rwa [List.reverse_cons, List.append_assoc]
    · next hc =>
      rw [if_neg (by simp [hat])]
      -- a character that is not local is not the last one, and nothing is pending after it
      have hne : user ≠ [] := by
        rintro rfl
        simp [hc] at hlast
      rw [getLast?_append_cons c hne] at hlast
      obtain ⟨v, hv, heq⟩ := ih (p := []) huser (by simp) hlast
      refine ⟨p.reverse ++ c :: v, ?_, by rw [heq]; simp⟩
      simp only [List.mem_append, List.mem_reverse, List.mem_cons, not_or]
      exact ⟨hpending p hp, hat.symm, hv⟩

/-- Where masking sees no address, the text stays as it is. -/
theorem maskFrom_unseen (hhost : '@' ∉ host) (huser : '@' ∉ user)
    (hunseen : IsSeen (p.reverse ++ user) host = false) (hp : ∀ c ∈ p, isLocal c = true) :
    maskFrom (.after p) (user ++ '@' :: host) = p.reverse ++ user ++ '@' :: host := by
  induction user generalizing p with
  | nil =>
    have hmatch : (!p.isEmpty && host.head?.any isHost) = false := by
      cases p with
      | nil => rfl
      | cons c p =>
        have hc : isLocal c = true := hp c List.mem_cons_self
        simpa [IsSeen, hc] using hunseen
    rw [List.nil_append, maskFrom, if_neg (by decide), if_neg (by simpa using hmatch),
      (maskFrom_of_no_at hhost).1]
    simp
  | cons c user ih =>
    have hat : c ≠ '@' := (List.ne_of_not_mem_cons huser).symm
    have huser : '@' ∉ user := List.not_mem_of_not_mem_cons huser
    rw [List.cons_append, maskFrom]
    split
    · next hc =>
      have hunseen' : IsSeen ((c :: p).reverse ++ user) host = false := by
        rwa [List.reverse_cons, List.append_assoc]
      rw [ih huser hunseen' (List.forall_mem_cons.mpr ⟨hc, hp⟩)]
      simp
    · next hc =>
      rw [if_neg (by simp [hat])]
      have hunseen' : IsSeen user host = false := by
        by_cases hne : user = []
        · rw [hne]
          rfl
        · rwa [IsSeen, getLast?_append_cons c hne] at hunseen
      rw [ih (p := []) huser hunseen' (by simp)]
      simp

/-- The text does not come out with a marker before the `@`. -/
theorem not_infix_marked {v : List Char} (hv : '@' ∉ v) (hhost : '@' ∉ host)
    (hlast : user.getLast?.any isLocal = true) :
    ¬user ++ '@' :: host <:+: v ++ marker ++ '@' :: host := by
  rintro ⟨before, after, heq⟩
  have hmarked : '@' ∉ v ++ marker := by
    simp only [List.mem_append, not_or]
    exact ⟨hv, by decide⟩
  have heq : v ++ marker ++ '@' :: host = (before ++ user) ++ '@' :: (host ++ after) := by
    rw [← heq]
    simp
  obtain ⟨hbefore, -⟩ := (List.append_cons_inj_of_notMem hmarked hhost).mp heq
  have hstar : (before ++ user).getLast? = some '*' := by
    rw [← hbefore, List.getLast?_append]
    rfl
  obtain ⟨c, hc, hlocal⟩ := (Option.any_eq_true _ _).mp hlast
  rw [List.getLast?_append, hc, Option.some_or] at hstar
  cases hstar
  exact absurd hlocal (by decide)

/-- A text with one `@` is in what masking makes of it just if masking sees no address in it. -/
theorem infix_maskChars_iff (huser : '@' ∉ user) (hhost : '@' ∉ host) :
    user ++ '@' :: host <:+: maskChars (user ++ '@' :: host) ↔ IsSeen user host = false := by
  constructor
  · intro hshown
    rw [← Bool.not_eq_true]
    intro hseen
    obtain ⟨hlast, hhead⟩ := Bool.and_eq_true_iff.mp hseen
    obtain ⟨v, hv, heq⟩ := maskFrom_seen (p := []) hhost hhead huser (by simp) hlast
    rw [maskChars, heq] at hshown
    exact not_infix_marked hv hhost hlast hshown
  · intro hunseen
    rw [maskChars, maskFrom_unseen (p := []) hhost huser hunseen (by simp)]
    exact List.infix_refl _

end MailRules.Privacy
