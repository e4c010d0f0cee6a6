import Mathlib.Data.List.Basic
import MailRules.Thread.Verdict

set_option autoImplicit false

/-!
# Laws of verdicts

A rule has its say in a verdict by itself (`Fires`): what it says depends on the subject and on
nothing else in the list. So a verdict is that of the parts of a list taken together, in any order,
and rules of the other action may come and go (`verdicts_local`). The order of the list decides only
which rule is the first to fire.
-/

namespace MailRules

open Text

variable {a : RuleAction} {s : Subject} {r : Rule} {rules more : List Rule}

/-! ## Single rules -/

/-- A rule fires on a subject for an action: it is a rule of that action, it fits, and if it has an
exception that is not empty, the exception is not in the title. -/
structure Fires (a : RuleAction) (s : Subject) (r : Rule) : Prop where
  action : r.draft.action = a
  fits : r.fits s = true
  unexcepted : ∀ e, r.draft.exception = some e → e ≠ "" → includes s.title e = false

theorem Rule.excepts_eq_false_iff :
    r.excepts s = false ↔
      ∀ e, r.draft.exception = some e → e ≠ "" → includes s.title e = false := by
  unfold Rule.excepts
  cases r.draft.exception with
  | none => simp
  | some e => simp

theorem fires_iff :
    Fires a s r ↔ (decide (r.draft.action = a) && r.applies s) = true := by
  simp only [Rule.applies, Bool.and_eq_true, Bool.not_eq_true', decide_eq_true_eq,
    Rule.excepts_eq_false_iff]
  constructor
  · intro h
    exact ⟨h.action, h.fits, h.unexcepted⟩
  · rintro ⟨haction, hfits, hunexcepted⟩
    exact ⟨haction, hfits, hunexcepted⟩

instance (a : RuleAction) (s : Subject) (r : Rule) : Decidable (Fires a s r) :=
  decidable_of_iff _ fires_iff.symm

/-! ## The first rule that fires -/

theorem firstApplying_eq_find? (a : RuleAction) (rules : List Rule) (s : Subject) :
    firstApplying a rules s = rules.find? (Fires a s) := by
  unfold firstApplying
  congr 1
  funext r
  rw [← Bool.coe_iff_coe, decide_eq_true_iff, fires_iff]

theorem firstApplying_isSome_iff :
    (firstApplying a rules s).isSome = true ↔ ∃ r ∈ rules, Fires a s r := by
  simp only [firstApplying_eq_find?, List.find?_isSome, decide_eq_true_eq]

/-- The rule that is reported is the earliest that fires. -/
theorem firstApplying_eq_some_iff :
    firstApplying a rules s = some r ↔
      ∃ before after, rules = before ++ r :: after ∧ Fires a s r ∧ ∀ q ∈ before, ¬ Fires a s q := by
  simp only [firstApplying_eq_find?, List.find?_eq_some_iff_append, decide_eq_true_eq,
    Bool.not_eq_true', decide_eq_false_iff_not]
  constructor
  · rintro ⟨hr, before, after, rfl, hbefore⟩
    exact ⟨before, after, rfl, hr, hbefore⟩
  · rintro ⟨before, after, rfl, hr, hbefore⟩
    exact ⟨hr, before, after, rfl, hbefore⟩

theorem firstApplying_append (a : RuleAction) (rules more : List Rule) (s : Subject) :
    firstApplying a (rules ++ more) s =
      (firstApplying a rules s).or (firstApplying a more s) := by
  simp only [firstApplying, List.find?_append]

/-- Only the rules of the action are looked at. -/
theorem firstApplying_filter (a : RuleAction) (rules : List Rule) (s : Subject) :
    firstApplying a (rules.filter (·.draft.action = a)) s = firstApplying a rules s := by
  simp only [firstApplying, List.find?_filter]
  congr 1
  funext r
  simp

theorem suppressed_append (rules more : List Rule) (s : Subject) :
    suppressed (rules ++ more) s = (suppressed rules s || suppressed more s) := by
  simp only [suppressed, firstApplying_append, Option.isSome_or]

theorem suppressed_filter (rules : List Rule) :
    suppressed (rules.filter (·.draft.action = .suppress)) = suppressed rules := by
  funext s
  simp only [suppressed, firstApplying_filter]

/-! ## Verdicts -/

/-- A verdict about subjects lets the rules of an action speak one by one. -/
structure Local (a : RuleAction) (verdict : List Rule → Subject → Bool) : Prop where
  /-- The verdict of two lists is that of one or the other. -/
  append (s : Subject) (rules more : List Rule) :
    verdict (rules ++ more) s = (verdict rules s || verdict more s)
  /-- The verdict is that there is a first rule to report. -/
  reported (s : Subject) (rules : List Rule) :
    verdict rules s = true ↔ ∃ r, firstApplying a rules s = some r
  /-- The rule that is reported is the earliest that fires. -/
  earliest (s : Subject) (rules : List Rule) (r : Rule) :
    firstApplying a rules s = some r ↔
      ∃ before after, rules = before ++ r :: after ∧ Fires a s r ∧ ∀ q ∈ before, ¬ Fires a s q
  /-- The order of the rules does not matter. -/
  perm (s : Subject) (rules others : List Rule) :
    rules.Perm others → verdict rules s = verdict others s
  /-- Rules of another action may be put in or taken out anywhere, and neither the verdict nor the
  rule that is reported changes. -/
  foreign (s : Subject) (rules others : List Rule) :
    rules.filter (·.draft.action = a) = others.filter (·.draft.action = a) →
      verdict rules s = verdict others s ∧ firstApplying a rules s = firstApplying a others s
  /-- More rules, put in anywhere, do not take a verdict back. -/
  more (s : Subject) (rules others : List Rule) :
    rules.Sublist others → verdict rules s = true → verdict others s = true

/-- That some rule fires is a verdict of this kind. -/
theorem Local.of_firstApplying (a : RuleAction) :
    Local a fun rules s => (firstApplying a rules s).isSome where
  append s rules more := by
    simp only [firstApplying_append, Option.isSome_or]
  reported s rules := Option.isSome_iff_exists
  earliest s rules r := firstApplying_eq_some_iff
  perm s rules others h := by
    rw [← Bool.coe_iff_coe, firstApplying_isSome_iff, firstApplying_isSome_iff]
    simp only [h.mem_iff]
  foreign s rules others h := by
    have hfirst : firstApplying a rules s = firstApplying a others s := by
      rw [← firstApplying_filter, h, firstApplying_filter]
    exact ⟨by simp only [hfirst], hfirst⟩
  more s rules others h hverdict := by
    rw [firstApplying_isSome_iff] at hverdict ⊢
    obtain ⟨r, hr, hfires⟩ := hverdict
    exact ⟨r, h.subset hr, hfires⟩

/-- Both verdicts let the rules of their action speak one by one: no rule has a say in what another
one decides, and the rules of the other action have no say at all. -/
theorem verdicts_local : Local .suppress suppressed ∧ Local .vip prioritised :=
  ⟨.of_firstApplying .suppress, .of_firstApplying .vip⟩

/-- The exception of the first rule does not keep the second one from firing. -/
example :
    (firstApplying .suppress
      [{ id := "1", draft :=
          { kind := .domain, pattern := "x.y", action := .suppress, exception := some "urgent" } },
        { id := "2", draft := { kind := .topic, pattern := "sale", action := .vip } },
        { id := "3", draft := { kind := .email, pattern := "a@x.y", action := .suppress } }]
      ⟨"A", "a@x.y", "urgent sale"⟩).map Rule.id = some "3" := by
  decide +kernel

end MailRules
