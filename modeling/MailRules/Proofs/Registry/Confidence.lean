import MailRules.Proofs.Instruction.WellFormed
import MailRules.Proofs.Registry.Listing

set_option autoImplicit false

/-!
# Confidences

Wherever a confidence comes from, a record or the answer of a language model, and in whatever form
it is given there, it is absent or a float from 0 to 1: the check that it passes lets no NaN through.
The store keeps NaN as nothing and a zero without its sign, so a rule that is created can be read
back with a confidence that is equal to the one it was given, as long as it is not deleted
(`confidence_in_unit`).
-/

namespace MailRules

/-- A confidence is absent, or a float from 0 to 1. -/
def InUnit (confidence : Option Number) : Prop :=
  confidence = none ∨ ∃ x : Float, confidence = some (.real x) ∧ 0.0 ≤ x ∧ x ≤ 1.0

/-- What passes the check is from 0 to 1. -/
theorem Record.checkUnit_range {x y : Float} (h : checkUnit x = .ok y) : 0.0 ≤ x ∧ x ≤ 1.0 := by
  unfold checkUnit at h
  split at h
  · cases h
  · next hone =>
    split at h
    · cases h
    · next hzero => exact ⟨by simpa using hzero, by simpa using hone⟩

theorem inUnit_of_checked {confidence : Option Number}
    (h : ∀ n, confidence = some n → ∃ x, n = .real x ∧ Record.checkUnit x = .ok x) :
    InUnit confidence := by
  cases confidence with
  | none => exact Or.inl rfl
  | some n =>
    obtain ⟨x, rfl, hx⟩ := h n rfl
    exact Or.inr ⟨x, rfl, Record.checkUnit_range hx⟩

namespace Registry

/-! ## Rules that are created -/

/-- The rules that are given back when they are created are well-formed. -/
theorem madeBy_wellFormed {g : Registry} (hg : g.store.Sound) {c : Change} {r : Rule}
    (h : r ∈ madeBy (.change c) (g.perform (.change c)).1) : r.draft.WellFormed := by
  rcases hmake : g.make c with ⟨f | reply, g'⟩
  · have hperform : (g.perform (.change c)).1 = .error f := congrArg Prod.fst hmake
    rw [hperform, (heldBy_error (.change c) f).1] at h
    cases h
  · have hperform : (g.perform (.change c)).1 = .ok reply := congrArg Prod.fst hmake
    rw [hperform] at h
    cases c with
    | create record actor =>
      obtain ⟨q, hcreate, rfl⟩ := replying_eq_ok hmake
      obtain rfl := List.mem_singleton.mp h
      exact wellFormed_of_canonicalOf (create_ok hg hcreate).1
    | createBatch records actor reason =>
      obtain ⟨rs, hcreate, rfl⟩ := replying_eq_ok hmake
      obtain ⟨items, ds, -, -, hitems, hdistinct⟩ := createBatch_ok hcreate
      have hdraft : r.draft ∈ ds := by
        refine (distinct_sublist [] ds).subset ?_
        rw [← (createDistinct_fields hg hdistinct).1]
        exact List.mem_map_of_mem h
      have hmem : Except.ok r.draft ∈ items.map canonicalOf := by
        rw [hitems]
        exact List.mem_map_of_mem hdraft
      obtain ⟨item, -, hitem⟩ := List.mem_map.mp hmem
      exact wellFormed_of_canonicalOf hitem
    | delete | insertThread | insertTask | deleteTask => cases h

/-- A request that makes rules erases none. -/
theorem erasedBy_of_madeBy {c : Change} {o : Except Failure Reply} {r : Rule}
    (h : r ∈ madeBy (.change c) o) : erasedBy (.change c) o = [] := by
  cases c with
  | create | createBatch => rfl
  | delete | insertThread | insertTask | deleteTask => cases h

/-! ## Rules that are read later -/

section Later

variable {m : Store.Marks} {isDeferred : Bool} {before more : List Request} {r : Rule}

/-- What a session makes later on has not been erased before: no identifier is given out twice. -/
theorem not_erased_before (hfresh : Function.Injective m.rule)
    (hr : r ∈ ((onNew m isDeferred).afterAll before).made more) :
    r.id ∉ (onNew m isDeferred).erased before := by
  have hstart : (onNew m isDeferred).store.Sound := (Reachable.start m isDeferred).sound
  obtain ⟨-, hpast⟩ := afterAll_holds hstart hfresh (Store.Holds.start m) before
  obtain ⟨-, hall⟩ := afterAll_holds hstart hfresh (Store.Holds.start m) (before ++ more)
  rw [List.nil_append, List.nil_append] at hpast hall
  have hmarks : Function.Injective
      ((onNew m isDeferred).afterAll (before ++ more)).store.marks.rule := by
    rw [afterAll_marks]
    exact hfresh
  have hnodup := hall.keeps.nodup hmarks
  rw [made_append, List.map_append] at hnodup
  intro herased
  have hold := hpast.keeps.existed r.id herased
  have hnew : r.id ∈ (((onNew m isDeferred).afterAll before).made more).map Rule.id :=
    List.mem_map_of_mem hr
  exact (List.nodup_append.mp hnodup).2.2 r.id hold r.id hnew rfl

/-- A rule that a session makes is held as long as it is not erased later on. -/
theorem mem_held (hfresh : Function.Injective m.rule)
    (hr : r ∈ ((onNew m isDeferred).afterAll before).made more)
    (hkept : r.id ∉ ((onNew m isDeferred).afterAll before).erased more) :
    r ∈ (onNew m isDeferred).held (before ++ more) := by
  refine List.mem_filter.mpr ⟨?_, ?_⟩
  · rw [made_append]
    exact List.mem_append_right _ hr
  · rw [decide_eq_true_eq, erased_append, List.mem_append]
    rintro (hearlier | hlater)
    · exact not_erased_before hfresh hr hearlier
    · exact hkept hlater

/-- What is held is read as the store keeps it. -/
theorem get_held (hfresh : Function.Injective m.rule) {qs : List Request}
    (hr : r ∈ (onNew m isDeferred).held qs) :
    Reads (readableAfter qs) (((onNew m isDeferred).afterAll qs).get r.id).1
      (.ok (Store.keptRule r)) := by
  have hmirrors := session_mirrors hfresh isDeferred qs
  have hget := hmirrors.get r.id
  have hmem : Store.keptRule r ∈ latestFirst ((onNew m isDeferred).held qs) :=
    List.mem_reverse.mpr (List.mem_map_of_mem hr)
  have hfind : (latestFirst ((onNew m isDeferred).held qs)).find? (·.id = r.id) =
      some (Store.keptRule r) := Store.find?_id hmirrors.apart hmem
  rwa [sought, hfind] at hget

end Later

/-- The confidence of a record that is read, of an answer that is read, and of a rule that is created
is absent or from 0 to 1. Whenever such a rule is read in a later session, and unless it has been
deleted, it is read back, with a confidence that is equal. -/
theorem confidence_in_unit :
    (∀ v d, Draft.ofRecord v = .ok d → InUnit d.confidence) ∧
      (∀ (o : Output) d, o.read = .ok d → InUnit d.confidence) ∧
      ∀ m : Store.Marks, Function.Injective m.rule → ∀ isDeferred before c after r,
        r ∈ madeBy (.change c)
          (((onNew m isDeferred).afterAll before).perform (.change c)).1 →
        r.id ∉ (((onNew m isDeferred).afterAll before).perform (.change c)).2.erased after →
        InUnit r.draft.confidence ∧ ∃ kept : Rule,
          Reads (readableAfter (before ++ .change c :: after))
            (((onNew m isDeferred).afterAll (before ++ .change c :: after)).get r.id).1 (.ok kept) ∧
          kept.id = r.id ∧ r.draft.ReadsBack kept.draft := by
  refine ⟨fun v d h => inUnit_of_checked fun n hn => Draft.ofRecord_confidence h hn,
    fun o d h => inUnit_of_checked (Output.read_wellFormed h).confidence, ?_⟩
  intro m hfresh isDeferred before c after r hr hkept
  have hsound : ((onNew m isDeferred).afterAll before).store.Sound :=
    (afterAll_holds (Reachable.start m isDeferred).sound hfresh (Store.Holds.start m) before).1
  have hformed := madeBy_wellFormed hsound hr
  have hmade : r ∈ ((onNew m isDeferred).afterAll before).made (.change c :: after) :=
    List.mem_append_left _ hr
  have hunerased : r.id ∉ ((onNew m isDeferred).afterAll before).erased (.change c :: after) := by
    rwa [erased, erasedBy_of_madeBy hr, List.nil_append]
  exact ⟨inUnit_of_checked hformed.confidence, Store.keptRule r,
    get_held hfresh (mem_held hfresh hmade hunerased), rfl, hformed.readsBack⟩

/-- The record of a rule with a zero below zero for its confidence. -/
def belowZeroRecord : Json :=
  .object [("type", .str "email"), ("pattern", .str "a@x.com"), ("action", .str "VIP"),
    ("confidence", .str "-0.0")]

/-- What is read of it. -/
def belowZeroDraft : Draft :=
  ⟨.email, "a@x.com", .vip, none, none, some (.real (-0.0))⟩

theorem confidence_in_unit_below_zero :
    Draft.ofRecord belowZeroRecord = .ok belowZeroDraft ∧ InUnit belowZeroDraft.confidence ∧
      ∃ kept : Rule, (((onNew Store.strokeMarks false).afterAll
          [.change (.create belowZeroRecord none), .close, .reopen]).get "|").1 = .ok kept ∧
        belowZeroDraft.ReadsBack kept.draft := by
  have hread : Draft.ofRecord belowZeroRecord = .ok belowZeroDraft := rfl
  obtain ⟨hrecords, -, hsessions⟩ := confidence_in_unit
  obtain ⟨-, kept, hreads, -, hback⟩ := hsessions Store.strokeMarks Store.strokes_injective false []
    (.create belowZeroRecord none) [.close, .reopen]
    ⟨"|", belowZeroDraft, Store.strokeMarks.time⟩ (List.mem_singleton_self _) (by decide +kernel)
  refine ⟨hread, hrecords _ _ hread, kept, ?_, hback⟩
  rcases hreads with hkept | ⟨hunreadable, -⟩
  · exact hkept
  · cases hunreadable

end Registry

end MailRules
