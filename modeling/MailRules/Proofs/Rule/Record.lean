import MailRules.Rule.Record

set_option autoImplicit false

/-!
# What records stand for

A record that is read has a value in each of its fields (`Record.readMembers_eq_ok`), so that a
draft from a record always has a confidence that the store can keep. All records of a batch are read
exactly when each of them is (`checkAll_eq_nil`).
-/

namespace MailRules

namespace Record

/-- A draft comes from the values of all fields. -/
theorem readMembers_eq_ok {ms : Members Json} {d : Draft} (h : readMembers ms = .ok d) :
    ∃ confidence : Option Float,
      required ms .kind readKind = .ok d.kind ∧
      required ms .pattern readPattern = .ok d.pattern ∧
      required ms .action readAction = .ok d.action ∧
      optional ms .exception readText? = .ok d.exception ∧
      optional ms .notes readText? = .ok d.notes ∧
      optional ms .confidence readConfidence = .ok confidence ∧
      d.confidence = confidence.map .real := by
  simp only [readMembers] at h
  split at h
  · cases h
    exact ⟨_, ‹_›, ‹_›, ‹_›, ‹_›, ‹_›, ‹_›, rfl⟩
  · cases h

end Record

namespace Draft

/-- The confidence of a record is a float, which the store can keep. -/
theorem ofRecord_fits {v : Json} {d : Draft} (h : ofRecord v = .ok d) :
    d.confidence.all Number.fits = true := by
  unfold ofRecord at h
  split at h
  · rename_i ms
    rcases hread : Record.readMembers ms with faults | e
    · rw [hread] at h
      cases h
    · rw [hread] at h
      cases h
      obtain ⟨confidence, -, -, -, -, -, -, hconfidence⟩ := Record.readMembers_eq_ok hread
      rw [hconfidence]
      cases confidence with
      | none => rfl
      | some x => rfl
  · cases h

/-- Canonical form changes texts only. -/
theorem canonicalize_eq_ok {d c : Draft} (h : d.canonicalize = .ok c) :
    c = { d with
      pattern := Canonical.pattern d.kind d.pattern
      exception := Canonical.exception d.exception
      notes := Canonical.notes d.notes } ∧ Canonical.pattern d.kind d.pattern ≠ "" := by
  unfold canonicalize canonical? at h
  by_cases hempty : Canonical.pattern d.kind d.pattern = ""
  · simp [hempty] at h
  · simp only [hempty, if_false, Except.ok.injEq] at h
    exact ⟨h.symm, hempty⟩

end Draft

/-! ## Batches -/

/-- A batch has no issue exactly when every item passes the check. -/
theorem checkAll_eq_nil {α β : Type} {check : α → Except Rejection β} (index : Nat) {as : List α}
    {bs : List β} : checkAll check index as = (bs, []) ↔ as.map check = bs.map .ok := by
  induction as generalizing index bs with
  | nil =>
    cases bs with
    | nil => simp [checkAll]
    | cons b bs => simp [checkAll]
  | cons a as ih =>
    rcases hrest : checkAll check (index + 1) as with ⟨done, bad⟩
    unfold checkAll
    simp only [hrest]
    rcases hcheck : check a with r | b
    · cases bs with
      | nil => simp
      | cons c cs => simp [hcheck]
    · cases bs with
      | nil => simp
      | cons c cs =>
        rw [List.map_cons, List.map_cons, hcheck, List.cons.injEq, ← ih (index + 1), hrest]
        simp [and_assoc]

theorem Draft.ofRecords_eq_ok {items : List Json} {ds : List Draft} :
    Draft.ofRecords items = .ok ds ↔ items ≠ [] ∧ items.map Draft.ofRecord = ds.map .ok := by
  unfold Draft.ofRecords
  rw [← checkAll_eq_nil 0]
  cases items with
  | nil => simp
  | cons v vs =>
    rcases checkAll Draft.ofRecord 0 (v :: vs) with ⟨es, _ | ⟨i, is⟩⟩ <;> simp

end MailRules
