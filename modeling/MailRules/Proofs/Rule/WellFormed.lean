import MailRules.Proofs.Except
import MailRules.Proofs.Number
import MailRules.Proofs.Rule.Canonical
import MailRules.Registry.Rules

set_option autoImplicit false

/-!
# Well-formed drafts

Every draft that a reading comes up with is well-formed (`Draft.WellFormed`): its kind is a known
one, its texts are in canonical form, its confidence is a float from 0 to 1. The record of such a
draft is read back as the draft itself (`canonicalOf_members`), unless its pattern is empty or is a
domain that begins with a blank; and so is what the store keeps of it, but for the sign of a zero
(`Draft.WellFormed.readsBack`).
-/

namespace MailRules

/-- A kind that rules can be created of. -/
def RuleKind.IsKnown (kind : RuleKind) : Prop :=
  ∀ name, kind ≠ .other name

/-- A draft of a known kind, its texts in canonical form and its confidence from 0 to 1. -/
structure Draft.WellFormed (d : Draft) : Prop where
  kind : d.kind.IsKnown
  pattern : ∃ p, d.pattern = Canonical.pattern d.kind p
  exception : ∃ e, d.exception = Canonical.exception e
  notes : ∃ n, d.notes = Canonical.notes n
  confidence : ∀ n, d.confidence = some n → ∃ x, n = .real x ∧ Record.checkUnit x = .ok x

/-- A draft whose record is read back as the draft itself. -/
structure Draft.Importable (d : Draft) : Prop where
  wellFormed : d.WellFormed
  nonempty : d.pattern ≠ ""
  head : d.kind = .domain → Canonical.beginsBlank d.pattern = false

namespace Record

theorem readKind_name {kind : RuleKind} (h : kind.IsKnown) :
    readKind (.str kind.name) = .ok kind := by
  have hname : RuleKind.ofName? (nameOf kind.name) = some kind := by
    cases kind with
    | other name => exact absurd rfl (h name)
    | email | domain | topic => decide +kernel
  rw [readKind, hname]

theorem readAction_name (action : RuleAction) : readAction (.str action.name) = .ok action := by
  have hname : RuleAction.ofName? (nameOf action.name) = some action := by
    cases action <;> decide +kernel
  rw [readAction, hname]

theorem readPattern_str {p : String} (hne : p ≠ "") (hblank : Text.isBlankText p = false) :
    readPattern (.str p) = .ok p := by
  rw [readPattern, if_neg hne, if_neg (by simp [hblank])]

theorem readText?_ofText? {t : Option String} (h : ∀ s, t = some s → Text.isBlankText s = false) :
    readText? (.ofText? t) = .ok t := by
  cases t with
  | none => rfl
  | some s => rw [Json.ofText?, readText?, if_neg (by simp [h s rfl])]

theorem readConfidence_toJson {c : Option Float} (h : ∀ x, c = some x → checkUnit x = .ok x) :
    readConfidence (((c.map Number.real).map Number.toJson).getD .null) = .ok c := by
  cases c with
  | none => rfl
  | some x =>
    change (checkUnit x).map some = _
    rw [h x rfl]
    rfl

/-- A float that passes the check is given back, and is not NaN. -/
theorem checkUnit_eq_ok {x y : Float} (h : checkUnit x = .ok y) : x = y ∧ (x == x) = true := by
  unfold checkUnit at h
  split at h
  · cases h
  · rename_i hone
    split at h
    · cases h
    · exact ⟨Except.ok.inj h, Number.beq_self_of_le (by simpa using hone)⟩

/-! ## What is read from a record -/

theorem readKind_known {v : Json} {kind : RuleKind} (h : readKind v = .ok kind) :
    kind.IsKnown := by
  unfold readKind at h
  split at h
  · split at h
    · rename_i k hname
      cases h
      -- a name stands for one of three kinds
      rintro name rfl
      unfold RuleKind.ofName? at hname
      split at hname
      · cases hname
      · split at hname
        · cases hname
        · split at hname
          all_goals cases hname
    · cases h
  · cases h

theorem readConfidence_unit {v : Json} {c : Option Float} (h : readConfidence v = .ok c) (x : Float)
    (hx : c = some x) : checkUnit x = .ok x := by
  have hunit {y : Float} (hy : (checkUnit y).map some = .ok c) : checkUnit x = .ok x := by
    obtain ⟨z, hz, rfl⟩ := map_eq_ok.mp hy
    cases hx
    obtain ⟨rfl, -⟩ := checkUnit_eq_ok hz
    exact hz
  unfold readConfidence at h
  split at h
  · cases h
    cases hx
  · cases h
  · split at h
    · exact hunit h
    · cases h
  · exact hunit h
  · split at h
    · exact hunit h
    · cases h
  · cases h

theorem required_eq_ok {α : Type} {ms : Members Json} {f : Field} {read : Json → Except Problem α}
    {a : α} (h : required ms f read = .ok a) : ∃ v, read v = .ok a := by
  unfold required at h
  split at h
  · cases h
  · rename_i v hv
    exact ⟨v, mapError_eq_ok.mp h⟩

theorem optional_eq_ok {α : Type} {ms : Members Json} {f : Field}
    {read : Json → Except Problem (Option α)} {a : Option α} (h : optional ms f read = .ok a) :
    a = none ∨ ∃ v, read v = .ok a := by
  unfold optional at h
  split at h
  · cases h
    exact Or.inl rfl
  · rename_i v hv
    exact Or.inr ⟨v, mapError_eq_ok.mp h⟩

end Record

namespace Draft

/-- The floats among well-formed confidences. -/
theorem WellFormed.confidence_eq {d : Draft} (h : d.WellFormed) :
    ∃ c : Option Float, d.confidence = c.map .real ∧
      ∀ x, c = some x → Record.checkUnit x = .ok x := by
  cases hc : d.confidence with
  | none => exact ⟨none, rfl, nofun⟩
  | some n =>
    obtain ⟨x, rfl, hx⟩ := h.confidence n hc
    exact ⟨some x, rfl, fun y hy => Option.some.inj hy ▸ hx⟩

/-- The values of the fields in the record of a draft, whatever else is in it. -/
theorem get?_members (d : Draft) (more : List (String × Json)) (f : Record.Field) :
    Members.get? (d.members ++ more) f.name = some (match f with
      | .kind => .str d.kind.name
      | .pattern => .str d.pattern
      | .action => .str d.action.name
      | .exception => .ofText? d.exception
      | .notes => .ofText? d.notes
      | .confidence => (d.confidence.map Number.toJson).getD .null) := by
  cases f <;> simp [members, Record.Field.name, Members.get?_cons]

/-- The record of a well-formed draft is read as that draft if its pattern is not blank, whatever
else is in it. -/
theorem WellFormed.ofRecord_members {d : Draft} (h : d.WellFormed) (hne : d.pattern ≠ "")
    (hblank : Text.isBlankText d.pattern = false) (more : List (String × Json)) :
    Draft.ofRecord (.object (d.members ++ more)) = .ok d := by
  obtain ⟨e, he⟩ := h.exception
  obtain ⟨n, hn⟩ := h.notes
  obtain ⟨c, hc, hunit⟩ := h.confidence_eq
  have hkind := Record.readKind_name h.kind
  have haction := Record.readAction_name d.action
  have hpattern := Record.readPattern_str hne hblank
  have hexception : Record.readText? (.ofText? d.exception) = .ok d.exception :=
    Record.readText?_ofText? fun s hs => Canonical.isBlankText_exception (he.symm.trans hs)
  have hnotes : Record.readText? (.ofText? d.notes) = .ok d.notes :=
    Record.readText?_ofText? fun s hs => Canonical.isBlankText_notes (hn.symm.trans hs)
  have hconfidence : Record.readConfidence ((d.confidence.map Number.toJson).getD .null) = .ok c :=
    hc ▸ Record.readConfidence_toJson hunit
  simp only [ofRecord, Record.readMembers, Record.required, Record.optional, get?_members, hkind,
    haction, hpattern, hexception, hnotes, hconfidence, Except.mapError, ← hc]

theorem Importable.isBlankText_pattern {d : Draft} (h : d.Importable) :
    Text.isBlankText d.pattern = false := by
  obtain ⟨p, hp⟩ := h.wellFormed.pattern
  have hne := h.nonempty
  have hhead := h.head
  rw [hp] at hne hhead ⊢
  exact Canonical.isBlankText_pattern hne hhead

/-- An importable draft is in canonical form. -/
theorem Importable.canonicalize_eq {d : Draft} (h : d.Importable) : d.canonicalize = .ok d := by
  obtain ⟨p, hp⟩ := h.wellFormed.pattern
  obtain ⟨e, he⟩ := h.wellFormed.exception
  obtain ⟨n, hn⟩ := h.wellFormed.notes
  have hpattern : Canonical.pattern d.kind d.pattern = d.pattern := by
    have hhead := h.head
    rw [hp] at hhead ⊢
    exact Canonical.pattern_pattern hhead
  have hexception : Canonical.exception d.exception = d.exception := by
    rw [he, Canonical.exception_exception]
  have hnotes : Canonical.notes d.notes = d.notes := by
    rw [hn, Canonical.notes_notes]
  simp only [canonicalize, canonical?, hpattern, hexception, hnotes, if_neg h.nonempty]

/-- The confidence of a draft from a record is a float from 0 to 1. -/
theorem ofRecord_confidence {v : Json} {d : Draft} (hd : Draft.ofRecord v = .ok d) {n : Number}
    (hn : d.confidence = some n) : ∃ x, n = .real x ∧ Record.checkUnit x = .ok x := by
  unfold ofRecord at hd
  split at hd
  · obtain ⟨confidence, -, -, -, -, -, hconfidence, heq⟩ :=
      Record.readMembers_eq_ok (mapError_eq_ok.mp hd)
    rw [heq] at hn
    obtain ⟨x, hx, rfl⟩ := Option.map_eq_some_iff.mp hn
    refine ⟨x, rfl, ?_⟩
    rcases Record.optional_eq_ok hconfidence with hnone | ⟨w, hw⟩
    · rw [hnone] at hx
      cases hx
    · exact Record.readConfidence_unit hw x hx
  · cases hd

/-- The canonical form of a draft from a record is well-formed. -/
theorem wellFormed_of_record {v : Json} {d c : Draft} (hd : Draft.ofRecord v = .ok d)
    (hc : d.canonical? = some c) : c.WellFormed := by
  obtain ⟨rfl, -⟩ := canonicalize_eq_ok (d := d) (c := c) (by rw [canonicalize, hc])
  refine ⟨?_, ⟨_, rfl⟩, ⟨_, rfl⟩, ⟨_, rfl⟩, fun n hn => ofRecord_confidence hd hn⟩
  unfold ofRecord at hd
  split at hd
  · obtain ⟨_, hkind, -⟩ := Record.readMembers_eq_ok (mapError_eq_ok.mp hd)
    obtain ⟨w, hw⟩ := Record.required_eq_ok hkind
    exact Record.readKind_known hw
  · cases hd

/-- What is read back of a draft: all is the same, but that a confidence is only equal as a number,
which a zero is to one of the other sign. -/
structure ReadsBack (d kept : Draft) : Prop where
  kind : kept.kind = d.kind
  pattern : kept.pattern = d.pattern
  action : kept.action = d.action
  exception : kept.exception = d.exception
  notes : kept.notes = d.notes
  confidence : (d.confidence = none ∧ kept.confidence = none) ∨
    ∃ x y, d.confidence = some (.real x) ∧ kept.confidence = some (.real y) ∧ (x == y) = true

/-- A well-formed draft is read back from what the store keeps of it. -/
theorem WellFormed.readsBack {r : Rule} (h : r.draft.WellFormed) :
    r.draft.ReadsBack (Store.keptRule r).draft := by
  refine ⟨rfl, rfl, rfl, rfl, rfl, ?_⟩
  simp only [Store.keptRule]
  cases hc : r.draft.confidence with
  | none => exact Or.inl ⟨rfl, rfl⟩
  | some n =>
    obtain ⟨x, rfl, hx⟩ := h.confidence n hc
    obtain ⟨y, hy, hxy⟩ := Number.exists_stored? (Record.checkUnit_eq_ok hx).2
    exact Or.inr ⟨x, y, rfl, by rw [Option.bind_some, hy]; rfl, hxy⟩

/-- The store can keep the confidence of a well-formed draft. -/
theorem WellFormed.fits {d : Draft} (h : d.WellFormed) : d.confidence.all Number.fits = true := by
  cases hc : d.confidence with
  | none => rfl
  | some n =>
    obtain ⟨x, rfl, -⟩ := h.confidence n hc
    rfl

end Draft

namespace Registry

/-- The draft that a record stands for is well-formed. -/
theorem wellFormed_of_canonicalOf {record : Json} {d : Draft} (h : canonicalOf record = .ok d) :
    d.WellFormed := by
  unfold canonicalOf at h
  rcases hread : Draft.ofRecord record with r | q
  · rw [hread] at h
    cases h
  · rw [hread] at h
    refine Draft.wellFormed_of_record hread ?_
    have hcanonical : q.canonicalize = .ok d := h
    unfold Draft.canonicalize at hcanonical
    split at hcanonical
    · next c hc =>
      cases hcanonical
      exact hc
    · cases hcanonical

/-- An importable draft is what its record stands for. -/
theorem canonicalOf_members {d : Draft} (h : d.Importable) (more : List (String × Json)) :
    canonicalOf (.object (d.members ++ more)) = .ok d := by
  rw [canonicalOf, h.wellFormed.ofRecord_members h.nonempty h.isBlankText_pattern]
  exact h.canonicalize_eq

end Registry

end MailRules
