import MailRules.Privacy.Sanitized
import MailRules.Proofs.Except
import MailRules.Proofs.Members
import MailRules.Proofs.Privacy.Mask

set_option autoImplicit false

/-!
# The texts of details

Redaction masks each text of a detail, at any depth, and leaves no other text in it: the texts of
what comes out are the masked texts of what went in (`redact_texts`, `sanitize_texts`). So an address
is left in the details of an event just if a chain was in a text of theirs (`holdsAddress_sanitize`).
-/

namespace MailRules

namespace Json

mutual

/-- The texts that are values anywhere in a value. -/
def texts : Json → List String
  | str s => [s]
  | array vs => textsOfItems vs
  | object ms => textsOfMembers ms
  | _ => []

/-- The texts of values. -/
def textsOfItems : List Json → List String
  | [] => []
  | v :: vs => texts v ++ textsOfItems vs

/-- The texts of the values of members. -/
def textsOfMembers : List (String × Json) → List String
  | [] => []
  | (_, v) :: ms => texts v ++ textsOfMembers ms

end

theorem mem_textsOfMembers {ms : List (String × Json)} {t : String} :
    t ∈ textsOfMembers ms ↔ ∃ m ∈ ms, t ∈ m.2.texts := by
  induction ms with
  | nil => simp [textsOfMembers]
  | cons m ms ih => simp [textsOfMembers, ih]

end Json

namespace Privacy

namespace Detail

mutual

/-- What is taken for a scalar is one, at any depth. -/
def IsProper : Detail → Prop
  | scalar (.array _) => False
  | scalar (.object _) => False
  | scalar _ => True
  | group _ ds => AreProper ds
  | object ms => HaveProper ms

/-- Details are proper. -/
def AreProper : List Detail → Prop
  | [] => True
  | d :: ds => IsProper d ∧ AreProper ds

/-- The values of members are proper. -/
def HaveProper : List (String × Detail) → Prop
  | [] => True
  | (_, d) :: ms => IsProper d ∧ HaveProper ms

end

mutual

/-- The texts that are values anywhere in a detail. -/
def texts : Detail → List String
  | scalar v => v.texts
  | group _ ds => textsOfItems ds
  | object ms => textsOfMembers ms

/-- The texts of details. -/
def textsOfItems : List Detail → List String
  | [] => []
  | d :: ds => texts d ++ textsOfItems ds

/-- The texts of the values of members. -/
def textsOfMembers : List (String × Detail) → List String
  | [] => []
  | (_, d) :: ms => texts d ++ textsOfMembers ms

end

mutual

/-- A JSON value is proper as a detail. -/
theorem ofJson_proper : (v : Json) → (ofJson v).IsProper
  | .null | .bool _ | .int _ | .float _ | .str _ => trivial
  | .array vs => ofItems_proper vs
  | .object ms => ofMembers_proper ms

theorem ofItems_proper : (vs : List Json) → AreProper (ofItems vs)
  | [] => trivial
  | v :: vs => ⟨ofJson_proper v, ofItems_proper vs⟩

theorem ofMembers_proper : (ms : List (String × Json)) → HaveProper (ofMembers ms)
  | [] => trivial
  | (_, v) :: ms => ⟨ofJson_proper v, ofMembers_proper ms⟩

end

mutual

/-- A JSON value keeps its texts as a detail. -/
theorem ofJson_texts : (v : Json) → (ofJson v).texts = v.texts
  | .null | .bool _ | .int _ | .float _ | .str _ => rfl
  | .array vs => ofItems_texts vs
  | .object ms => ofMembers_texts ms

theorem ofItems_texts : (vs : List Json) → textsOfItems (ofItems vs) = Json.textsOfItems vs
  | [] => rfl
  | v :: vs => by
    rw [ofItems, textsOfItems, ofJson_texts v, ofItems_texts vs, Json.textsOfItems]

theorem ofMembers_texts : (ms : List (String × Json)) →
    textsOfMembers (ofMembers ms) = Json.textsOfMembers ms
  | [] => rfl
  | (_, v) :: ms => by
    rw [ofMembers, textsOfMembers, ofJson_texts v, ofMembers_texts ms, Json.textsOfMembers]

end

theorem redactScalar_texts {v : Json} (h : (scalar v).IsProper) :
    (redactScalar v).texts = v.texts.map mask := by
  cases v with
  | array vs => exact h.elim
  | object ms => exact h.elim
  | null | bool | int | float | str => rfl

mutual

/-- Redaction masks the texts, and leaves no others. -/
theorem redact_texts : (d : Detail) → d.IsProper → d.redact.texts = d.texts.map mask
  | scalar _, h => redactScalar_texts h
  | group _ ds, h => redactItems_texts ds h
  | object ms, h => redactMembers_texts ms h

theorem redactItems_texts : (ds : List Detail) → AreProper ds →
    Json.textsOfItems (redactItems ds) = (textsOfItems ds).map mask
  | [], _ => rfl
  | d :: ds, h => by
    rw [redactItems, Json.textsOfItems, redact_texts d h.1, redactItems_texts ds h.2, textsOfItems,
      List.map_append]

theorem redactMembers_texts : (ms : List (String × Detail)) → HaveProper ms →
    Json.textsOfMembers (redactMembers ms) = (textsOfMembers ms).map mask
  | [], _ => rfl
  | (_, d) :: ms, h => by
    rw [redactMembers, Json.textsOfMembers, redact_texts d h.1, redactMembers_texts ms h.2,
      textsOfMembers, List.map_append]

end

theorem areProper_iff {ds : List Detail} : AreProper ds ↔ ∀ d ∈ ds, d.IsProper := by
  induction ds with
  | nil => simp [AreProper]
  | cons d ds ih => rw [AreProper, ih, List.forall_mem_cons]

theorem haveProper_iff {ms : List (String × Detail)} :
    HaveProper ms ↔ ∀ m ∈ ms, m.2.IsProper := by
  induction ms with
  | nil => simp [HaveProper]
  | cons m ms ih => rw [HaveProper, ih, List.forall_mem_cons]

/-- The parts of a detail are proper if the detail is. -/
theorem parts?_proper {d : Detail} (h : d.IsProper) {ps : List Detail} (hps : d.parts? = some ps) :
    ∀ p ∈ ps, p.IsProper := by
  cases d with
  | scalar v =>
    cases v with
    | str s =>
      cases hps
      intro p hp
      obtain ⟨c, -, rfl⟩ := List.mem_map.mp hp
      trivial
    | null | bool | int | float | array | object => cases hps
  | group g ds =>
    cases hps
    exact areProper_iff.mp h
  | object ms =>
    cases hps
    intro p hp
    obtain ⟨m, -, rfl⟩ := List.mem_map.mp hp
    trivial

end Detail

open Detail

/-- The texts that are values anywhere in what is under keys. -/
def Keyed.texts {α : Type} (textsOf : α → List String) (es : Keyed α) : List String :=
  es.flatMap fun e => textsOf e.2

/-- The texts in the values under keys that a caller's details stand for. -/
def valueTexts (d : Detail) : List String :=
  match keyed d with
  | .ok es => Keyed.texts Detail.texts es
  | .error _ => []

theorem pairsOf_proper {ds : List Detail} (hds : ∀ d ∈ ds, d.IsProper) {index : Nat}
    {es : Keyed Detail} (h : pairsOf index ds = .ok es) : ∀ e ∈ es, e.2.IsProper := by
  induction ds generalizing index es with
  | nil =>
    cases h
    simp
  | cons d ds ih =>
    obtain ⟨hd, hds⟩ := List.forall_mem_cons.mp hds
    unfold pairsOf at h
    split at h
    · cases h
    · next k v hparts =>
      split at h
      · rcases hrest : pairsOf (index + 1) ds with _ | rest
        · rw [hrest] at h
          cases h
        · rw [hrest] at h
          cases h
          exact List.forall_mem_cons.mpr ⟨parts?_proper hd hparts v (by simp), ih hds hrest⟩
      · cases h
    · cases h

/-- The values that proper details stand for are proper. -/
theorem keyed_proper {d : Detail} (hd : d.IsProper) {es : Keyed Detail} (h : keyed d = .ok es) :
    ∀ e ∈ es, e.2.IsProper := by
  unfold keyed at h
  split at h
  · cases h
    intro e he
    obtain ⟨m, hm, rfl⟩ := List.mem_map.mp he
    exact haveProper_iff.mp hd m hm
  · split at h
    · next parts hparts =>
      rcases hpairs : pairsOf 0 parts with _ | pairs
      · rw [hpairs] at h
        cases h
      · rw [hpairs] at h
        cases h
        intro e he
        obtain ⟨f, hf, heq⟩ := Members.mem_distinctBy he
        rw [heq]
        exact pairsOf_proper (parts?_proper hd hparts) hpairs f hf
    · cases h

/-- What counts as nothing has no values. -/
theorem valueTexts_of_not_truthy {d : Detail} (h : d.isTruthy = false) : valueTexts d = [] := by
  cases d with
  | scalar v =>
    cases v with
    | str s =>
      have hs : s = "" := by simpa [isTruthy, Json.isTruthy] using h
      rw [hs]
      rfl
    | null | bool | int | float | array | object => rfl
  | group g ds =>
    have hds : ds = [] := by simpa [isTruthy] using h
    rw [hds]
    rfl
  | object ms =>
    have hms : ms = [] := by simpa [isTruthy] using h
    rw [hms]
    rfl

/-- The texts of the details of an event are the masked texts of the details that were given. -/
theorem sanitize_texts {d : Detail} (hd : d.IsProper) {es : Keyed Json}
    (h : sanitize d = .ok es) : es.texts Json.texts = (valueTexts d).map mask := by
  unfold sanitize at h
  split at h
  · rcases hkeyed : keyed d with _ | vs
    · rw [hkeyed] at h
      cases h
    · rw [hkeyed, Except.bind, redactKeyed] at h
      split at h
      · cases h
      · cases h
        have hproper := keyed_proper hd hkeyed
        simp only [valueTexts, hkeyed, Keyed.texts, List.flatMap_map, List.map_flatMap]
        exact List.flatMap_congr fun e he => redact_texts e.2 (hproper e he)
  · next htruthy =>
    cases h
    rw [valueTexts_of_not_truthy (by simpa using htruthy)]
    rfl

/-- An address is left in the details of an event just if a chain is in the details given. -/
theorem holdsAddress_sanitize {d : Detail} (hd : d.IsProper) {es : Keyed Json}
    (h : sanitize d = .ok es) :
    (∃ s ∈ es.texts Json.texts, HoldsAddress s.toList) ↔
      ∃ t ∈ valueTexts d, HoldsChain t.toList := by
  rw [sanitize_texts hd h]
  constructor
  · rintro ⟨s, hs, haddress⟩
    obtain ⟨t, ht, rfl⟩ := List.mem_map.mp hs
    exact ⟨t, ht, (holdsAddress_mask t).mp haddress⟩
  · rintro ⟨t, ht, hchain⟩
    exact ⟨mask t, List.mem_map_of_mem ht, (holdsAddress_mask t).mpr hchain⟩

/-- Giving keys their names brings in no texts. -/
theorem named_texts {es : Keyed Json} {ms : Members Json} (h : es.named = .ok ms) :
    (Json.object ms).texts ⊆ es.texts Json.texts := by
  obtain ⟨pairs, hpairs, hms⟩ := bind_eq_ok.mp h
  cases hms
  intro t ht
  obtain ⟨m, hm, ht⟩ := Json.mem_textsOfMembers.mp ht
  obtain ⟨e, he, heq⟩ := mem_of_mapM_ok hpairs (Members.mem_ofPairs hm)
  refine List.mem_flatMap.mpr ⟨e, he, ?_⟩
  split at heq
  · cases heq
    exact ht
  · cases heq

end Privacy

end MailRules
