import MailRules.Proofs.Store.Willing

set_option autoImplicit false

/-!
# Stores whose events differ

A store `Lags` behind another when both hold the same rules in the same order, but events that are
written to the second may fail to be written to the first. Each event uses up a rank of the second,
and at most one of the first; so whatever rule the second store takes the first takes as well, and
nothing that comes of an operation on rules tells which of the two it was done to, unless the second
store gets spent.
-/

namespace MailRules.Store

/-- Two stores with the same rules in the same order, of which the second may have given out more
ranks. In the first only writing events goes wrong, in the second nothing does. -/
structure Lags (s t : Store) : Prop where
  rules : s.tables.rules.map Row.value = t.tables.rules.map Row.value
  issued : s.tables.issued.rules = t.tables.issued.rules
  marks : s.marks = t.marks
  counters : ∃ m n, s.counter = .whole m ∧ t.counter = .whole n ∧ m ≤ n
  sound : Sound s
  willing : Willing s
  leadSound : Sound t
  leadWilling : Willing t
  calm : Calm .insertEvent t.disturbances

variable {s t : Store}

/-- Operations that do the same to the rules leave one store behind the other. -/
theorem Lags.follow (h : Lags s t) {s' t' : Store} (hs : Follows s s') (ht : Follows t t')
    (hsound : Sound s') (hsound' : Sound t')
    (hrules : s'.tables.rules.map Row.value = t'.tables.rules.map Row.value)
    (hissued : s'.tables.issued.rules = t'.tables.issued.rules)
    (hcounters : ∃ m n, s'.counter = .whole m ∧ t'.counter = .whole n ∧ m ≤ n) : Lags s' t' where
  rules := hrules
  issued := hissued
  marks := hs.marks.trans (h.marks.trans ht.marks.symm)
  counters := hcounters
  sound := hsound
  willing := h.willing.follows hs
  leadSound := hsound'
  leadWilling := h.leadWilling.follows ht
  calm := h.calm.recounted ht.recounted

/-! ## Rules that are looked up -/

/-- The same rule is found. -/
theorem Lags.rule? (h : Lags s t) (id : String) : s.tables.rule? id = t.tables.rule? id := by
  rw [rule?_eq_find?, rule?_eq_find?, h.rules]

/-- The same rules are listed. -/
theorem Lags.listed (h : Lags s t) (action : Option RuleAction) :
    s.tables.listed action = t.tables.listed action :=
  h.sound.listed h.leadSound h.rules action

/-- Rules that are written one after the other become the same. -/
theorem Lags.rulesFrom (h : Lags s t) (ds : List Draft) :
    rulesFrom s.marks s.tables.issued.rules ds = rulesFrom t.marks t.tables.issued.rules ds := by
  rw [h.marks, h.issued]

/-! ## Operations on rules -/

/-- Adding the same rules leaves one store behind the other. -/
theorem Lags.withRules (h : Lags s t) {s' t' : Store} (hs : Follows s s') (ht : Follows t t')
    (hsound : Sound s') (hsound' : Sound t') {m n : Int} (hm : s.counter = .whole m)
    (hn : t.counter = .whole n) {rs : List Rule} (htables : s'.tables = s.tables.withRules m rs)
    (htables' : t'.tables = t.tables.withRules n rs) {k : Int}
    (hcounter : s'.counter = .whole (m + k)) (hcounter' : t'.counter = .whole (n + k)) :
    Lags s' t' := by
  refine h.follow hs ht hsound hsound' ?_ ?_ ⟨_, _, hcounter, hcounter', ?_⟩
  · simp [htables, htables', Tables.withRules, h.rules]
  · simp [htables, htables', Tables.withRules, h.issued]
  · obtain ⟨i, j, hi, hj, hle⟩ := h.counters
    obtain rfl := Rank.whole.inj (hm.symm.trans hi)
    obtain rfl := Rank.whole.inj (hn.symm.trans hj)
    omega

/-- A rank that has been given out can be kept in a store that is not spent. -/
theorem lt_of_not_spent {n : Int} (hn : t.counter = .whole n) (h : ¬t.IsSpent) :
    n < Decimal.wordLimit := by
  by_contra hlimit
  exact h ⟨n, hn, by omega⟩

/-- Rules that are written to the second store are written to the first. -/
theorem Lags.insertRules (h : Lags s t) {ds : List Draft}
    (hfits : ∀ d ∈ ds, d.confidence.all Number.fits = true)
    (hlasts : ¬(t.insertRules ds).2.IsSpent) :
    ∃ s' t', s.insertRules ds = (.ok (.given ((Store.rulesFrom t.marks t.tables.issued.rules
        ds).map .given)), s') ∧
      t.insertRules ds = (.ok (.given ((Store.rulesFrom t.marks t.tables.issued.rules
        ds).map .given)), t') ∧ Lags s' t' := by
  obtain ⟨m, n, hm, hn, hle⟩ := h.counters
  obtain ⟨i, hi, hnumbered⟩ := h.sound.numbered
  obtain ⟨j, hj, hnumbered'⟩ := h.leadSound.numbered
  have hnonneg : 0 ≤ m := Rank.whole.inj (hi.symm.trans hm) ▸ hnumbered.nonneg
  have hnonneg' : 0 ≤ n := Rank.whole.inj (hj.symm.trans hn) ▸ hnumbered'.nonneg
  have hfollows' := insertRules_follows t ds
  have hsound' := insertRules_sound h.leadSound ds
  rcases insertRules_receptive h.leadWilling.receptive hn hnonneg' hfits
    with ⟨a', t', hok'⟩ | hspent
  · rw [hok'] at hlasts hfollows' hsound'
    obtain ⟨rfl, htables', hcounter'⟩ := insertRules_ok h.leadSound.failing hn hok'
    have hlimit := lt_of_not_spent hcounter' hlasts
    -- the ranks of the first store are no greater than those of the second
    have hok := insertRules_within h.willing.receptive hm hnonneg hfits (by omega)
    have hfollows := insertRules_follows s ds
    have hsound := insertRules_sound h.sound ds
    rw [hok] at hfollows hsound
    obtain ⟨-, htables, hcounter⟩ := insertRules_ok h.sound.failing hm hok
    rw [h.rulesFrom ds] at hok hfollows hsound htables hcounter
    exact ⟨_, t', hok, hok', h.withRules hfollows hfollows' hsound hsound' hm hn htables htables'
      hcounter hcounter'⟩
  · exact absurd hspent hlasts

/-- A rule that is written to the second store is written to the first. -/
theorem Lags.insertRule (h : Lags s t) {d : Draft} (hfits : d.confidence.all Number.fits = true)
    (hlasts : ¬(t.insertRule d).2.IsSpent) :
    ∃ s' t', s.insertRule d = (.ok (.given (t.nextRule d)), s') ∧
      t.insertRule d = (.ok (.given (t.nextRule d)), t') ∧ Lags s' t' := by
  obtain ⟨m, n, hm, hn, hle⟩ := h.counters
  obtain ⟨i, hi, hnumbered⟩ := h.sound.numbered
  have hnonneg : 0 ≤ m := Rank.whole.inj (hi.symm.trans hm) ▸ hnumbered.nonneg
  have hfollows' := insertRule_follows t d
  have hsound' := insertRule_sound h.leadSound d
  rcases insertRule_receptive h.leadSound h.leadWilling.receptive hfits with ⟨a', t', hok'⟩ | hspent
  · rw [hok'] at hlasts hfollows' hsound'
    obtain ⟨rfl, htables', hcounter'⟩ := insertRule_ok h.leadSound.failing hn hok'
    have hlimit := lt_of_not_spent hcounter' hlasts
    have hok := insertRule_within h.willing.receptive hm hnonneg hfits (by omega)
    have hfollows := insertRule_follows s d
    have hsound := insertRule_sound h.sound d
    rw [hok] at hfollows hsound
    obtain ⟨-, htables, hcounter⟩ := insertRule_ok h.sound.failing hm hok
    have hnext : s.nextRule d = t.nextRule d := by
      simp only [nextRule, h.marks, h.issued]
    rw [hnext] at hok hfollows hsound htables hcounter
    exact ⟨_, t', hok, hok', h.withRules hfollows hfollows' hsound hsound' hm hn htables htables'
      hcounter hcounter'⟩
  · exact absurd hspent hlasts

/-- A rule is erased from both stores. -/
theorem Lags.deleteRule (h : Lags s t) (id : String) :
    ∃ s' t', s.deleteRule id = (.ok (.given (t.tables.rule? id).isSome), s') ∧
      t.deleteRule id = (.ok (.given (t.tables.rule? id).isSome), t') ∧ Lags s' t' := by
  have hok := deleteRule_willing h.willing id
  have hok' := deleteRule_willing h.leadWilling id
  have hfollows := deleteRule_follows s id
  have hfollows' := deleteRule_follows t id
  have hsound := deleteRule_sound h.sound id
  have hsound' := deleteRule_sound h.leadSound id
  rw [hok] at hfollows hsound
  rw [hok'] at hfollows' hsound'
  refine ⟨_, _, h.rule? id ▸ hok, hok',
    h.follow hfollows hfollows' hsound hsound' ?_ h.issued h.counters⟩
  rw [map_value_withoutRule, map_value_withoutRule, h.rules]

/-! ## Events -/

/-- Whether an event is written or not, the first store does not get ahead of the second. -/
theorem Lags.insertEvent (h : Lags s t) {n : Audit.Note} (hn : refusal? n = none) :
    Lags (s.insertEvent n).2 (t.insertEvent n).2 := by
  obtain ⟨i, j, hi, hj, hle⟩ := h.counters
  obtain ⟨c, hc, hnumbered⟩ := h.sound.numbered
  obtain ⟨d, hd, hnumbered'⟩ := h.leadSound.numbered
  obtain rfl := Rank.whole.inj (hi.symm.trans hc)
  obtain rfl := Rank.whole.inj (hj.symm.trans hd)
  obtain ⟨k, hk, hkle⟩ := insertEvent_counter h.sound h.willing.receptive hi hnumbered.nonneg hn
  obtain ⟨-, hcounter'⟩ := insertEvent_calm h.leadWilling.receptive h.calm hj hnumbered'.nonneg hn
  obtain ⟨hrow, hissued⟩ := insertEvent_rules h.sound n
  obtain ⟨hrow', hissued'⟩ := insertEvent_rules h.leadSound n
  refine h.follow (insertEvent_follows s n) (insertEvent_follows t n)
    (insertEvent_sound h.sound n) (insertEvent_sound h.leadSound n) ?_ ?_
    ⟨k, j + 1, hk, hcounter', by omega⟩
  · rw [hrow, hrow', h.rules]
  · rw [hissued, hissued', h.issued]

end MailRules.Store
