import Mathlib.Data.List.Nodup
import MailRules.Proofs.Store.Sound

set_option autoImplicit false

/-!
# Identifiers of rules

Each rule that is written gets the next identifier, and none is given out again, so the rules that a
store holds are those that have been written and not erased since (`Keeps`). For that identifiers
have to be told apart, as an injective `Marks.rule` does. If they are also none of those that are
stored (`FreshIds`), new rules are found by them (`rule?_of_new`).
-/

namespace MailRules.Store

/-- The identifiers of the rules that a store holds. -/
def ruleIds (s : Store) : List String :=
  (s.tables.rules.map Row.value).map Rule.id

/-- The store holds the rules that were created, in order, without those that were deleted, each of
which had been created before. -/
structure Keeps (s : Store) (created deleted : List String) : Prop where
  issued : created = (List.range s.tables.issued.rules).map s.marks.rule
  stored : s.ruleIds = created.filter fun id => id ∉ deleted
  existed : ∀ id ∈ deleted, id ∈ created
  once : deleted.Nodup

variable {s t : Store} {created deleted : List String}

theorem Keeps.start (m : Marks) (ds : List Disturbance) :
    Keeps { marks := m, disturbances := ds } [] [] :=
  ⟨rfl, rfl, by simp, List.nodup_nil⟩

/-- No two rules that were created have the same identifier. -/
theorem Keeps.nodup (h : s.Keeps created deleted) (hfresh : Function.Injective s.marks.rule) :
    created.Nodup := by
  rw [h.issued]
  exact List.nodup_range.map hfresh

theorem Keeps.same (h : s.Keeps created deleted) (hmarks : t.marks = s.marks)
    (hrules : t.tables.rules = s.tables.rules)
    (hissued : t.tables.issued.rules = s.tables.issued.rules) : t.Keeps created deleted where
  issued := by rw [hissued, hmarks, h.issued]
  stored := by rw [← h.stored, ruleIds, ruleIds, hrules]
  existed := h.existed
  once := h.once

/-- Rules that are written one after the other have the next identifiers. -/
theorem map_id_rulesFrom (m : Marks) (issued : Nat) (ds : List Draft) :
    (rulesFrom m issued ds).map Rule.id = (List.range' issued ds.length).map m.rule := by
  induction ds generalizing issued with
  | nil => rfl
  | cons d ds ih =>
    simp only [rulesFrom, List.map_cons, List.length_cons, List.range'_succ, ih]

theorem mark_of_mem_rulesFrom {m : Marks} {issued : Nat} {ds : List Draft} {r : Rule}
    (h : r ∈ rulesFrom m issued ds) : ∃ n, issued ≤ n ∧ r.id = m.rule n := by
  have hid : r.id ∈ (rulesFrom m issued ds).map Rule.id := List.mem_map_of_mem h
  rw [map_id_rulesFrom] at hid
  obtain ⟨n, hn, heq⟩ := List.mem_map.mp hid
  exact ⟨n, (List.mem_range'_1.mp hn).1, heq.symm⟩

theorem map_id_keptRule (rs : List Rule) : (rs.map keptRule).map Rule.id = rs.map Rule.id := by
  rw [List.map_map]
  rfl

/-- What has been deleted was created before, so it is none of the rules that are written next. -/
theorem Keeps.undeleted (h : s.Keeps created deleted) (hfresh : Function.Injective s.marks.rule)
    {ds : List Draft} {r : Rule} (hr : r ∈ rulesFrom s.marks s.tables.issued.rules ds) :
    r.id ∉ deleted := by
  intro hdeleted
  obtain ⟨n, hn, hnew⟩ := mark_of_mem_rulesFrom hr
  have hcreated := h.existed r.id hdeleted
  rw [h.issued, hnew] at hcreated
  obtain ⟨k, hk, hsame⟩ := List.mem_map.mp hcreated
  obtain rfl := hfresh hsame
  have hbefore := List.mem_range.mp hk
  omega

/-- Rules are written. -/
theorem Keeps.create (h : s.Keeps created deleted) (hfresh : Function.Injective s.marks.rule)
    (hmarks : t.marks = s.marks) {last : Int} {ds : List Draft}
    (htables : t.tables = s.tables.withRules last
      (rulesFrom s.marks s.tables.issued.rules ds)) :
    t.Keeps (created ++ (rulesFrom s.marks s.tables.issued.rules ds).map Rule.id) deleted := by
  have hall : created ++ (rulesFrom s.marks s.tables.issued.rules ds).map Rule.id =
      (List.range t.tables.issued.rules).map t.marks.rule := by
    have hissued : t.tables.issued.rules = s.tables.issued.rules + ds.length := by
      simp [htables, Tables.withRules]
    rw [h.issued, map_id_rulesFrom, ← List.map_append, hmarks, hissued, List.range_eq_range',
      List.range_eq_range', ← List.range'_append_1, Nat.zero_add]
  have hnew : ((rulesFrom s.marks s.tables.issued.rules ds).map Rule.id).filter
      (fun id => id ∉ deleted) = (rulesFrom s.marks s.tables.issued.rules ds).map Rule.id := by
    refine List.filter_eq_self.mpr fun id hid => ?_
    obtain ⟨r, hr, rfl⟩ := List.mem_map.mp hid
    simpa using h.undeleted hfresh hr
  refine ⟨hall, ?_, fun id hid => List.mem_append_left _ (h.existed id hid), h.once⟩
  rw [List.filter_append, hnew, ← h.stored]
  simp only [ruleIds, htables, Tables.withRules, List.map_append, map_value_rowsFrom,
    map_id_keptRule]

/-- A rule that is found is stored. -/
theorem mem_ruleIds {id : String} {r : Rule} (h : s.tables.rule? id = some r) :
    id ∈ s.ruleIds := by
  rw [rule?_eq_find?] at h
  have hid : r.id = id := by simpa using List.find?_some h
  exact hid ▸ List.mem_map_of_mem (List.mem_of_find?_eq_some h)

/-- A rule is erased. -/
theorem Keeps.delete (h : s.Keeps created deleted) (hmarks : t.marks = s.marks) {id : String}
    {r : Rule} (hr : s.tables.rule? id = some r) (htables : t.tables = s.tables.withoutRule id) :
    t.Keeps created (deleted ++ [id]) := by
  have hmem : id ∈ created.filter fun id => id ∉ deleted := h.stored ▸ mem_ruleIds hr
  obtain ⟨hcreated, hkept⟩ := List.mem_filter.mp hmem
  have hlast : id ∉ deleted := by simpa using hkept
  refine ⟨?_, ?_, ?_, ?_⟩
  · rw [h.issued, hmarks, htables]
    rfl
  · have hids : t.ruleIds = s.ruleIds.filter fun i => i ≠ id := by
      simp only [ruleIds, htables, Tables.withoutRule, List.map_map, List.filter_map]
      rfl
    rw [hids, h.stored, List.filter_filter]
    refine List.filter_congr fun i _ => ?_
    simp [Bool.and_comm]
  · intro i hi
    rcases List.mem_append.mp hi with hi | hi
    · exact h.existed i hi
    · exact List.mem_singleton.mp hi ▸ hcreated
  · refine List.nodup_append.mpr ⟨h.once, List.nodup_singleton id, ?_⟩
    intro i hi j hj
    rw [List.mem_singleton.mp hj]
    rintro rfl
    exact hlast hi

/-! ## Rules found by their identifiers -/

/-- No identifier that is still to be given out is that of a stored rule, and no two are the
same. -/
structure FreshIds (s : Store) : Prop where
  apart : Function.Injective s.marks.rule
  unused : ∀ n, s.tables.issued.rules ≤ n → s.marks.rule n ∉ s.ruleIds

/-- A rule is found by its identifier if no other rule has that. -/
theorem find?_id {rs : List Rule} (h : (rs.map Rule.id).Nodup) {r : Rule} (hr : r ∈ rs) :
    rs.find? (·.id = r.id) = some r := by
  induction rs with
  | nil => cases hr
  | cons q rs ih =>
    obtain ⟨hq, hrs⟩ := List.nodup_cons.mp h
    rcases List.mem_cons.mp hr with rfl | hr
    · exact List.find?_cons_of_pos (by simp)
    · have hne : q.id ≠ r.id := fun heq => hq (heq ▸ List.mem_map_of_mem hr)
      rw [List.find?_cons_of_neg (by simpa using hne)]
      exact ih hrs hr

/-- As many strokes as things came before, and one more. -/
def strokes (n : Nat) : String :=
  String.ofList (List.replicate (n + 1) '|')

theorem strokes_injective : Function.Injective strokes := by
  intro m n h
  have hlength := congrArg (fun s : String => s.toList.length) h
  simpa [strokes] using hlength

/-- Rows are marked with strokes. -/
def strokeMarks : Marks :=
  ⟨strokes, strokes, strokes, strokes, "2024-02-29T21:59:43+00:00"⟩

end MailRules.Store
