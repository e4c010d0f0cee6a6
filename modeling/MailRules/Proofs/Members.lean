import MailRules.Members
import Mathlib.Data.List.Nodup

set_option autoImplicit false

/-!
# Named values

What is found under a name after others have been set, and where members come from.
-/

namespace MailRules.Members

variable {α κ : Type}

/-! ## Finding -/

theorem get?_eq_none {ms : Members α} {name : String} (h : name ∉ ms.names) :
    ms.get? name = none := by
  induction ms with
  | nil => rfl
  | cons m ms ih =>
    have hne : m.1 ≠ name := fun heq => h (heq ▸ List.mem_cons_self)
    rw [get?_cons, if_neg hne]
    exact ih fun hmem => h (List.mem_cons_of_mem _ hmem)

theorem mem_of_get? {ms : Members α} {name : String} {v : α} (h : ms.get? name = some v) :
    (name, v) ∈ ms := by
  induction ms with
  | nil => cases h
  | cons m ms ih =>
    rw [get?_cons] at h
    split at h
    · next hname =>
      rw [← hname, ← Option.some.inj h]
      exact List.mem_cons_self
    · exact List.mem_cons_of_mem _ (ih h)

/-- Where names are distinct, each pair is found under its name. -/
theorem get?_of_mem {ms : Members α} (h : ms.names.Nodup) {m : String × α} (hm : m ∈ ms) :
    ms.get? m.1 = some m.2 := by
  induction ms with
  | nil => cases hm
  | cons n ms ih =>
    obtain ⟨hnew, hrest⟩ := List.nodup_cons.mp h
    rw [get?_cons]
    rcases List.mem_cons.mp hm with rfl | hm
    · rw [if_pos rfl]
    · have hne : n.1 ≠ m.1 := fun heq => hnew (heq ▸ List.mem_map_of_mem hm)
      rw [if_neg hne, ih hrest hm]

/-- Where names are distinct, what is found under a name is what stands beside it. -/
theorem get?_eq_some_iff {ms : Members α} (h : ms.names.Nodup) {name : String} {v : α} :
    ms.get? name = some v ↔ (name, v) ∈ ms :=
  ⟨mem_of_get?, fun hm => get?_of_mem h hm⟩

/-- Setting several names sets each to its value and leaves every other. -/
theorem get?_putAll {updates : Members α} (h : updates.names.Nodup) (ms : Members α)
    (name : String) : (ms.putAll updates).get? name = (updates.get? name).or (ms.get? name) := by
  induction updates generalizing ms with
  | nil => rfl
  | cons u updates ih =>
    obtain ⟨k, v⟩ := u
    obtain ⟨hnew, hrest⟩ := List.nodup_cons.mp h
    show ((ms.put k v).putAll updates).get? name = _
    rw [ih hrest, get?_put, get?_cons]
    split
    · next heq =>
      subst heq
      rw [get?_eq_none hnew]
      rfl
    · rfl

/-! ## Setting -/

/-- A name that is new is put at the end. -/
theorem put_of_not_mem {ms : Members α} {name : String} (h : name ∉ ms.names) (v : α) :
    ms.put name v = ms ++ [(name, v)] := by
  induction ms with
  | nil => rfl
  | cons m ms ih =>
    obtain ⟨k, w⟩ := m
    simp only [names, List.map_cons, List.mem_cons, not_or] at h
    rw [put, if_neg (Ne.symm h.1), ih h.2, List.cons_append]

/-- Setting a name to what it is changes nothing. -/
theorem put_of_get? {ms : Members α} {name : String} {v : α} (h : ms.get? name = some v) :
    ms.put name v = ms := by
  induction ms with
  | nil => cases h
  | cons m ms ih =>
    rw [get?_cons] at h
    rw [put]
    split at h
    · next hname =>
      rw [if_pos hname, ← Option.some.inj h]
    · next hname =>
      rw [if_neg hname, ih h]

theorem nodup_names_put {ms : Members α} (h : ms.names.Nodup) (name : String) (v : α) :
    (ms.put name v).names.Nodup := by
  rw [names_put]
  split
  · exact h
  · next hnew => simpa using List.Nodup.concat hnew h

theorem mem_put {m : Members α} {name : String} {v : α} {e : String × α}
    (h : e ∈ put m name v) : e ∈ m ∨ e = (name, v) := by
  induction m with
  | nil => exact Or.inr (List.mem_singleton.mp h)
  | cons f r ih =>
    unfold put at h
    split at h
    · next hname =>
      rcases List.mem_cons.mp h with rfl | hr
      · exact Or.inr (by rw [← hname])
      · exact Or.inl (List.mem_cons_of_mem _ hr)
    · rcases List.mem_cons.mp h with rfl | hr
      · exact Or.inl List.mem_cons_self
      · exact (ih hr).imp_left (List.mem_cons_of_mem _)

/-- Members are some of the pairs that they are made from. -/
theorem mem_ofPairs {pairs : List (String × α)} {e : String × α} (h : e ∈ ofPairs pairs) :
    e ∈ pairs := by
  suffices hall : ∀ e ∈ ofPairs pairs, e ∈ pairs from hall e h
  unfold ofPairs putAll
  refine List.foldlRecOn (motive := fun m => ∀ e ∈ m, e ∈ pairs) pairs _ (by simp) ?_
  intro m hm f hf e he
  rcases mem_put he with he | rfl
  · exact hm e he
  · exact hf

/-- Members that are made from pairs have each name once. -/
theorem nodup_names_ofPairs (pairs : List (String × α)) : (names (ofPairs pairs)).Nodup := by
  unfold ofPairs putAll
  exact List.foldlRecOn (motive := fun m : Members α => (names m).Nodup) pairs _ List.nodup_nil
    fun _ hm e _ => nodup_names_put hm e.1 e.2

/-- Members with distinct names are made from themselves. -/
theorem ofPairs_of_nodup {ms : Members α} (h : ms.names.Nodup) : ofPairs ms = ms := by
  suffices hall : ∀ acc : Members α, (acc.names ++ ms.names).Nodup → acc.putAll ms = acc ++ ms from
    hall [] h
  clear h
  induction ms with
  | nil => simp [putAll]
  | cons m ms ih =>
    intro acc h
    have hnew : m.1 ∉ acc.names := fun hm =>
      (List.nodup_append.mp h).2.2 m.1 hm m.1 (List.mem_cons_self) rfl
    have hrest : ((acc ++ [m]).names ++ names ms).Nodup := by simpa [names] using h
    have hput : putAll acc (m :: ms) = putAll (acc.put m.1 m.2) ms := rfl
    rw [hput, put_of_not_mem hnew, ih _ hrest, List.append_assoc, List.singleton_append]

/-- The values of distinct pairs are values of the pairs. -/
theorem mem_distinctBy {same : κ → κ → Bool} {pairs : List (κ × α)} {e : κ × α}
    (h : e ∈ distinctBy same pairs) : ∃ f ∈ pairs, e.2 = f.2 := by
  suffices hall : ∀ e ∈ distinctBy same pairs, ∃ f ∈ pairs, e.2 = f.2 from hall e h
  unfold distinctBy
  refine List.foldlRecOn (motive := fun acc : List (κ × α) => ∀ e ∈ acc, ∃ f ∈ pairs, e.2 = f.2)
    pairs _ (by simp) ?_
  intro acc hacc f hf e he
  split at he
  · obtain ⟨old, hold, rfl⟩ := List.mem_map.mp he
    split
    · exact ⟨f, hf, rfl⟩
    · exact hacc old hold
  · rcases List.mem_append.mp he with he | he
    · exact hacc e he
    · exact ⟨f, hf, by rw [List.mem_singleton.mp he]⟩

end MailRules.Members
