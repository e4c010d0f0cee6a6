import Mathlib.Data.List.Forall2
import MailRules.Store.Tables

set_option autoImplicit false

/-!
# Numbered rows

As long as ranks are given out by counting, the rows of a table have whole numbers as ranks, which
grow from row to row and are at most the last one given out (`Numbered`). Then the rows from the
newest on are the rows from the last on (`newestFirst_of_numbered`), and counting goes on from the
greatest rank of all rows when a store is opened on tables (`lastRank_of_numbered`).

`RowsAlike` compares two tables that may have got their ranks at different counts.
-/

namespace MailRules.Store

variable {α : Type}

/-- Rows whose ranks are positive whole numbers up to `last`, each greater than those before. -/
def Numbered (last : Int) (rows : List (Row α)) : Prop :=
  ∃ ns : List Int, rows.map Row.rank = ns.map Rank.whole ∧ ns.Pairwise (· < ·) ∧
    ∀ n ∈ ns, 0 < n ∧ n ≤ last

theorem numbered_nil (last : Int) : Numbered last ([] : List (Row α)) :=
  ⟨[], rfl, List.Pairwise.nil, by simp⟩

theorem Numbered.mono {last later : Int} {rows : List (Row α)} (h : Numbered last rows)
    (hle : last ≤ later) : Numbered later rows := by
  obtain ⟨ns, hns, hpair, hbound⟩ := h
  exact ⟨ns, hns, hpair, fun n hn => ⟨(hbound n hn).1, Int.le_trans (hbound n hn).2 hle⟩⟩

theorem Numbered.sublist {last : Int} {rows rest : List (Row α)} (h : Numbered last rows)
    (hsub : rest.Sublist rows) : Numbered last rest := by
  obtain ⟨ns, hns, hpair, hbound⟩ := h
  have hranks : (rest.map Row.rank).Sublist (ns.map Rank.whole) := hns ▸ hsub.map Row.rank
  obtain ⟨ms, hms, heq⟩ := List.sublist_map_iff.mp hranks
  exact ⟨ms, heq, hpair.sublist hms, fun n hn => hbound n (hms.subset hn)⟩

/-- A row with the next rank goes to the end. -/
theorem Numbered.push {last : Int} {rows : List (Row α)} (h : Numbered last rows)
    (hlast : 0 ≤ last) (v : α) : Numbered (last + 1) (rows ++ [⟨.whole (last + 1), v⟩]) := by
  obtain ⟨ns, hns, hpair, hbound⟩ := h
  refine ⟨ns ++ [last + 1], by simp [hns], ?_, ?_⟩
  · refine List.pairwise_append.mpr ⟨hpair, List.pairwise_singleton _ _, ?_⟩
    intro a ha b hb
    rw [List.mem_singleton] at hb
    have := (hbound a ha).2
    omega
  · intro n hn
    rcases List.mem_append.mp hn with hn | hn
    · have := hbound n hn
      omega
    · rw [List.mem_singleton] at hn
      omega

/-- The rank of a numbered row. -/
theorem Numbered.rank_eq {last : Int} {rows : List (Row α)} (h : Numbered last rows)
    {row : Row α} (hrow : row ∈ rows) : ∃ n, row.rank = .whole n ∧ 0 < n ∧ n ≤ last := by
  obtain ⟨ns, hns, -, hbound⟩ := h
  have hmem : row.rank ∈ ns.map Rank.whole := hns ▸ List.mem_map_of_mem hrow
  obtain ⟨n, hn, heq⟩ := List.mem_map.mp hmem
  exact ⟨n, heq.symm, hbound n hn⟩

/-- The newest rows are the last ones. -/
theorem newestFirst_of_numbered {last : Int} {rows : List (Row α)} (h : Numbered last rows) :
    newestFirst rows = (rows.map Row.value).reverse := by
  obtain ⟨ns, hns, hpair, -⟩ := h
  have hranks : (rows.map Row.rank).Pairwise fun a b => a.le b = true := by
    rw [hns, List.pairwise_map]
    exact hpair.imp fun hlt => by simp [Rank.le_whole, Int.le_of_lt hlt]
  have hsorted : rows.reverse.Pairwise fun a b => b.rank.le a.rank = true :=
    List.pairwise_reverse.mpr (List.pairwise_map.mp hranks)
  rw [newestFirst, List.mergeSort_of_pairwise hsorted, List.map_reverse]

/-- Which rows are the newest does not depend on how far they have been counted. -/
theorem newestFirst_of_values {m n : Int} {xs ys : List (Row α)} (hx : Numbered m xs)
    (hy : Numbered n ys) (h : xs.map Row.value = ys.map Row.value) :
    newestFirst xs = newestFirst ys := by
  rw [newestFirst_of_numbered hx, newestFirst_of_numbered hy, h]

/-! ## Opening a store again -/

/-- The greatest of whole numbers is one of them. -/
theorem greatest?_whole (ns : List Int) :
    (ns = [] ∧ Rank.greatest? (ns.map Rank.whole) = none) ∨
      ∃ m ∈ ns, Rank.greatest? (ns.map Rank.whole) = some (.whole m) ∧ ∀ n ∈ ns, n ≤ m := by
  induction ns with
  | nil => exact Or.inl ⟨rfl, rfl⟩
  | cons n ns ih =>
    refine Or.inr ?_
    rcases ih with ⟨rfl, hnone⟩ | ⟨m, hm, hsome, hmax⟩
    · exact ⟨n, List.mem_cons_self, by simp [Rank.greatest?], by simp⟩
    · by_cases hle : n ≤ m
      · refine ⟨m, List.mem_cons_of_mem n hm, by simp [Rank.greatest?, hsome, hle], ?_⟩
        simpa [hle] using hmax
      · refine ⟨n, List.mem_cons_self, by simp [Rank.greatest?, hsome, hle], ?_⟩
        intro k hk
        rcases List.mem_cons.mp hk with rfl | hk
        · exact Int.le_refl k
        · exact Int.le_trans (hmax k hk) (by omega)

/-- Counting goes on from zero or from the rank of a row, which none exceeds. -/
theorem lastRank_of_numbered {t : Tables} {last : Int} (hr : Numbered last t.rules)
    (he : Numbered last t.events) :
    ∃ m, t.lastRank = .whole m ∧ 0 ≤ m ∧ Numbered m t.rules ∧ Numbered m t.events ∧
      (m = 0 ∨ Rank.whole m ∈ t.rules.map Row.rank ++ t.events.map Row.rank) := by
  obtain ⟨ns, hns, hnpair, hnpos⟩ := hr
  obtain ⟨ks, hks, hkpair, hkpos⟩ := he
  -- rules and events share one count
  have hall : t.rules.map Row.rank ++ t.events.map Row.rank = (ns ++ ks).map Rank.whole := by
    rw [hns, hks, List.map_append]
  unfold Tables.lastRank
  rw [hall]
  rcases greatest?_whole (ns ++ ks) with ⟨hnil, hnone⟩ | ⟨m, hm, hsome, hmax⟩
  · obtain ⟨rfl, rfl⟩ := List.append_eq_nil_iff.mp hnil
    exact ⟨0, by simp [Rank.greatest?, Rank.start], Int.le_refl 0, ⟨[], hns, hnpair, by simp⟩,
      ⟨[], hks, hkpair, by simp⟩, Or.inl rfl⟩
  · have hpos : 0 < m := by
      rcases List.mem_append.mp hm with hm | hm
      · exact (hnpos m hm).1
      · exact (hkpos m hm).1
    refine ⟨m, by rw [hsome]; rfl, Int.le_of_lt hpos,
      ⟨ns, hns, hnpair, fun n hn => ⟨(hnpos n hn).1, ?_⟩⟩,
      ⟨ks, hks, hkpair, fun n hn => ⟨(hkpos n hn).1, ?_⟩⟩, Or.inr (List.mem_map_of_mem hm)⟩
    · exact hmax n (List.mem_append_left ks hn)
    · exact hmax n (List.mem_append_right ns hn)

/-! ## Tables numbered at different counts -/

/-- Rows of equal values in the same order, of which those of the second table have whole ranks that
are at least as great. -/
def RowsAlike (xs ys : List (Row α)) : Prop :=
  List.Forall₂ (fun x y => x.value = y.value ∧
    ∃ m n : Int, x.rank = .whole m ∧ y.rank = .whole n ∧ m ≤ n) xs ys

theorem RowsAlike.map_value {xs ys : List (Row α)} (h : RowsAlike xs ys) :
    xs.map Row.value = ys.map Row.value := by
  induction h with
  | nil => rfl
  | cons hxy _ ih => rw [List.map_cons, List.map_cons, hxy.1, ih]

theorem RowsAlike.refl {last : Int} {rows : List (Row α)} (h : Numbered last rows) :
    RowsAlike rows rows := by
  refine List.forall₂_same.mpr fun row hrow => ⟨rfl, ?_⟩
  obtain ⟨n, hn, -⟩ := h.rank_eq hrow
  exact ⟨n, n, hn, hn, Int.le_refl n⟩

theorem RowsAlike.push {xs ys : List (Row α)} (h : RowsAlike xs ys) {m n : Int} (hle : m ≤ n)
    (v : α) : RowsAlike (xs ++ [⟨.whole m, v⟩]) (ys ++ [⟨.whole n, v⟩]) :=
  List.rel_append h (List.Forall₂.cons ⟨rfl, m, n, rfl, rfl, hle⟩ List.Forall₂.nil)

theorem RowsAlike.filter {xs ys : List (Row α)} (h : RowsAlike xs ys) (keep : α → Bool) :
    RowsAlike (xs.filter fun x => keep x.value) (ys.filter fun y => keep y.value) :=
  List.rel_filter (fun {_ _} hxy => iff_of_eq (congrArg (fun v => keep v = true) hxy.1)) h

/-- A rank of the first table is at most one of the second. -/
theorem RowsAlike.exists_rank {xs ys : List (Row α)} (h : RowsAlike xs ys) {m : Int}
    (hm : Rank.whole m ∈ xs.map Row.rank) : ∃ n, m ≤ n ∧ Rank.whole n ∈ ys.map Row.rank := by
  induction h with
  | nil => cases hm
  | cons hxy _ ih =>
    rw [List.map_cons] at hm ⊢
    obtain ⟨-, a, b, ha, hb, hab⟩ := hxy
    rcases List.mem_cons.mp hm with hm | hm
    · rw [ha, Rank.whole.injEq] at hm
      exact ⟨b, hm ▸ hab, by rw [hb]; exact List.mem_cons_self⟩
    · obtain ⟨n, hmn, hn⟩ := ih hm
      exact ⟨n, hmn, List.mem_cons_of_mem _ hn⟩

end MailRules.Store
