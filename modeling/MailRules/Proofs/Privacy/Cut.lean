import MailRules.Proofs.Privacy.Hidden

set_option autoImplicit false

/-!
# Masking a text that has been cut

A text that is cut before it is masked may have lost the `@` of its last address, or the domain
behind it; what is left of the local part is not masked then. So lookalikes come out of a cut and
the masking after it alike only if the cut leaves them alike (`mask_cut_eq_iff`): it falls where the
texts do not differ yet, or behind the first character of the domain.

That nothing else hides a difference rests on masking being one-to-one on the beginnings of a text
(`eq_of_maskFrom_eq`).
-/

namespace MailRules.Privacy

/-! ## Masking the beginning of a text -/

/-- What is pending is local. -/
def Place.IsLocal : Place → Prop
  | .after p => ∀ c ∈ p, Privacy.isLocal c = true
  | .host => True

theorem Place.isLocal_host : Place.host.IsLocal :=
  trivial

theorem Place.isLocal_start : (Place.after []).IsLocal :=
  List.forall_mem_nil _

theorem Place.isLocal_cons {c : Char} (hc : Privacy.isLocal c = true) {p : List Char}
    (hp : (Place.after p).IsLocal) : (Place.after (c :: p)).IsLocal :=
  List.forall_mem_cons.mpr ⟨hc, hp⟩

theorem star_not_mem {l : List Char} (hl : ∀ c ∈ l, isLocal c = true) : '*' ∉ l := by
  intro hmem
  exact absurd (hl '*' hmem) (by decide)

/-- More comes out than what is pending. -/
theorem not_prefix_maskFrom {p t : List Char} (hp : ∀ c ∈ p, isLocal c = true) (ht : t ≠ []) :
    ¬maskFrom (.after p) t <+: p.reverse := by
  induction t generalizing p with
  | nil => exact absurd rfl ht
  | cons c t ih =>
    intro hbegins
    rw [maskFrom] at hbegins
    split at hbegins
    · next hc =>
      have hpending : ∀ d ∈ c :: p, isLocal d = true := List.forall_mem_cons.mpr ⟨hc, hp⟩
      have hlonger : p.reverse <+: (c :: p).reverse := by
        rw [List.reverse_cons]
        exact List.prefix_append _ _
      cases t with
      | nil =>
        have hlength := hbegins.length_le
        rw [maskFrom, List.length_reverse, List.length_reverse, List.length_cons] at hlength
        omega
      | cons d t => exact ih hpending (List.cons_ne_nil d t) (hbegins.trans hlonger)
    split at hbegins
    · -- the marker comes out, and is not pending
      have hstar : '*' ∈ p.reverse := hbegins.subset (by simp [marker])
      exact star_not_mem hp (List.mem_reverse.mp hstar)
    · have hlength := hbegins.length_le
      rw [List.length_append, List.length_cons, List.length_reverse] at hlength
      omega

/-- Only of an empty text no more comes out than what is pending. -/
theorem eq_nil_of_maskFrom_nil {place : Place} (hplace : place.IsLocal) {t : List Char}
    (h : maskFrom place t = maskFrom place []) : t = [] := by
  cases place with
  | after p =>
    have hsame : maskFrom (.after p) t = p.reverse := h
    by_contra hne
    exact not_prefix_maskFrom hplace hne (hsame ▸ List.prefix_refl _)
  | host =>
    have hnone : maskFrom .host t = [] := h
    cases t with
    | nil => rfl
    | cons c t =>
      rw [maskFrom] at hnone
      split at hnone
      · cases hnone
      split at hnone
      · obtain ⟨r, hr⟩ := maskFrom_after_concat [] c t
        rw [show maskFrom (.after [c]) t = c :: r from hr] at hnone
        cases hnone
      · cases hnone

/-- At the end of a text an `@` opens no domain, so that masking shows whether the text goes on. -/
theorem eq_nil_of_maskFrom_last {p : List Char} (hp : ∀ c ∈ p, isLocal c = true) {d : Char}
    (hd : ¬isLocal d = true) {t : List Char}
    (h : maskFrom (.after p) (d :: t) = maskFrom (.after p) [d]) : t = [] := by
  have hlast : maskFrom (.after p) [d] = p.reverse ++ [d] := by simp [maskFrom, hd]
  rw [hlast, maskFrom, if_neg hd] at h
  split at h
  · next hmatch =>
    have hat : d = '@' := by
      simp only [Bool.and_eq_true, decide_eq_true_eq] at hmatch
      exact hmatch.1.1
    have hstar : '*' ∈ p.reverse ++ [d] := by
      rw [← h]
      simp [marker]
    simp [hat, star_not_mem hp] at hstar
  · exact eq_nil_of_maskFrom_nil Place.isLocal_start
      (List.cons.inj (List.append_cancel_left h)).2

/-- Of a longer text something else comes out than of its beginning. -/
theorem eq_nil_of_maskFrom_append {place : Place} (hplace : place.IsLocal) {s t : List Char}
    (h : maskFrom place (s ++ t) = maskFrom place s) : t = [] := by
  induction s generalizing place with
  | nil => exact eq_nil_of_maskFrom_nil hplace h
  | cons d s ih =>
    rw [List.cons_append] at h
    cases place with
    | after p =>
      by_cases hd : isLocal d = true
      · rw [maskFrom, maskFrom, if_pos hd, if_pos hd] at h
        exact ih (Place.isLocal_cons hd hplace) h
      · cases s with
        | nil => exact eq_nil_of_maskFrom_last hplace hd h
        | cons e s =>
          -- what comes next in the text is the same in both
          rw [maskFrom, maskFrom, if_neg hd, if_neg hd, List.cons_append, List.head?_cons,
            List.head?_cons] at h
          split at h
          · exact ih Place.isLocal_host (List.cons.inj (List.append_cancel_left h)).2
          · exact ih Place.isLocal_start (List.cons.inj (List.append_cancel_left h)).2
    | host =>
      rw [maskFrom, maskFrom] at h
      split at h
      · exact ih Place.isLocal_host (List.cons.inj h).2
      split at h
      · next hd => exact ih (Place.isLocal_cons hd Place.isLocal_start) h
      · exact ih Place.isLocal_start (List.cons.inj h).2

/-- Of a longer text something else comes out than of a beginning of it. -/
theorem eq_of_maskFrom_eq {place : Place} (hplace : place.IsLocal) {s t : List Char}
    (hbegins : s <+: t) (h : maskFrom place s = maskFrom place t) : s = t := by
  obtain ⟨r, rfl⟩ := hbegins
  rw [eq_nil_of_maskFrom_append hplace h.symm, List.append_nil]

/-! ## An address that is cut off -/

section

variable {u l l' v : List Char} {n : Nat}

/-- The cut leaves the first character of the domain, and the address is masked. -/
theorem maskFrom_take_of_le (hne : l ≠ []) (hl : ∀ c ∈ l, isLocal c = true)
    (hv : v.head?.any isHost = true) (hn : l.length + 2 ≤ n) :
    maskFrom (.after []) ((l ++ '@' :: v).take n) =
      l.take 2 ++ marker ++ '@' :: maskFrom .host (v.take (n - (l.length + 1))) := by
  obtain ⟨m, rfl⟩ : ∃ m, n = l.length + (m + 2) := ⟨n - (l.length + 2), by omega⟩
  have hrest : l.length + (m + 2) - (l.length + 1) = m + 1 := by omega
  have hhead : (v.take (m + 1)).head?.any isHost = true := by
    cases v with
    | nil => exact hv
    | cons b v => exact hv
  rw [hrest, List.take_length_add_append, List.take_succ_cons, maskFrom_address hne hl hhead]

/-- The cut leaves nothing of the domain, and nothing is masked. -/
theorem maskFrom_take_of_lt (hl : ∀ c ∈ l, isLocal c = true) (hn : n < l.length + 2) :
    maskFrom (.after []) ((l ++ '@' :: v).take n) = (l ++ '@' :: v).take n := by
  have hat : '@' ∉ l := fun hmem => absurd (hl '@' hmem) (by decide)
  rcases Nat.lt_or_ge l.length n with hlt | hle
  · obtain rfl : n = l.length + 1 := by omega
    have hunseen : IsSeen ([].reverse ++ l) [] = false := by simp [IsSeen]
    rw [List.take_length_add_append, List.take_succ_cons, List.take_zero,
      maskFrom_unseen (by simp) hat hunseen (by simp)]
    rfl
  · rw [List.take_append_of_le_length hle,
      (maskFrom_of_no_at fun hmem => hat (List.mem_of_mem_take hmem)).1]
    rfl

/-- A marker shows that the cut leaves something of the domain. -/
theorem star_mem_maskFrom_take (hne : l ≠ []) (hl : ∀ c ∈ l, isLocal c = true)
    (hv : v.head?.any isHost = true) :
    (n < l.length + 2 ∧ '*' ∉ maskFrom (.after []) ((l ++ '@' :: v).take n)) ∨
      l.length + 2 ≤ n ∧ '*' ∈ maskFrom (.after []) ((l ++ '@' :: v).take n) := by
  rcases Nat.lt_or_ge n (l.length + 2) with hlt | hle
  · have hcut : (l ++ '@' :: v).take n = (l ++ ['@']).take n := by
      have hle : n ≤ (l ++ ['@']).length := by
        rw [List.length_append, List.length_singleton]
        omega
      rw [← List.singleton_append, ← List.append_assoc, List.take_append_of_le_length hle]
    refine Or.inl ⟨hlt, ?_⟩
    rw [maskFrom_take_of_lt hl hlt, hcut]
    intro hmem
    simpa [star_not_mem hl] using List.mem_of_mem_take hmem
  · refine Or.inr ⟨hle, ?_⟩
    rw [maskFrom_take_of_le hne hl hv hle]
    simp [marker]

theorem Lookalikes.maskFrom_take_eq_iff (h : Lookalikes u l l' v) :
    maskFrom (.after []) ((l ++ '@' :: v).take n) =
        maskFrom (.after []) ((l' ++ '@' :: v).take n) ↔
      (l ++ '@' :: v).take n = (l' ++ '@' :: v).take n ∨
        l.length + 2 ≤ n ∧ l'.length + 2 ≤ n ∧ (l.length = l'.length ∨
          (l ++ '@' :: v).length ≤ n ∧ (l' ++ '@' :: v).length ≤ n) := by
  have hlengths : (l ++ '@' :: v).length = l.length + 1 + v.length ∧
      (l' ++ '@' :: v).length = l'.length + 1 + v.length := by
    simp only [List.length_append, List.length_cons]
    omega
  constructor
  · intro heq
    rcases star_mem_maskFrom_take (n := n) h.nonempty h.user h.host with ⟨hn, hstar⟩ | ⟨hn, hstar⟩ <;>
      rcases star_mem_maskFrom_take (n := n) h.nonempty' h.user' h.host with
        ⟨hn', hstar'⟩ | ⟨hn', hstar'⟩
    · rw [maskFrom_take_of_lt h.user hn, maskFrom_take_of_lt h.user' hn'] at heq
      exact Or.inl heq
    · exact absurd (heq ▸ hstar') hstar
    · exact absurd (heq ▸ hstar) hstar'
    · -- what is left of the domain and the text behind it comes out alike, so it is the same
      rw [maskFrom_take_of_le h.nonempty h.user h.host hn,
        maskFrom_take_of_le h.nonempty' h.user' h.host hn', h.shown] at heq
      have hrest := (List.cons.inj (List.append_cancel_left heq)).2
      have htake : v.take (n - (l.length + 1)) = v.take (n - (l'.length + 1)) := by
        rcases List.prefix_or_prefix_of_prefix (List.take_prefix (n - (l.length + 1)) v)
          (List.take_prefix (n - (l'.length + 1)) v) with hbegins | hbegins
        · exact eq_of_maskFrom_eq Place.isLocal_host hbegins hrest
        · exact (eq_of_maskFrom_eq Place.isLocal_host hbegins hrest.symm).symm
      rw [List.take_eq_take_iff] at htake
      exact Or.inr ⟨hn, hn', by omega⟩
  · rintro (heq | ⟨hn, hn', hrest⟩)
    · rw [heq]
    · have htake : v.take (n - (l.length + 1)) = v.take (n - (l'.length + 1)) := by
        rw [List.take_eq_take_iff]
        omega
      rw [maskFrom_take_of_le h.nonempty h.user h.host hn,
        maskFrom_take_of_le h.nonempty' h.user' h.host hn', h.shown, htake]

/-- The same of the whole text. -/
theorem Lookalikes.maskChars_take_eq_iff (h : Lookalikes u l l' v) :
    maskChars ((u ++ (l ++ '@' :: v)).take n) = maskChars ((u ++ (l' ++ '@' :: v)).take n) ↔
      (u ++ (l ++ '@' :: v)).take n = (u ++ (l' ++ '@' :: v)).take n ∨
        u.length + l.length + 2 ≤ n ∧ u.length + l'.length + 2 ≤ n ∧ (l.length = l'.length ∨
          (u ++ (l ++ '@' :: v)).length ≤ n ∧ (u ++ (l' ++ '@' :: v)).length ≤ n) := by
  unfold maskChars
  rcases Nat.lt_or_ge n u.length with hlt | hle
  · -- the cut falls before the local parts
    have hcut (t : List Char) : (u ++ t).take n = u.take n :=
      List.take_append_of_le_length hlt.le
    rw [hcut, hcut]
    exact iff_of_true rfl (Or.inl rfl)
  · obtain ⟨m, rfl⟩ := Nat.exists_eq_add_of_le hle
    have hlength (t : List Char) : (u ++ t).length ≤ u.length + m ↔ t.length ≤ m := by
      rw [List.length_append, Nat.add_le_add_iff_left]
    simp only [List.take_length_add_append, h.apart.maskFrom_append, List.append_cancel_left_eq,
      h.maskFrom_take_eq_iff, hlength, Nat.add_assoc, Nat.add_le_add_iff_left]

end

/-- A cut leaves lookalikes alike: it falls before they differ, or behind the first character of the
domain, and then at the same distance from it or behind everything. -/
def CutAlike (n : Nat) (u l l' v : String) : Prop :=
  cut n (withAddress u l v) = cut n (withAddress u l' v) ∨
    u.length + l.length + 2 ≤ n ∧ u.length + l'.length + 2 ≤ n ∧ (l.length = l'.length ∨
      (withAddress u l v).length ≤ n ∧ (withAddress u l' v).length ≤ n)

instance (n : Nat) (u l l' v : String) : Decidable (CutAlike n u l l' v) :=
  inferInstanceAs (Decidable (_ ∨ _))

theorem toList_mask_cut (n : Nat) (u l v : String) :
    (mask (cut n (withAddress u l v))).toList =
      maskChars ((u.toList ++ (l.toList ++ '@' :: v.toList)).take n) := by
  rw [← toList_withAddress]
  simp only [mask, cut, Text.toList_mapText]

/-- Lookalikes that are cut off come out alike just if the cut leaves them alike. -/
theorem mask_cut_eq_iff {u l l' v : String}
    (h : Lookalikes u.toList l.toList l'.toList v.toList) (n : Nat) :
    mask (cut n (withAddress u l v)) = mask (cut n (withAddress u l' v)) ↔ CutAlike n u l l' v := by
  have hcut (s : String) : (cut n s).toList = s.toList.take n := Text.toList_mapText _ s
  unfold CutAlike
  rw [← String.toList_inj, ← String.toList_inj, toList_mask_cut, toList_mask_cut, hcut, hcut]
  simp only [← String.length_toList, toList_withAddress]
  exact h.maskChars_take_eq_iff

end MailRules.Privacy
