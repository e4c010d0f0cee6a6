import MailRules.Proofs.Text.Lower
import MailRules.Text.Blank

set_option autoImplicit false

/-!
# Texts in lower case

Lowercasing a text that is in lower case already changes nothing (`lower_lower`). On single
characters this is a fact about the table of shifts, no run of which leads to a code that another
one moves (`lowerShifts_avoid`). In a lowercased text no capital sigma is left, so what stands
around a character has no say any more.

Blanks are neither made nor lost (`isLow_of_mem_lowerChar`), so that a lowercased text begins and
ends with a blank exactly where the text itself does.
-/

namespace MailRules.Text

/-! ## Where shifts lead -/

/-- Where the first code of a run moves to. -/
def Shift.start (s : Shift) : Nat :=
  (s.first + s.distance).toNat

/-- Whether a run holds no code from `low` to `high`, of which only every second one counts if
`sparse` is set. -/
def Shift.isClearOf (low high : Nat) (sparse : Bool) (t : Shift) : Bool :=
  high.blt t.first || t.last.blt low || (sparse && t.stride == 2 && (low + t.first) % 2 == 1)

/-- Whether no code of a run moves to one that is moved itself. -/
def Shift.avoidsAll (s : Shift) : Bool :=
  lowerShifts.all (Shift.isClearOf s.start (s.start + (s.last - s.first))
    (s.stride == 2 || s.first == s.last))

theorem lowerShifts_avoid : lowerShifts.all Shift.avoidsAll = true := by
  decide +kernel

/-- The codes past the letter Z of blanks and of the two letters that no shift is for. -/
def specialCodes : List Nat :=
  [0x85, 0xa0, 0x130, 0x3a3, 0x1680, 0x2000, 0x2001, 0x2002, 0x2003, 0x2004, 0x2005, 0x2006, 0x2007,
    0x2008, 0x2009, 0x200a, 0x2028, 0x2029, 0x202f, 0x205f, 0x3000]

/-- Whether a run lies past the letter Z before and after it is moved, and has no special code. -/
def Shift.isPlain (s : Shift) : Bool :=
  127 < s.first && 90 < s.start &&
    specialCodes.all fun n =>
      (n < s.first || s.last < n) && (n < s.start || s.start + (s.last - s.first) < n)

theorem lowerShifts_plain : lowerShifts.all Shift.isPlain = true := by
  decide +kernel

theorem special_of_isBlank {c : Char} (h : isBlank c = true) (hpast : 90 < c.toNat) :
    c.toNat ∈ specialCodes := by
  simp only [isBlank, Bool.or_eq_true, Bool.and_eq_true, beq_iff_eq, decide_eq_true_eq] at h
  simp only [specialCodes, List.mem_cons, List.not_mem_nil, or_false]
  omega

/-- The codes of all blanks. -/
def blankCodes : List Nat :=
  [9, 10, 11, 12, 13, 28, 29, 30, 31, 32, 0x85, 0xa0, 0x1680, 0x2000, 0x2001, 0x2002, 0x2003, 0x2004,
    0x2005, 0x2006, 0x2007, 0x2008, 0x2009, 0x200a, 0x2028, 0x2029, 0x202f, 0x205f, 0x3000]

/-- A property of all blanks, checked code by code. -/
theorem blank_forall {p : Char → Prop} (h : ∀ n ∈ blankCodes, p (Char.ofNat n)) {c : Char}
    (hc : isBlank c = true) : p c := by
  have hmem : c.toNat ∈ blankCodes := by
    simp only [isBlank, Bool.or_eq_true, Bool.and_eq_true, beq_iff_eq, decide_eq_true_eq] at hc
    simp only [blankCodes, List.mem_cons, List.not_mem_nil, or_false]
    omega
  have hcode := h c.toNat hmem
  rwa [Char.ofNat_toNat] at hcode

/-- What is known of a code that a run holds, and of the one it moves to. -/
theorem moved_spec {s : Shift} (hs : s ∈ lowerShifts) {n : Nat} (h : s.holds n = true) :
    n ∉ specialCodes ∧ 90 < n ∧ (n + s.distance).toNat ∉ specialCodes ∧
      90 < (n + s.distance).toNat ∧ ∀ t ∈ lowerShifts, t.holds (n + s.distance).toNat = false := by
  have hplain := List.all_eq_true.mp lowerShifts_plain s hs
  have havoid := List.all_eq_true.mp lowerShifts_avoid s hs
  simp only [Shift.isPlain, Bool.and_eq_true, decide_eq_true_eq, List.all_eq_true,
    Bool.or_eq_true] at hplain
  obtain ⟨⟨hfirst, hstart⟩, hspecial⟩ := hplain
  simp only [Shift.holds, Bool.and_eq_true, decide_eq_true_eq, beq_iff_eq] at h
  obtain ⟨⟨hlow, hhigh⟩, hstride⟩ := h
  have hmoved : (n + s.distance).toNat = s.start + (n - s.first) := by
    unfold Shift.start at hstart ⊢
    omega
  refine ⟨fun hmem => ?_, by omega, fun hmem => ?_, by omega, fun t ht => ?_⟩
  · have := (hspecial n hmem).1
    omega
  · have := (hspecial _ hmem).2
    omega
  · have hclear := List.all_eq_true.mp havoid t ht
    simp only [Shift.isClearOf, Bool.or_eq_true, Bool.and_eq_true, Nat.blt_eq, beq_iff_eq] at hclear
    rw [← Bool.not_eq_true]
    intro hholds
    simp only [Shift.holds, Bool.and_eq_true, decide_eq_true_eq, beq_iff_eq] at hholds
    obtain ⟨⟨htlow, hthigh⟩, htstride⟩ := hholds
    -- within the bounds of the other run, only the turns of second codes are left
    rcases hclear with (hclear | hclear) | ⟨⟨hsparse, htwo⟩, hodd⟩
    · omega
    · omega
    · rw [htwo] at htstride
      rcases hsparse with hsparse | hsingle
      · rw [hsparse] at hstride
        omega
      · omega

/-! ## Single characters -/

/-- A character that is its own lower case. -/
def IsLow (c : Char) : Prop :=
  c ≠ 'Σ' ∧ lowerChar c = [c]

instance (c : Char) : Decidable (IsLow c) :=
  inferInstanceAs (Decidable (_ ∧ _))

theorem toNat_ofNat (n : Nat) : (Char.ofNat n).toNat = n ∨ Char.ofNat n = '\x00' := by
  by_cases hzero : Char.ofNat n = '\x00'
  · exact Or.inr hzero
  · exact Or.inl (toNat_eq_of_ofNat_eq rfl hzero).symm

/-- A character past the letter Z that no run moves. -/
theorem isLow_of_unmoved {c : Char} (hpast : 90 < c.toNat) (hspecial : c.toNat ∉ specialCodes)
    (hfree : ∀ t ∈ lowerShifts, t.holds c.toNat = false) : IsLow c := by
  have hsigma : c ≠ 'Σ' := by
    rintro rfl
    exact hspecial (by decide)
  have hdotted : c ≠ 'İ' := by
    rintro rfl
    exact hspecial (by decide)
  refine ⟨hsigma, ?_⟩
  unfold lowerChar
  by_cases hascii : c.toNat < 128
  · have hlower : 90 < c.toNat → [c.toLower] = [c] :=
      ascii_forall (p := fun c => 90 < c.toNat → [c.toLower] = [c]) (by decide +kernel) c hascii
    rw [if_pos hascii, hlower hpast]
  · have hnone : lowerShifts.find? (·.holds c.toNat) = none := by
      rw [List.find?_eq_none]
      intro t ht
      simp [hfree t ht]
    rw [if_neg hascii, if_neg (by simpa using hdotted), if_neg (by simpa using hsigma), shiftedBy,
      hnone]

theorem isLow_shiftedBy {c : Char} (hascii : ¬c.toNat < 128) (hdotted : c ≠ 'İ') (hsigma : c ≠ 'Σ') :
    IsLow (shiftedBy lowerShifts c) ∧ isBlank (shiftedBy lowerShifts c) = isBlank c := by
  cases hfind : lowerShifts.find? (·.holds c.toNat) with
  | none =>
    have hsame : shiftedBy lowerShifts c = c := by
      rw [shiftedBy, hfind]
    rw [hsame]
    refine ⟨⟨hsigma, ?_⟩, rfl⟩
    rw [lowerChar, if_neg hascii, if_neg (by simpa using hdotted), if_neg (by simpa using hsigma),
      hsame]
  | some s =>
    have hholds : s.holds c.toNat = true := by simpa using List.find?_some hfind
    obtain ⟨hspecial, hpast, hspecial', hpast', hfree⟩ :=
      moved_spec (List.mem_of_find?_eq_some hfind) hholds
    have hmoved : shiftedBy lowerShifts c = Char.ofNat (c.toNat + s.distance).toNat := by
      rw [shiftedBy, hfind]
    have hblank : isBlank c = false := by
      rw [← Bool.not_eq_true]
      exact fun hblank => hspecial (special_of_isBlank hblank hpast)
    rw [hmoved, hblank]
    -- a code that no character has would stand for the null character
    rcases toNat_ofNat (c.toNat + s.distance).toNat with hcode | hzero
    · rw [← hcode] at hspecial' hpast' hfree
      refine ⟨isLow_of_unmoved hpast' hspecial' hfree, ?_⟩
      rw [← Bool.not_eq_true]
      exact fun hblank => hspecial' (special_of_isBlank hblank hpast')
    · rw [hzero]
      decide +kernel

/-- What `İ` becomes after its `i`, and what a capital sigma becomes. -/
theorem isLow_letters {c : Char} (h : c ∈ ['\u0307', 'σ', 'ς']) : IsLow c ∧ isBlank c = false := by
  have hall : ['\u0307', 'σ', 'ς'].all (fun c => 90 < c.toNat && !specialCodes.contains c.toNat &&
      !isBlank c && lowerShifts.all fun t => !t.holds c.toNat) = true := by
    decide +kernel
  have hc := List.all_eq_true.mp hall c h
  simp only [Bool.and_eq_true, decide_eq_true_eq, Bool.not_eq_true', List.all_eq_true] at hc
  obtain ⟨⟨⟨hpast, hspecial⟩, hblank⟩, hfree⟩ := hc
  exact ⟨isLow_of_unmoved hpast (by simpa using hspecial) hfree, hblank⟩

/-- The lower case of a character is in lower case, and blank if the character is. -/
theorem isLow_of_mem_lowerChar {c d : Char} (h : d ∈ lowerChar c) :
    IsLow d ∧ isBlank d = isBlank c := by
  unfold lowerChar at h
  split at h
  · rename_i hascii
    obtain rfl := List.mem_singleton.mp h
    exact ascii_forall (p := fun c => IsLow c.toLower ∧ isBlank c.toLower = isBlank c)
      (by decide +kernel) c hascii
  · rename_i hascii
    split at h
    · rename_i hdotted
      obtain rfl : c = 'İ' := by simpa using hdotted
      rcases List.mem_cons.mp h with rfl | h
      · decide +kernel
      · obtain rfl := List.mem_singleton.mp h
        exact isLow_letters (by simp)
    · rename_i hdotted
      split at h
      · rename_i hsigma
        obtain rfl : c = 'Σ' := by simpa using hsigma
        obtain rfl := List.mem_singleton.mp h
        exact isLow_letters (by simp)
      · rename_i hsigma
        obtain rfl := List.mem_singleton.mp h
        exact isLow_shiftedBy hascii (by simpa using hdotted) (by simpa using hsigma)

/-! ## Whole texts -/

/-- The first character of a text becomes one or more, which the rest of the text follows. -/
theorem lowerAfter_cons (cased : Bool) (c : Char) (s : List Char) :
    ∃ ds cased', lowerAfter cased (c :: s) = ds ++ lowerAfter cased' s ∧ ds ≠ [] ∧
      ∀ d ∈ ds, IsLow d ∧ isBlank d = isBlank c ∧ (d = '@' → c = '@') := by
  by_cases hsigma : (c == 'Σ') = true
  · obtain rfl : c = 'Σ' := by simpa using hsigma
    refine ⟨_, _, rfl, List.cons_ne_nil _ _, ?_⟩
    rw [if_pos hsigma]
    intro d hd
    have hmem : d ∈ ['\u0307', 'σ', 'ς'] := by
      split at hd
      all_goals
        obtain rfl := List.mem_singleton.mp hd
        simp
    obtain ⟨hlow, hblank⟩ := isLow_letters hmem
    exact ⟨hlow, hblank, fun hat => absurd (hat ▸ hmem) (by decide)⟩
  · refine ⟨lowerChar c, _, by rw [lowerAfter, if_neg hsigma], (lowerChar_spec c).1, ?_⟩
    intro d hd
    obtain ⟨hlow, hblank⟩ := isLow_of_mem_lowerChar hd
    exact ⟨hlow, hblank, fun hat => (lowerChar_spec c).2 (hat ▸ hd)⟩

/-- What a character of a lowercased text comes of. -/
theorem mem_lowerAfter {cased : Bool} {s : List Char} {d : Char} (h : d ∈ lowerAfter cased s) :
    IsLow d ∧ ∃ c ∈ s, isBlank d = isBlank c ∧ (d = '@' → c = '@') := by
  induction s generalizing cased with
  | nil => cases h
  | cons c s ih =>
    obtain ⟨ds, cased', heq, -, hds⟩ := lowerAfter_cons cased c s
    rw [heq, List.mem_append] at h
    rcases h with hhead | htail
    · obtain ⟨hlow, hfrom⟩ := hds d hhead
      exact ⟨hlow, c, List.mem_cons_self, hfrom⟩
    · obtain ⟨hlow, b, hb, hfrom⟩ := ih htail
      exact ⟨hlow, b, List.mem_cons_of_mem c hb, hfrom⟩

theorem isLow_of_mem_lowerAfter {cased : Bool} {s : List Char} {d : Char}
    (h : d ∈ lowerAfter cased s) : IsLow d :=
  (mem_lowerAfter h).1

/-- A text in lower case is its own lower case, whatever stands before it. -/
theorem lowerAfter_of_low {s : List Char} (h : ∀ c ∈ s, IsLow c) (cased : Bool) :
    lowerAfter cased s = s := by
  induction s generalizing cased with
  | nil => rfl
  | cons c s ih =>
    obtain ⟨⟨hsigma, hlow⟩, hrest⟩ := List.forall_mem_cons.mp h
    rw [lowerAfter, if_neg (by simpa using hsigma), hlow, ih hrest, List.singleton_append]

/-- Lowercasing twice is lowercasing once. -/
@[simp] theorem lower_lower (s : List Char) : lower (lower s) = lower s :=
  lowerAfter_of_low (fun _ => isLow_of_mem_lowerAfter) false

/-- What a lowercased text begins with. -/
theorem head?_lower {s : List Char} {d : Char} (h : (lower s).head? = some d) :
    ∃ c, s.head? = some c ∧ isBlank d = isBlank c ∧ (d = '@' → c = '@') := by
  cases s with
  | nil => cases h
  | cons c s =>
    obtain ⟨ds, cased', heq, hne, hds⟩ := lowerAfter_cons false c s
    have hhead : ds.head? = some d := by
      rwa [lower, heq, List.head?_append, List.head?_eq_some_head hne, Option.some_or,
        ← List.head?_eq_some_head hne] at h
    exact ⟨c, rfl, (hds d (List.mem_of_head? hhead)).2⟩

/-- What a lowercased text ends with. -/
theorem getLast?_lowerAfter {cased : Bool} {s : List Char} {d : Char}
    (h : (lowerAfter cased s).getLast? = some d) :
    ∃ c, s.getLast? = some c ∧ isBlank d = isBlank c := by
  induction s generalizing cased with
  | nil => cases h
  | cons c s ih =>
    obtain ⟨ds, cased', heq, -, hds⟩ := lowerAfter_cons cased c s
    rw [heq] at h
    -- the last character comes of the first one only if no other follows
    cases s with
    | nil =>
      rw [lowerAfter, List.append_nil] at h
      exact ⟨c, rfl, (hds d (List.mem_of_getLast? h)).2.1⟩
    | cons b s =>
      obtain ⟨es, cased'', hrest, hne, -⟩ := lowerAfter_cons cased' b s
      have hnil : lowerAfter cased' (b :: s) ≠ [] := by
        rw [hrest]
        exact List.append_ne_nil_of_left_ne_nil hne _
      rw [List.getLast?_append, List.getLast?_eq_some_getLast hnil, Option.some_or,
        ← List.getLast?_eq_some_getLast hnil] at h
      rw [List.getLast?_cons_cons]
      exact ih h

end MailRules.Text
