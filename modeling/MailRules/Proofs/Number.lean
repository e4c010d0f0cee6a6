import MailRules.Number

set_option autoImplicit false

/-!
# Numbers that are kept

A column of floats keeps every float but NaN, and what it keeps of one is equal to it
(`Number.exists_stored?`): only the sign of a zero goes. A float that is at most another one is not
NaN (`beq_self_of_le`).
-/

namespace MailRules

namespace Number

open Float.Model (UnpackedFloat)

/-- Everything but NaN is equal to itself. -/
theorem compare_self {u : UnpackedFloat} (h : u ≠ .notANumber) : u.compare u = some .eq := by
  cases u with
  | notANumber => exact absurd rfl h
  | zero s => rfl
  | infinity s => cases s <;> rfl
  | finite s m e hm =>
    have hmantissa : compare m m = .eq := by simp
    have hexponent : compare e e = .eq := by simp
    -- exponents count before mantissas, and for negative numbers the other way round
    cases s with
    | positive =>
      change some ((compare e e).then (compare m m)) = some .eq
      rw [hexponent, hmantissa]
      rfl
    | negative =>
      change some ((compare e e).then (compare m m)).swap = some .eq
      rw [hexponent, hmantissa]
      rfl

/-- NaN is not at most anything, and every other float is equal to itself. -/
theorem beq_self_of_le {x y : Float} (h : x ≤ y) : (x == x) = true := by
  have hle : x.toModel.unpack.le y.toModel.unpack = true := of_decide_eq_true h
  have hnumber : x.toModel.unpack ≠ .notANumber := by
    intro hnan
    rw [hnan] at hle
    cases hle
  change (x.toModel.unpack.compare x.toModel.unpack == some .eq) = true
  rw [compare_self hnumber]
  rfl

/-- What is equal to zero is a zero of either sign. -/
theorem unpack_of_beq_zero {x : Float} (h : (x == 0) = true) :
    ∃ s, x.toModel.unpack = .zero s := by
  have hzero : (0 : Float).toModel.unpack = .zero .positive := rfl
  have hcompare : (x.toModel.unpack.compare (0 : Float).toModel.unpack == some .eq) = true := h
  rw [hzero] at hcompare
  cases hx : x.toModel.unpack with
  | zero s => exact ⟨s, rfl⟩
  | notANumber =>
    rw [hx] at hcompare
    cases hcompare
  | infinity s =>
    rw [hx] at hcompare
    cases s <;> cases hcompare
  | finite s m e hm =>
    rw [hx] at hcompare
    cases s <;> cases hcompare

/-- Zeros of either sign are equal. -/
theorem zero_beq {x : Float} (h : (x == 0) = true) : (x == 0.0) = true := by
  obtain ⟨s, hx⟩ := unpack_of_beq_zero h
  have hzero : (0.0 : Float).toModel.unpack = .zero .positive := rfl
  change (x.toModel.unpack.compare (0.0 : Float).toModel.unpack == some .eq) = true
  rw [hx, hzero]
  rfl

/-- What is kept of a float that is equal to itself is equal to it. -/
theorem exists_stored? {x : Float} (h : (x == x) = true) :
    ∃ y, stored? (.real x) = some y ∧ (x == y) = true := by
  rw [stored?, if_pos h]
  by_cases hzero : (x == 0) = true
  · exact ⟨0.0, by rw [if_pos hzero], zero_beq hzero⟩
  · exact ⟨x, by rw [if_neg hzero], h⟩

end Number

end MailRules
