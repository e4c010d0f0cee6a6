set_option autoImplicit false

/-!
# Ranges of characters

Character classes and case maps of all scripts are tables of code ranges.

* `Range` is a run of neighbouring codes, given by its first and last;
* `Shift` is a run in which every code, or every second one, moves by the same distance.
-/

namespace MailRules.Text

/-- The first and the last code of a run. -/
abbrev Range := Nat × Nat

/-- Whether one of the runs holds the character. -/
def inRanges (ranges : List Range) (c : Char) : Bool :=
  ranges.any (fun r => r.1 ≤ c.toNat && c.toNat ≤ r.2)

/-- A run of codes `first`, `first + stride`, … up to `last`, each of which moves by `distance`. -/
structure Shift where
  first : Nat
  last : Nat
  stride : Nat
  distance : Int
  deriving Repr, DecidableEq

/-- Whether the run holds the code. -/
def Shift.holds (s : Shift) (n : Nat) : Bool :=
  s.first ≤ n && n ≤ s.last && (n - s.first) % s.stride == 0

/-- The character that the first run holding `c` moves it to, or `c` if no run does. -/
def shiftedBy (shifts : List Shift) (c : Char) : Char :=
  match shifts.find? (·.holds c.toNat) with
  | some s => Char.ofNat (c.toNat + s.distance).toNat
  | none => c

end MailRules.Text
