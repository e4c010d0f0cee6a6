set_option autoImplicit false

/-!
# Segments

Taking a text apart at a character, putting parts together around a separator, and finding one
text inside another. `segments` and `join` undo each other (`join_segments`).
-/

namespace MailRules.Text

/-- The parts of a text between occurrences of a character; there is always at least one. -/
def segments (sep : Char) : List Char → List (List Char)
  | [] => [[]]
  | c :: r =>
    if c = sep then [] :: segments sep r
    else
      match segments sep r with
      | [] => [[c]]
      | s :: ss => (c :: s) :: ss

/-- Parts written one after the other with a separator in between. -/
def join (sep : List Char) : List (List Char) → List Char
  | [] => []
  | [s] => s
  | s :: t :: ss => s ++ sep ++ join sep (t :: ss)

theorem segments_ne_nil (sep : Char) (s : List Char) : segments sep s ≠ [] := by
  cases s with
  | nil => simp [segments]
  | cons c r =>
    unfold segments
    split
    · simp
    · split <;> simp

/-- Joining the segments at a character gives the text back. -/
theorem join_segments (sep : Char) (s : List Char) : join [sep] (segments sep s) = s := by
  induction s with
  | nil => rfl
  | cons c r ih =>
    unfold segments
    split
    · rename_i h
      subst h
      cases hs : segments c r with
      | nil => exact absurd hs (segments_ne_nil c r)
      | cons t ts => rw [hs] at ih; simp [join, ih]
    · split
      · rename_i hs
        exact absurd hs (segments_ne_nil sep r)
      · rename_i t ts hs
        rw [hs] at ih
        cases ts with
        | nil => simp_all [join]
        | cons u us => simp_all [join]

/-- Whether `x` is found somewhere in the text. -/
def occursIn (x : List Char) : List Char → Bool
  | [] => x.isEmpty
  | c :: r => x.isPrefixOf (c :: r) || occursIn x r

/-- Being found in a text is being a stretch of it. -/
theorem occursIn_iff {x s : List Char} : occursIn x s = true ↔ x <:+: s := by
  induction s with
  | nil => cases x <;> simp [occursIn]
  | cons c r ih =>
    simp only [occursIn, Bool.or_eq_true, ih, List.isPrefixOf_iff_prefix, List.infix_cons_iff]

/-- Whether the string `x` is found in the string `s`. -/
def includes (s x : String) : Bool :=
  occursIn x.toList s.toList

/-- The parts of a string joined around a separator. -/
def joinWith (sep : String) (parts : List String) : String :=
  String.ofList (join sep.toList (parts.map String.toList))

/-- Splits a text at the first occurrence of a character, which belongs to neither part. -/
def cutAt (sep : Char) (s : List Char) : Option (List Char × List Char) :=
  match s.dropWhile (· ≠ sep) with
  | [] => none
  | _ :: r => some (s.takeWhile (· ≠ sep), r)

/-- Every carriage return, alone or before a line feed, becomes one line feed. -/
def unifyLineEnds : List Char → List Char
  | [] => []
  | '\r' :: '\n' :: r => '\n' :: unifyLineEnds r
  | '\r' :: r => '\n' :: unifyLineEnds r
  | c :: r => c :: unifyLineEnds r

example : segments '.' "a..b".toList = ["a".toList, [], "b".toList] := by decide
example : cutAt '@' "a@b@c".toList = some ("a".toList, "b@c".toList) := by decide

end MailRules.Text
