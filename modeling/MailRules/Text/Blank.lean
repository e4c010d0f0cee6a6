set_option autoImplicit false

/-!
# Blanks

The blank characters of all scripts, among them the four information separators U+001C–U+001F and
the no-break spaces, and the two operations that look at them: trimming a text at both ends, and
splitting it into words.
-/

namespace MailRules.Text

/-- Whether a character is blank. -/
def isBlank (c : Char) : Bool :=
  let n := c.toNat
  n == 32 || (9 ≤ n && n ≤ 13) || (28 ≤ n && n ≤ 31) || n == 0x85 || n == 0xa0 || n == 0x1680 ||
    (0x2000 ≤ n && n ≤ 0x200a) || n == 0x2028 || n == 0x2029 || n == 0x202f || n == 0x205f ||
    n == 0x3000

/-- Every blank of the usual sort is a blank. -/
theorem isBlank_of_isWhitespace {c : Char} (h : c.isWhitespace = true) : isBlank c = true := by
  simp only [Char.isWhitespace, Bool.or_eq_true, decide_eq_true_eq] at h
  rcases h with ((rfl | rfl) | rfl) | rfl <;> decide

/-- Drops the characters of a class from the start of a text. -/
def stripStart (p : Char → Bool) (s : List Char) : List Char :=
  s.dropWhile p

/-- Drops the characters of a class from the end of a text. -/
def stripEnd (p : Char → Bool) : List Char → List Char
  | [] => []
  | c :: r =>
    match stripEnd p r with
    | [] => if p c then [] else [c]
    | t => c :: t

/-- Drops the characters of a class from both ends of a text. -/
def strip (p : Char → Bool) (s : List Char) : List Char :=
  stripEnd p (stripStart p s)

/-- A text without the blanks at its ends. -/
def trim (s : List Char) : List Char :=
  strip isBlank s

/-- The longest stretches of a text that hold no blank, in order. -/
def words : List Char → List (List Char)
  | [] => []
  | c :: r =>
    if isBlank c then words r
    else
      match r, words r with
      | [], _ => [[c]]
      | _ :: _, [] => [[c]]
      | d :: _, w :: ws => if isBlank d then [c] :: w :: ws else (c :: w) :: ws

/-- Whether a text has nothing but blanks. -/
def isBlankText (s : String) : Bool :=
  s.toList.all isBlank

/-- Applies a function on characters to a string. -/
def mapText (f : List Char → List Char) (s : String) : String :=
  String.ofList (f s.toList)

@[simp] theorem toList_mapText (f : List Char → List Char) (s : String) :
    (mapText f s).toList = f s.toList := by
  simp [mapText]

@[simp] theorem stripEnd_nil (p : Char → Bool) : stripEnd p [] = [] := rfl

@[simp] theorem trim_nil : trim [] = [] := rfl

example : trim " \t a b\u00a0\n".toList = "a b".toList := by decide
example : words " a\u2003bc  d ".toList = ["a".toList, "bc".toList, "d".toList] := by decide
example : words "  ".toList = [] := by decide

end MailRules.Text
