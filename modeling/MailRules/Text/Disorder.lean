import MailRules.Text.Blank
import MailRules.Text.Mark
import MailRules.Text.Printable

set_option autoImplicit false

/-!
# Disorder

Bytes that are read in the wrong encoding give a text that hardly looks like one: full of characters
that cannot be shown, and of marks. `disorder` is how much of that there is in a text, in
thousandths; a text in which it reaches `disorderLimit` is taken for a wrong reading.
-/

namespace MailRules.Text

/-- The characters of a text that were counted. -/
structure Sample where
  all : Nat := 0
  /-- Those that cannot be shown. -/
  hidden : Nat := 0
  /-- Those that show as themselves. -/
  shown : Nat := 0
  /-- The weight of the marks among these. -/
  marks : Nat := 0
  /-- The last one that shows as itself. -/
  last : Option Char := none
  deriving Repr, DecidableEq

namespace Sample

/-- Marks that are common in documents. -/
def commonMarks : List Char :=
  "<>=:/&;\x7b\x7d[],|\"-()".toList

/-- The weight of a character as a mark: common ones and repeated ones have none. -/
def weight (last : Option Char) (c : Char) : Nat :=
  if last = some c || commonMarks.contains c then 0
  else if isPunctuation c then 1
  else if isSymbol c then 2
  else 0

/-- Whether a character cannot be shown. Blanks can, and so can the substitute for a character that
is missing and the mark of the byte order. -/
def isHidden (c : Char) : Bool :=
  !isPrintable c && !isBlank c && c ≠ '\x1a' && c ≠ '\ufeff'

/-- Counts a character. -/
def count (t : Sample) (c : Char) : Sample :=
  if isPrintable c then
    { t with
      all := t.all + 1
      shown := t.shown + 1
      marks := t.marks + weight t.last c
      last := some c }
  else { t with all := t.all + 1, hidden := t.hidden + if isHidden c then 1 else 0 }

/-- The disorder among characters as a quotient: eight times the share of those that cannot be
shown, and the share of marks among the others if it is not small. -/
def quotient (t : Sample) : Nat × Nat :=
  let all := max 1 t.all
  let shown := max 1 t.shown
  let marks := if 3 * shown ≤ 10 * t.marks then t.marks else 0
  (8 * t.hidden * shown + marks * all, all * shown)

/-- The disorder among characters in thousandths. -/
def thousandths (t : Sample) : Nat :=
  (2000 * t.quotient.1 + t.quotient.2) / (2 * t.quotient.2)

end Sample

/-- From how many thousandths on disorder makes a text unlikely. -/
def disorderLimit : Nat := 200

/-- Counts characters after so many others; every so often the count stops if there is too much
disorder. -/
def sample (every : Nat) (t : Sample) (before : Nat) : List Char → Sample
  | [] => t
  | c :: r =>
    let t := t.count c
    let isOver := disorderLimit * t.quotient.2 ≤ 1000 * t.quotient.1
    if 0 < before && before % every = 0 && isOver then t else sample every t (before + 1) r

/-- The disorder in a text, in thousandths. The end of its last line counts as a character. -/
def disorder (cs : List Char) : Nat :=
  let length := cs.length + 1
  let every := if length < 512 then 32 else if length ≤ 1024 then 64 else 128
  (sample every {} 0 (cs ++ ['\n'])).thousandths

example : disorder "\x7b\x7d".toList = 0 := by decide +kernel
example : disorder "1.5".toList = 333 := by decide +kernel
example : disorder "\x7b\x7d\x00\x00".toList = 3200 := by decide +kernel

end MailRules.Text
