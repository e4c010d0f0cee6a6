import MailRules.Decimal.Reading
import MailRules.Decimal.Rounded
import MailRules.Json.Printer
import MailRules.Text.Blank

set_option autoImplicit false

/-!
# Message templates

A message may leave places for arguments: `%s` for the text of a value, `%r` and `%a` for its
display, `%d`, `%x` and `%o` for whole numbers, `%f`, `%e` and `%g` for numbers with places after
the point, with an exponent, or with whichever of the two is shorter, `%c` for a character, and `%%`
for a percent sign. Between the sign and the letter may stand the name of an argument in
parentheses, flags, a least width and a precision; a star in place of either takes it from an
argument.

A template is filled only if its arguments fit: every place takes one that it can show, and none is
left over.
-/

namespace MailRules.Log

/-- What a template is filled with. -/
inductive Arguments
  /-- One value a place. -/
  | positions (vs : List Json)
  /-- Values by name; naming one makes it the value that is taken next. -/
  | names (ms : Members Json) (chosen : Option Json)
  deriving Inhabited

namespace Arguments

/-- The arguments that a list of values stands for: one object that is not empty gives its members
by name, and itself to the first place that names none. -/
def ofList : List Json → Arguments
  | [.object (m :: ms)] => names (m :: ms) (some (.object (m :: ms)))
  | vs => positions vs

/-- Chooses the value of a name. -/
def choose? : Arguments → String → Option Arguments
  | names ms _, name => (Members.get? ms name).map fun v => names ms (some v)
  | positions _, _ => none

/-- The value that is taken next, and the arguments that are left. -/
def next? : Arguments → Option (Json × Arguments)
  | positions (v :: vs) => some (v, positions vs)
  | positions [] => none
  | names ms (some v) => some (v, names ms none)
  | names _ none => none

/-- Whether no argument is left over. -/
def isUsedUp : Arguments → Bool
  | positions vs => vs.isEmpty
  | names _ _ => true

end Arguments

namespace Template

/-- A place for an argument. -/
structure Place where
  leftward : Bool := false
  signed : Bool := false
  spaced : Bool := false
  zeros : Bool := false
  alternate : Bool := false
  width : Nat := 0
  precision : Option Nat := none
  letter : Char
  deriving Repr, DecidableEq

/-! ## Values -/

/-- The whole number that a value is: truth values count as one and zero. -/
def whole? : Json → Option Int
  | .int n => some n
  | .bool b => some (if b then 1 else 0)
  | _ => none

/-- The whole number that a value is or is rounded to toward zero. -/
def rounded? : Json → Option Int
  | .float x => Decimal.truncate? x
  | v => whole? v

/-- The float that a value is. -/
def real? : Json → Option Float
  | .float x => some x
  | v => (whole? v).bind Decimal.floatOfInt?

/-- The character that a value is or has the code of. -/
def char? : Json → Option Char
  | .str s =>
    match s.toList with
    | [c] => some c
    | _ => none
  | v => (whole? v).bind fun n =>
      if 0 ≤ n && n.toNat.isValidChar then some (Char.ofNat n.toNat) else none

/-! ## Values in places -/

/-- Text in its width. -/
def Place.pad (p : Place) (body : List Char) : List Char :=
  let fill := List.replicate (p.width - body.length) ' '
  if p.leftward then body ++ fill else fill ++ body

/-- A number in its width: sign and mark of the base first, then zeros if they are asked for. -/
def Place.number (p : Place) (negative : Bool) (mark digits : List Char) : List Char :=
  let sign := if negative then ['-'] else if p.signed then ['+'] else if p.spaced then [' '] else []
  let lead := sign ++ mark
  if p.zeros && !p.leftward then
    lead ++ List.replicate (p.width - lead.length - digits.length) '0' ++ digits
  else p.pad (lead ++ digits)

/-- A whole number in a base. -/
def Place.whole (p : Place) (base : Nat) (mark : List Char) (n : Int) : List Char :=
  let digits := Nat.toDigits base n.natAbs
  let digits := List.replicate (p.precision.getD 0 - digits.length) '0' ++ digits
  p.number (n < 0) (if p.alternate then mark else []) digits

/-- How many places after the point a place asks for. -/
def Place.places (p : Place) : Nat :=
  p.precision.getD 6

/-- A float with its places after the point. -/
def Place.fixed (p : Place) (b : Decimal.Binary) : List Char :=
  let (whole, rest) := b.fixed p.places
  Decimal.pointed p.alternate whole rest

/-- A float as one digit, its places after the point, and an exponent. -/
def Place.scientific (p : Place) (b : Decimal.Binary) : List Char :=
  let (n, e) := b.leading p.places
  let digits := Decimal.padDigits (p.places + 1) n
  Decimal.pointed p.alternate (digits.take 1) (digits.drop 1) ++ Decimal.exponentText e

/-- A float with as many digits as the precision says, those that say nothing left out; with an
exponent if the point would stand too far out. -/
def Place.general (p : Place) (b : Decimal.Binary) : List Char :=
  let count := max p.places 1
  let (n, e) := b.leading (count - 1)
  let digits := Decimal.padDigits count n
  let trim (ds : List Char) : List Char :=
    if p.alternate then ds else Text.stripEnd (· = '0') ds
  if e < -4 || (count : Int) ≤ e then
    Decimal.pointed p.alternate (digits.take 1) (trim (digits.drop 1)) ++ Decimal.exponentText e
  else if e < 0 then
    Decimal.pointed p.alternate ['0'] (trim (List.replicate (-e - 1).toNat '0' ++ digits))
  else
    Decimal.pointed p.alternate (digits.take (e + 1).toNat) (trim (digits.drop (e + 1).toNat))

/-- A float in its width. -/
def Place.real (p : Place) (show? : Place → Decimal.Binary → List Char) (x : Float) : List Char :=
  match Decimal.Binary.ofFloat? x with
  | some b => p.number b.negative [] (show? p b)
  | none => p.number (x < 0) [] (if x == x then "inf".toList else "nan".toList)

/-- The text of a value in a place that takes any. -/
def Place.text (p : Place) (s : List Char) : List Char :=
  p.pad (match p.precision with
    | some n => s.take n
    | none => s)

/-- A text in which characters that are not ASCII are escaped. -/
def escaped (s : List Char) : List Char :=
  s.flatMap fun c => if c.toNat < 128 then [c] else Text.codeEscape c

/-- A value in a place whose letter is small, if it fits. -/
def Place.showSmall? (p : Place) (letter : Char) (v : Json) : Option (List Char) :=
  match letter with
  | 'd' => (rounded? v).map (p.whole 10 [])
  | 'x' => (whole? v).map (p.whole 16 ['0', 'x'])
  | 'o' => (whole? v).map (p.whole 8 ['0', 'o'])
  | 'f' => (real? v).map (p.real Place.fixed)
  | 'e' => (real? v).map (p.real Place.scientific)
  | 'g' => (real? v).map (p.real Place.general)
  | _ => none

/-- A value in a place, if it fits. -/
def Place.show? (p : Place) (v : Json) : Option (List Char) :=
  match p.letter with
  | 's' => some (p.text v.plainText.toList)
  | 'r' => some (p.text v.display.toList)
  | 'a' => some (p.text (escaped v.display.toList))
  | 'c' => (char? v).map fun c => p.pad [c]
  | 'i' => p.showSmall? 'd' v
  | 'u' => p.showSmall? 'd' v
  | c =>
    if ['X', 'F', 'E', 'G'].contains c then
      (p.showSmall? c.toLower v).map (List.map Char.toUpper)
    else p.showSmall? c v

/-! ## Templates -/

/-- The number that some digits spell. -/
def numberOf (ds : List Char) : Nat :=
  ds.foldl (fun n c => 10 * n + (c.toNat - '0'.toNat)) 0

/-- The characters that may be flags. -/
def isFlag (c : Char) : Bool :=
  c = '-' || c = '+' || c = ' ' || c = '0' || c = '#'

/-- The letters that stand for a size and say nothing. -/
def isSize (c : Char) : Bool :=
  c = 'h' || c = 'l' || c = 'L'

/-- The name up to the parenthesis that closes it, inside `depth` others, and the text after it. -/
def takeName (depth : Nat) (acc : List Char) : List Char → Option (String × List Char)
  | [] => none
  | ')' :: r =>
    match depth with
    | 0 => some (String.ofList acc.reverse, r)
    | depth + 1 => takeName depth (')' :: acc) r
  | '(' :: r => takeName (depth + 1) ('(' :: acc) r
  | c :: r => takeName depth (c :: acc) r

/-- The arguments after the name that a text begins with, if it begins with one. -/
def readName (args : Arguments) : List Char → Option (Arguments × List Char)
  | '(' :: r => (takeName 0 [] r).bind fun (name, r) => (args.choose? name).map (·, r)
  | s => some (args, s)

/-- The largest width or precision. -/
def sizeLimit : Nat := 2147483647

/-- The size that a text begins with: digits, or a star that takes it from the arguments. -/
def readSize (args : Arguments) (s : List Char) : Option (Int × Arguments × List Char) :=
  let found : Option (Int × Arguments × List Char) :=
    match s with
    | '*' :: r => args.next?.bind fun (v, args) => (whole? v).map (·, args, r)
    | s => some (numberOf (s.takeWhile Char.isDigit), args, s.dropWhile Char.isDigit)
  found.filter fun f => f.1.natAbs ≤ sizeLimit

/-- The precision that a text begins with, if it begins with a full stop. -/
def readPrecision (args : Arguments) : List Char → Option (Option Nat × Arguments × List Char)
  | '.' :: r => (readSize args r).map fun (n, args, r) => (some n.toNat, args, r)
  | s => some (none, args, s)

/-- The text after a letter for a size, if it begins with one. -/
def skipSize : List Char → List Char
  | [] => []
  | c :: r => if isSize c then r else c :: r

/-- The place that a text after a percent sign spells, the arguments after those that it takes
already, and the text after it. -/
def readPlace (args : Arguments) (s : List Char) : Option (Place × Arguments × List Char) := do
  let (args, s) ← readName args s
  let flags := s.takeWhile isFlag
  let (width, args, s) ← readSize args (s.dropWhile isFlag)
  let (precision, args, s) ← readPrecision args s
  match skipSize s with
  | [] => none
  | letter :: rest =>
    return ({
      leftward := flags.contains '-' || width < 0
      signed := flags.contains '+'
      spaced := flags.contains ' '
      zeros := flags.contains '0'
      alternate := flags.contains '#'
      width := width.natAbs
      precision := precision
      letter := letter }, args, rest)

/-- Fills a template, with fewer than `fuel` places in it. -/
def fill (args : Arguments) : (fuel : Nat) → List Char → Option (List Char)
  | 0, _ => none
  | fuel + 1, s =>
    match s.dropWhile (· ≠ '%') with
    | [] => if args.isUsedUp then some s else none
    | _ :: '%' :: r => (fill args fuel r).map (s.takeWhile (· ≠ '%') ++ '%' :: ·)
    | _ :: r => do
      let before := s.takeWhile (· ≠ '%')
      let (p, args, rest) ← readPlace args r
      let (v, args) ← args.next?
      let shown ← p.show? v
      return before ++ shown ++ (← fill args fuel rest)

end Template

/-- A message from a template and its arguments; a template without arguments stays as it is. -/
def fillMessage (template : String) (args : List Json) : Option String :=
  if args.isEmpty then some template
  else
    (Template.fill (.ofList args) (template.length + 1) template.toList).map String.ofList

example : fillMessage "count %d of %s" [.int 3, .str "x"] = some "count 3 of x" := by
  decide +kernel
example : fillMessage "%g %.1e %+05d" [.float 1e-5, .float 25.0, .int 7] =
    some "1e-05 2.5e+01 +0007" := by
  decide +kernel
example : fillMessage "100%" [] = some "100%" ∧ fillMessage "%d" [.str "x"] = none := by
  decide +kernel

end MailRules.Log
