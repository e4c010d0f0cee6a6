import MailRules.Calendar

set_option autoImplicit false

/-!
# Stamps

A stamp is the text of the time at which a row was written: a date, and perhaps any one character
and a time of day with or without a zone. A date is given by month and day or by week and day of the
week, a time of day from the hour down to fractions of the second; marks between the parts are
either all there or all left out.

`Stamp.ofText?` takes such a text apart, and `Stamp.fault?` says what is wrong with one that no
calendar or clock shows. One ASCII character may be left over between a time of day and its zone.
-/

namespace MailRules.Store

/-- A date and a time of day. -/
structure Stamp where
  year : Nat
  month : Nat
  day : Nat
  hour : Nat := 0
  minute : Nat := 0
  second : Nat := 0
  /-- The millionths of a second between its zone and UTC. -/
  offset : Int := 0
  deriving Repr, DecidableEq

namespace Stamp

/-- The number that so many digits at the start of a text spell, and the rest of it. -/
def digits? (count : Nat) (s : List Char) : Option (Nat × List Char) :=
  let ds := (s.take count).takeWhile Char.isDigit
  if ds.length = count then
    some (ds.foldl (fun n c => 10 * n + (c.toNat - 48)) 0, s.drop count)
  else none

/-- A text without the mark at its start, if one is wanted there. -/
def mark? (wanted : Bool) (c : Char) : List Char → Option (List Char)
  | d :: r => if !wanted then some (d :: r) else if d = c then some r else none
  | [] => if wanted then none else some []

/-! ## Dates -/

/-- How many characters of a stamp are its date. Without marks, the number of a week is followed by
the day of the week if just one digit comes there, or an even number of them. -/
def dateLength (s : List Char) : Nat :=
  if s.length = 7 then 7
  else if s[4]? = some '-' then
    if s[5]? = some 'W' && !(s[8]? = some '-' && !(s[10]?.any Char.isDigit)) then 8 else 10
  else if s[4]? = some 'W' then
    let run := 7 + ((s.drop 7).takeWhile Char.isDigit).length
    if run < 9 then run else if run % 2 = 0 then 7 else 8
  else 8

/-- The date of a day of a week, if the year has both. -/
def ofWeek? (year week day : Nat) : Option Stamp :=
  if year = 0 || week = 0 || Calendar.weeksIn year < week || day = 0 || 7 < day then none
  else
    let d := Calendar.dateOfWeek year week day
    some ⟨d.year.toNat, d.month, d.day, 0, 0, 0, 0⟩

/-- The date that the whole text spells. -/
def date? (s : List Char) : Option Stamp := do
  let (year, r) ← digits? 4 s
  let marked : Bool := r.head? = some '-'
  let r := if marked then r.tail else r
  match r with
  | 'W' :: r => do
    let (week, r) ← digits? 2 r
    if r.isEmpty then ofWeek? year week 1
    else do
      let (day, _) ← (mark? marked '-' r).bind (digits? 1)
      ofWeek? year week day
  | r => do
    let (month, r) ← digits? 2 r
    let (day, r) ← (mark? marked '-' r).bind (digits? 2)
    if r.isEmpty then some ⟨year, month, day, 0, 0, 0, 0⟩ else none

/-! ## Times of day -/

/-- The parts of a time of day, down to millionths of a second, and whether something is left over
after them. -/
structure Parts where
  hour : Nat
  minute : Nat := 0
  second : Nat := 0
  micro : Nat := 0
  hasMore : Bool := false
  deriving Repr, DecidableEq

/-- Whether what is left after the parts of a time of day is something. -/
def isLeft (s : List Char) : Bool :=
  !s.head?.all (· = '\x00')

/-- Parts with the fraction of the second that a text starts with; only six digits count. -/
def Parts.fraction? (p : Parts) (s : List Char) : Option Parts :=
  (digits? (min 6 s.length) s).map fun (n, r) =>
    { p with
      micro := n * Nat.pow 10 (6 - min 6 s.length)
      hasMore := isLeft (r.dropWhile Char.isDigit) }

/-- The parts that a text spells from the hour, the minute or the second on; `marked` says whether
colons stand between them. -/
def Parts.read? (marked : Bool) (set : Parts → Nat → Parts)
    (next : Bool → Parts → List Char → Option Parts) (isFirst : Bool) (p : Parts)
    (s : List Char) : Option Parts :=
  (digits? 2 s).bind fun (n, r) =>
    let p := set p n
    match r with
    | [] => some p
    | [c] => if c.toNat < 128 then some { p with hasMore := isLeft [c] } else none
    | c :: t =>
      let marked := if isFirst then c = ':' else marked
      if marked && c = ':' then next marked p t
      else if c = '.' || c = ',' then p.fraction? t
      else if !marked then next marked p r
      else none

/-- The parts of the time of day that a text spells. -/
def parts? (s : List Char) : Option Parts :=
  let fraction (_ : Bool) (p : Parts) (s : List Char) : Option Parts := p.fraction? s
  let second (marked : Bool) :=
    Parts.read? marked (fun p n => { p with second := n }) fraction false
  let minute (marked : Bool) :=
    Parts.read? marked (fun p n => { p with minute := n }) second false
  Parts.read? true (fun p n => { p with hour := n }) minute true ⟨0, 0, 0, 0, false⟩ s

/-- The offset that parts stand for. -/
def Parts.offset (p : Parts) (negative : Bool) : Int :=
  let n : Int := (((p.hour * 60 + p.minute) * 60 + p.second) * 1000000 + p.micro : Nat)
  if negative then -n else n

/-- Whether a character begins a zone. -/
def beginsZone (c : Char) : Bool :=
  c = '+' || c = '-' || c = 'Z'

/-- A date with the time of day that the whole text spells. An offset without whole seconds is that
of UTC. -/
def clock? (d : Stamp) (s : List Char) : Option Stamp := do
  let p ← parts? (s.takeWhile (fun c => !beginsZone c))
  let timed : Stamp := { d with hour := p.hour, minute := p.minute, second := p.second }
  match s.dropWhile (fun c => !beginsZone c) with
  | [] => if p.hasMore then none else some timed
  | 'Z' :: r => if isLeft r then none else some timed
  | sign :: r =>
    let zone ← parts? r
    if zone.hasMore then none
    else
      let offset := zone.offset (sign = '-')
      some { timed with offset := if offset.natAbs < 1000000 then 0 else offset }

/-- The stamp that a text spells. -/
def ofText? (s : List Char) : Option Stamp :=
  if s.length < 7 then none
  else
    let n := dateLength s
    (date? (s.take n)).bind fun d =>
      match s.drop n with
      | [] => some d
      | _ :: t => clock? d t

/-- What is wrong with a stamp. -/
def fault? (t : Stamp) : Option TimeFault :=
  timeFault? t.offset t.year t.month t.day t.hour t.minute t.second

example : ofText? "2024-02-29T21:59:43.125-05:30".toList =
    some ⟨2024, 2, 29, 21, 59, 43, -19800000000⟩ := by decide +kernel
example : ofText? "20240229T2159Z".toList = some ⟨2024, 2, 29, 21, 59, 0, 0⟩ := by decide +kernel
example : ofText? "2020-W53-7".toList = some ⟨2021, 1, 3, 0, 0, 0, 0⟩ := by decide +kernel
example : ofText? "2020W537T21".toList = ofText? "2020-W53-7 21".toList := by decide +kernel
example : (ofText? "2023-02-29".toList).bind fault? = some .day := by decide +kernel

end Stamp

end MailRules.Store
