import MailRules.Calendar

set_option autoImplicit false

/-!
# Times in YAML texts

A scalar may spell a date, `2001-12-14`, or a date with a time of day and perhaps a zone,
`2001-12-14t21:59:43.10-05:00`. `Time.ofText?` takes such a text apart, and `Time.fault?` says what
is wrong with a time that has the form but that no clock or calendar shows.
-/

namespace MailRules.Yaml

/-- A time of day, and the seconds between its zone and UTC if the zone is known. -/
structure Clock where
  hour : Nat
  minute : Nat
  second : Nat
  micro : Nat := 0
  offset : Option Int := none
  deriving Repr, DecidableEq

/-- A date, and the time of day if one is given. -/
structure Time where
  year : Nat
  month : Nat
  day : Nat
  clock : Option Clock := none
  deriving Repr, DecidableEq

/-! ## Reading -/

/-- The number that digits at the start of a text spell, as many as possible within bounds, and the
rest of the text. -/
def takeNumber? (least greatest : Nat) (s : List Char) : Option (Nat × List Char) :=
  let ds := (s.take greatest).takeWhile Char.isDigit
  if least ≤ ds.length then
    some (ds.foldl (fun n c => 10 * n + (c.toNat - 48)) 0, s.drop ds.length)
  else none

/-- A text without a character at its start. -/
def dropMark? (c : Char) : List Char → Option (List Char)
  | d :: r => if d = c then some r else none
  | [] => none

/-- Whether a character is a blank within a line. -/
def isSpacing (c : Char) : Bool :=
  c = ' ' || c = '\t'

/-- The offset that the whole text gives: none if it is empty, that of UTC for `Z`, or hours and
perhaps minutes after a sign. -/
def zoneOf? (s : List Char) : Option (Option Int) :=
  match s.dropWhile isSpacing with
  | [] => if s.isEmpty then some none else none
  | ['Z'] => some (some 0)
  | sign :: r =>
    if sign = '+' || sign = '-' then do
      let (hours, r) ← takeNumber? 1 2 r
      let minutes ← match r with
        | [] => some 0
        | _ =>
          match (dropMark? ':' r).bind (takeNumber? 2 2) with
          | some (m, []) => some m
          | _ => none
      let seconds : Int := 3600 * hours + 60 * minutes
      return some (if sign = '-' then -seconds else seconds)
    else none

/-- The millionths of a second that the digits of a fraction spell, further digits cut off. -/
def microOf (places : List Char) : Nat :=
  ((places ++ List.replicate 6 '0').take 6).foldl (fun n c => 10 * n + (c.toNat - 48)) 0

/-- The time of day that the whole text spells. -/
def Clock.ofText? (s : List Char) : Option Clock := do
  let (hour, r) ← takeNumber? 1 2 s
  let (minute, r) ← (dropMark? ':' r).bind (takeNumber? 2 2)
  let (second, r) ← (dropMark? ':' r).bind (takeNumber? 2 2)
  let (places, r) := match r with
    | '.' :: t => (t.takeWhile Char.isDigit, t.dropWhile Char.isDigit)
    | t => ([], t)
  return ⟨hour, minute, second, microOf places, ← zoneOf? r⟩

/-- The time that the whole text spells. -/
def Time.ofText? (s : List Char) : Option Time := do
  let (year, r) ← takeNumber? 4 4 s
  let (month, r) ← (dropMark? '-' r).bind (takeNumber? 1 2)
  let (day, r) ← (dropMark? '-' r).bind (takeNumber? 1 2)
  match r with
  | [] => return ⟨year, month, day, none⟩
  | c :: t =>
    let clock ←
      if c = 'T' || c = 't' then Clock.ofText? t
      else if isSpacing c then Clock.ofText? (t.dropWhile isSpacing)
      else none
    return ⟨year, month, day, some clock⟩

/-- Whether a text is taken for a time when it is not said to be one: a date alone then has two
digits for month and day. -/
def spellsTime (s : List Char) : Bool :=
  match Time.ofText? s with
  | some t => t.clock.isSome || s.length = 10
  | none => false

/-- What is wrong with a time. -/
def Time.fault? (t : Time) : Option TimeFault :=
  let clock := t.clock.getD ⟨0, 0, 0, 0, none⟩
  let offset := clock.offset.getD 0 * 1000000
  timeFault? offset t.year t.month t.day clock.hour clock.minute clock.second

/-! ## Times as values -/

/-- The name that messages use for the kind of a time. -/
def Time.kindName (t : Time) : String :=
  if t.clock.isSome then "datetime" else "date"

/-- The last digits of a number, zeros before them if it has fewer. -/
def padded (width n : Nat) : String :=
  let ds := Decimal.digitsOf n
  String.ofList (List.replicate (width - ds.length) '0' ++ ds)

/-- The written form of an offset. -/
def showOffset (seconds : Int) : String :=
  let minutes := seconds.natAbs / 60
  (if seconds < 0 then "-" else "+") ++ padded 2 (minutes / 60) ++ ":" ++ padded 2 (minutes % 60)

/-- The written form of a time of day. -/
def Clock.display (k : Clock) : String :=
  padded 2 k.hour ++ ":" ++ padded 2 k.minute ++ ":" ++ padded 2 k.second ++
    (if k.micro = 0 then "" else "." ++ padded 6 k.micro) ++
    ((k.offset.map showOffset).getD "")

/-- The written form of a time. -/
def Time.display (t : Time) : String :=
  padded 4 t.year ++ "-" ++ padded 2 t.month ++ "-" ++ padded 2 t.day ++
    ((t.clock.map fun k => " " ++ k.display).getD "")

/-- The millionths of a second from a fixed day to a time of day in UTC. -/
def instant (t : Time) (k : Clock) (offset : Int) : Int :=
  let days := Calendar.dayNumber t.year t.month t.day
  let seconds : Int := days * 86400 + k.hour * 3600 + k.minute * 60 + k.second
  (seconds - offset) * 1000000 + k.micro

/-- Whether two times are the same; times of day in known zones are compared in UTC, and differ from
those in unknown ones. -/
def Time.same (t u : Time) : Bool :=
  match t.clock, u.clock with
  | some k, some l =>
    match k.offset, l.offset with
    | some a, some b => instant t k a = instant u l b
    | none, none => t = u
    | _, _ => false
  | _, _ => t = u

example : Time.ofText? "2001-12-14t21:59:43.10-05:30".toList =
    some ⟨2001, 12, 14, some ⟨21, 59, 43, 100000, some (-19800)⟩⟩ := by decide +kernel
example : (Time.ofText? "2001-12-14t21:59:43.1-05:30".toList).map Time.display =
    some "2001-12-14 21:59:43.100000-05:30" := by decide +kernel
example : spellsTime "2001-1-1".toList = false ∧ (Time.ofText? "2001-1-1".toList).isSome := by
  decide +kernel
example : (Time.ofText? "1900-02-29".toList).bind Time.fault? = some .day := by decide +kernel
example : (Time.ofText? "2000-02-29".toList).bind Time.fault? = none := by decide +kernel

end MailRules.Yaml
