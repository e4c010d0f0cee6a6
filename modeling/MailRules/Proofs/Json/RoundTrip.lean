import MailRules.Proofs.Json.Texts
import MailRules.Proofs.Members

set_option autoImplicit false

/-!
# Reading back what was printed

A value that has been printed in whatever layout is read back from its text (`read_render`), if it
is `Faithful`: without floats, with whole numbers that may be read, with one member a name in every
object, and not nested too deeply.

The proof is by induction on the value. A number ends only where the text after it does not go on
with it (`Stops`), so that is asked of the text after every value; it holds after each item and each
member, whatever the layout.
-/

namespace MailRules

namespace Json

/-! ## Whole numbers -/

/-- Whether a number goes on with the character. -/
def goesOn (c : Char) : Bool :=
  c.isDigit || c = '.' || c = 'e' || c = 'E'

/-- No number goes on with the text. -/
def Stops (t : List Char) : Prop :=
  ∀ c ∈ t.head?, goesOn c = false

theorem stops_nil : Stops [] := by
  intro c hc
  cases hc

theorem stops_cons {c : Char} (h : goesOn c = false) (t : List Char) : Stops (c :: t) := by
  intro d hd
  cases hd
  exact h

theorem takeDigits_append {ds t : List Char} (hds : ∀ c ∈ ds, c.isDigit = true) (ht : Stops t) :
    takeDigits (ds ++ t) = (ds, t) := by
  have hrest : t.takeWhile Char.isDigit = [] ∧ t.dropWhile Char.isDigit = t := by
    cases t with
    | nil => exact ⟨rfl, rfl⟩
    | cons c t =>
      have hc : c.isDigit = false := by
        have hstop := ht c rfl
        simp only [goesOn, Bool.or_eq_false_iff] at hstop
        exact hstop.1.1.1
      simp [hc]
  rw [takeDigits, List.takeWhile_append_of_pos hds, List.dropWhile_append_of_pos hds, hrest.1,
    hrest.2, List.append_nil]

theorem takeFraction_of_stops {t : List Char} (ht : Stops t) : takeFraction t = (none, t) := by
  unfold takeFraction
  split
  · have hstop := ht '.' rfl
    simp [goesOn] at hstop
  · rfl

theorem takeExponent_of_stops {t : List Char} (ht : Stops t) : takeExponent t = (none, t) := by
  unfold takeExponent
  split
  · rfl
  · next e r =>
    have hstop := ht e rfl
    simp only [goesOn, Bool.or_eq_false_iff] at hstop
    rw [hstop.1.2, hstop.2]
    rfl

theorem isDigit_of_mem_digitsOf {n : Nat} {c : Char} (h : c ∈ Decimal.digitsOf n) :
    c.isDigit = true :=
  Nat.isDigit_of_mem_toDigits (by decide) (by decide) h

theorem ne_of_isDigit {c d : Char} (hd : d.isDigit = true) (hc : c.isDigit = false) : d ≠ c := by
  rintro rfl
  rw [hc] at hd
  cases hd

theorem digitsOf_ne_nil (n : Nat) : Decimal.digitsOf n ≠ [] :=
  Nat.toDigits_ne_nil

/-- Only zero is written with a zero in front. -/
theorem digitsOf_ne_zero_cons {n : Nat} (hn : n ≠ 0) (r : List Char) :
    Decimal.digitsOf n ≠ '0' :: r := by
  induction n using Nat.strongRecOn generalizing r with
  | ind n ih =>
    unfold Decimal.digitsOf at ih ⊢
    by_cases hsmall : n < 10
    · have hdigit : ∀ m < 10, m ≠ 0 → m.digitChar ≠ '0' := by decide
      rw [Nat.toDigits_of_lt_base hsmall]
      intro hzero
      exact hdigit n hsmall hn (List.cons.inj hzero).1
    · have hquotient := ih (n / 10) (by omega) (by omega)
      rw [Nat.toDigits_of_base_le (by decide) (Nat.le_of_not_lt hsmall)]
      intro hzero
      -- the quotient has a digit, so it would be written with a zero in front as well
      rcases List.append_eq_cons_iff.mp hzero with ⟨hnil, -⟩ | ⟨ds, hds, -⟩
      · exact digitsOf_ne_nil _ hnil
      · exact hquotient ds hds

theorem numberOf_digitsOf (n : Nat) : numberOf (Decimal.digitsOf n) = n := by
  rw [numberOf, Decimal.ofDigits, List.foldl_map]
  exact Nat.ofDigitChars_eq_foldl.symm.trans Nat.ofDigitChars_ten_toDigits

/-- The digits of a whole number are read as that number. -/
theorem readNumber_digitsOf (whole : List Char) (negative : Bool) {n : Nat}
    (hn : (Decimal.digitsOf n).length ≤ Decimal.digitLimit) {t : List Char} (ht : Stops t) :
    readNumber whole negative (Decimal.digitsOf n ++ t) =
      .ok (.int (if negative then -n else n), t) := by
  have hsome : (Decimal.digitsOf n).isEmpty = false :=
    List.isEmpty_eq_false_iff.mpr (digitsOf_ne_nil n)
  have hlimit : ¬Decimal.digitLimit < (Decimal.digitsOf n).length := Nat.not_lt.mpr hn
  unfold readNumber
  split
  · next ds r heq =>
    have hdigits : Decimal.digitsOf n = ds ∧ t = r := by
      split at heq
      · next rest hfirst =>
        by_cases hzero : n = 0
        · subst hzero
          cases heq
          exact ⟨rfl, (List.cons.inj hfirst).2⟩
        · rcases List.append_eq_cons_iff.mp hfirst with ⟨hnil, -⟩ | ⟨ds, hds, -⟩
          · exact absurd hnil (digitsOf_ne_nil n)
          · exact absurd hds (digitsOf_ne_zero_cons hzero ds)
      · rw [takeDigits_append (fun c hc => isDigit_of_mem_digitsOf hc) ht] at heq
        exact Prod.mk.inj heq
    obtain ⟨rfl, rfl⟩ := hdigits
    simp only [hsome, takeFraction_of_stops ht, takeExponent_of_stops ht, if_neg hlimit,
      numberOf_digitsOf]
    rfl

/-- Where no text, array or object begins, a scalar is read. -/
theorem readValue_of_head {depth : Nat} {c : Char} (hquote : c ≠ '"') (hbracket : c ≠ '[')
    (hbrace : c ≠ '\x7b') (s : List Char) : readValue depth (c :: s) = readScalar (c :: s) := by
  cases depth with
  | zero => rw [readValue] <;> grind
  | succ depth => rw [readValue] <;> grind

/-- No word for a value begins with a digit or with a sign before one. -/
theorem find?_literals {d : Char} (hd : d.isDigit = true) (s : List Char) :
    literals.find? (fun l => l.1.isPrefixOf (d :: s)) = none ∧
      literals.find? (fun l => l.1.isPrefixOf ('-' :: d :: s)) = none := by
  have hletters : ∀ c ∈ ['n', 't', 'f', 'N', 'I', '-'], c ≠ d := by
    intro c hc
    have hletter : ∀ c ∈ ['n', 't', 'f', 'N', 'I', '-'], c.isDigit = false := by simp
    exact (ne_of_isDigit hd (hletter c hc)).symm
  simp only [List.forall_mem_cons] at hletters
  simp [literals, hletters]

/-- A whole number is read back if it may be written. -/
theorem readValue_printInt (depth : Nat) {n : Int} (hn : Decimal.isShowable n = true)
    {t : List Char} (ht : Stops t) : readValue depth (printInt n ++ t) = .ok (.int n, t) := by
  have hsize : (Decimal.digitsOf n.natAbs).length ≤ Decimal.digitLimit := by
    unfold Decimal.isShowable at hn
    -- the power is not to be evaluated
    have hpositive : 0 < Decimal.digitLimit := by decide
    generalize Decimal.digitLimit = limit at hn hpositive ⊢
    exact (Nat.length_toDigits_le_iff (by decide) hpositive).mpr (of_decide_eq_true hn)
  obtain ⟨d, ds, hds⟩ := List.exists_cons_of_ne_nil (digitsOf_ne_nil n.natAbs)
  have hd : d.isDigit = true := isDigit_of_mem_digitsOf (n := n.natAbs) (by simp [hds])
  have hword := find?_literals hd (ds ++ t)
  have hnumber (whole : List Char) (negative : Bool) := readNumber_digitsOf whole negative hsize ht
  rw [hds, List.cons_append] at hnumber
  simp only [printInt, hds]
  split
  · next hnegative =>
    have hvalue : -(n.natAbs : Int) = n := by omega
    rw [List.cons_append, List.cons_append, readValue_of_head (by decide) (by decide) (by decide),
      readScalar, hword.2]
    exact (hnumber _ true).trans (by rw [if_pos rfl, hvalue])
  · next hpositive =>
    have hvalue : (n.natAbs : Int) = n := by omega
    rw [List.cons_append, readValue_of_head (ne_of_isDigit hd (by decide))
      (ne_of_isDigit hd (by decide)) (ne_of_isDigit hd (by decide))]
    unfold readScalar
    rw [hword.1]
    dsimp only
    split
    · next heq => exact absurd (List.cons.inj heq).1 (ne_of_isDigit hd (by decide))
    · exact (hnumber _ false).trans (by rw [if_neg (by decide), hvalue])

/-! ## What stands between values -/

theorem skipSpaces_append {gap : List Char} (h : ∀ c ∈ gap, isSpace c = true) (t : List Char) :
    skipSpaces (gap ++ t) = skipSpaces t :=
  List.dropWhile_append_of_pos h

theorem skipSpaces_cons {c : Char} (hc : isSpace c = false) (t : List Char) :
    skipSpaces (c :: t) = c :: t :=
  List.dropWhile_cons_of_neg (by simp [hc])

theorem lead_isSpace (o : Layout) (level : Nat) : ∀ c ∈ o.lead level, isSpace c = true := by
  unfold Layout.lead
  cases o.indent with
  | none => simp
  | some w =>
    simp only [List.mem_cons, List.mem_replicate]
    rintro c (rfl | ⟨-, rfl⟩) <;> rfl

/-- A comma is followed by spaces only. -/
theorem comma_eq (o : Layout) (level : Nat) :
    ∃ gap, o.comma level = ',' :: gap ∧ ∀ c ∈ gap, isSpace c = true := by
  have hlead := lead_isSpace o level
  unfold Layout.comma
  cases o.indent with
  | none => exact ⟨[' '], rfl, by simp [isSpace]⟩
  | some w => exact ⟨o.lead level, rfl, hlead⟩

/-- What closes an array or an object comes after spaces only. -/
theorem skipSpaces_lead (o : Layout) (level : Nat) {c : Char} (hc : isSpace c = false)
    (t : List Char) : skipSpaces (o.lead level ++ c :: t) = c :: t := by
  rw [skipSpaces_append (lead_isSpace o level), skipSpaces_cons hc]

theorem stops_lead (o : Layout) (level : Nat) {c : Char} (hc : goesOn c = false) (t : List Char) :
    Stops (o.lead level ++ c :: t) := by
  unfold Layout.lead
  cases o.indent with
  | none => exact stops_cons hc t
  | some w => exact stops_cons (by decide) _

/-- No number goes on after an item of an array. -/
theorem stops_items (o : Layout) (level outer : Nat) (vs : List Json) (t : List Char) :
    Stops (printItems o level vs ++ (o.lead outer ++ ']' :: t)) := by
  cases vs with
  | nil => exact stops_lead o outer (by decide) t
  | cons v vs =>
    obtain ⟨gap, hcomma, -⟩ := comma_eq o level
    rw [printItems, hcomma]
    exact stops_cons (by decide) _

/-- No number goes on after a member of an object. -/
theorem stops_members (o : Layout) (level outer : Nat) (ms : Members Json) (t : List Char) :
    Stops (printMembers o level ms ++ (o.lead outer ++ '\x7d' :: t)) := by
  cases ms with
  | nil => exact stops_lead o outer (by decide) t
  | cons m ms =>
    obtain ⟨gap, hcomma, -⟩ := comma_eq o level
    rw [printMembers, hcomma]
    exact stops_cons (by decide) _

/-- Every further item takes up at least one character. -/
theorem length_printItems (o : Layout) (level : Nat) (vs : List Json) :
    vs.length ≤ (printItems o level vs).length := by
  induction vs with
  | nil => exact Nat.zero_le _
  | cons v vs ih =>
    obtain ⟨gap, hcomma, -⟩ := comma_eq o level
    simp only [printItems, hcomma, List.length_append, List.length_cons]
    omega

/-- Every further member takes up at least one character. -/
theorem length_printMembers (o : Layout) (level : Nat) (ms : Members Json) :
    ms.length ≤ (printMembers o level ms).length := by
  induction ms with
  | nil => exact Nat.zero_le _
  | cons m ms ih =>
    simp only [printMembers, List.length_append, List.length_cons]
    omega

/-! ## Arrays and objects -/

/-- Whether a character is no space, does not close an array and is no mark of an encoding. -/
def mayStart (c : Char) : Bool :=
  !isSpace c && c ≠ ']' && c ≠ '\ufeff'

/-- A text that begins as values do. -/
def Starts (s : List Char) : Prop :=
  ∃ c r, s = c :: r ∧ mayStart c = true

theorem Starts.skipSpaces {s : List Char} (h : Starts s) (t : List Char) :
    skipSpaces (s ++ t) = s ++ t := by
  obtain ⟨c, r, rfl, hc⟩ := h
  simp only [mayStart, Bool.and_eq_true, Bool.not_eq_true'] at hc
  exact skipSpaces_cons hc.1.1 _

theorem Starts.not_close {s : List Char} (h : Starts s) (t r : List Char) :
    s ++ t ≠ ']' :: r := by
  obtain ⟨c, u, rfl, hc⟩ := h
  rintro heq
  obtain rfl : c = ']' := (List.cons.inj heq).1
  cases hc

theorem starts_printString (asciiOnly : Bool) (s : String) : Starts (printString asciiOnly s) :=
  ⟨'"', _, rfl, by decide⟩

theorem starts_printInt (n : Int) : Starts (printInt n) := by
  obtain ⟨d, ds, hds⟩ := List.exists_cons_of_ne_nil (digitsOf_ne_nil n.natAbs)
  have hd : d.isDigit = true := isDigit_of_mem_digitsOf (n := n.natAbs) (by simp [hds])
  have hothers : ∀ c ∈ [' ', '\t', '\n', '\r', ']', '\ufeff'], d ≠ c := by
    intro c hc
    have hother : ∀ c ∈ [' ', '\t', '\n', '\r', ']', '\ufeff'], c.isDigit = false := by simp
    exact ne_of_isDigit hd (hother c hc)
  simp only [List.forall_mem_cons] at hothers
  simp only [printInt, hds]
  split
  · exact ⟨'-', _, rfl, by decide⟩
  · exact ⟨d, ds, rfl, by simp [mayStart, isSpace, hothers]⟩

/-- A value is read back from what is printed of it, whatever comes next but more of a number. -/
structure ReadsBack (value : List Char → Reading Json) (o : Layout) (level : Nat) (v : Json) :
    Prop where
  starts : Starts (print o level v)
  value : ∀ t, Stops t → value (print o level v ++ t) = .ok (v, t)

section

variable {value : List Char → Reading Json} {o : Layout} {level : Nat}

/-- Items are read back from the first one on. -/
theorem readItems_print (outer : Nat) {v : Json} {vs : List Json}
    (h : ∀ w ∈ v :: vs, ReadsBack value o level w) (acc : List Json) {fuel : Nat}
    (hfuel : vs.length < fuel) (t : List Char) :
    readItems value fuel acc
        (print o level v ++ (printItems o level vs ++ (o.lead outer ++ ']' :: t))) =
      .ok (.array (acc.reverse ++ v :: vs), t) := by
  -- the value `v` has been reached, and those in `acc` have been read
  induction vs generalizing v acc fuel with
  | nil =>
    obtain ⟨fuel, rfl⟩ := Nat.exists_eq_add_of_lt hfuel
    have hfirst := (h v (.head _)).value _ (stops_items o level outer [] t)
    have hend : skipSpaces (o.lead outer ++ ']' :: t) = ']' :: t :=
      skipSpaces_lead o outer (by decide) t
    rw [readItems, hfirst]
    simp only [printItems, List.nil_append, hend, List.reverse_cons]
  | cons u vs ih =>
    obtain ⟨fuel, rfl⟩ : ∃ n, fuel = n + 1 := ⟨fuel - 1, by omega⟩
    obtain ⟨gap, hcomma, hgap⟩ := comma_eq o level
    have hfirst := (h v (.head _)).value _ (stops_items o level outer (u :: vs) t)
    have hnext := ih (fun w hw => h w (.tail _ hw)) (v :: acc) (by simpa using hfuel)
    rw [readItems, hfirst]
    simp only [printItems, hcomma, List.cons_append, List.append_assoc,
      skipSpaces_cons (by decide : isSpace ',' = false), skipSpaces_append hgap,
      (h u (.tail _ (.head _))).starts.skipSpaces, hnext, List.reverse_cons, List.nil_append]

/-- A member with a new name is read. A brace behind it ends the object, and behind a comma the
reader goes on. -/
theorem readMembers_step {k : String} {v : Json} (hv : ReadsBack value o level v)
    {acc : Members Json} (hnew : k ∉ acc.names) (fuel : Nat) {r : List Char} (hr : Stops r) :
    (∀ t, skipSpaces r = '\x7d' :: t →
      readMembers value (fuel + 1) acc
          (printString o.asciiOnly k ++ ':' :: ' ' :: (print o level v ++ r)) =
        .ok (.object (acc ++ [(k, v)]), t)) ∧
    ∀ t, skipSpaces r = ',' :: t →
      readMembers value (fuel + 1) acc
          (printString o.asciiOnly k ++ ':' :: ' ' :: (print o level v ++ r)) =
        readMembers value fuel (acc ++ [(k, v)]) (skipSpaces t) := by
  have hspace : skipSpaces (' ' :: (print o level v ++ r)) = print o level v ++ r :=
    hv.starts.skipSpaces r
  constructor
  all_goals
    intro t hend
    rw [printString_append, readMembers, readString_flatMap]
    simp only [skipSpaces_cons (by decide : isSpace ':' = false), hspace, hv.value r hr, hend,
      Members.put_of_not_mem hnew v]

/-- Members are read back from the first one on. -/
theorem readMembers_print (outer : Nat) {k : String} {v : Json} {ms : Members Json}
    (h : ∀ m ∈ (k, v) :: ms, ReadsBack value o level m.2) (acc : Members Json)
    (hnames : (acc.names ++ k :: ms.names).Nodup) {fuel : Nat} (hfuel : ms.length < fuel)
    (t : List Char) :
    readMembers value fuel acc (printString o.asciiOnly k ++ ':' :: ' ' :: (print o level v ++
        (printMembers o level ms ++ (o.lead outer ++ '\x7d' :: t)))) =
      .ok (.object (acc ++ (k, v) :: ms), t) := by
  -- the member named `k` has been reached, and those in `acc` have been read
  induction ms generalizing k v acc fuel with
  | nil =>
    obtain ⟨fuel, rfl⟩ := Nat.exists_eq_add_of_lt hfuel
    have hnew : k ∉ acc.names := fun hk => (List.nodup_append.mp hnames).2.2 k hk k (.head _) rfl
    have hstops := stops_members o level outer [] t
    have hend : skipSpaces (o.lead outer ++ '\x7d' :: t) = '\x7d' :: t :=
      skipSpaces_lead o outer (by decide) t
    exact (readMembers_step (h (k, v) (.head _)) hnew _ hstops).1 t hend
  | cons m ms ih =>
    obtain ⟨fuel, rfl⟩ : ∃ n, fuel = n + 1 := ⟨fuel - 1, by omega⟩
    obtain ⟨gap, hcomma, hgap⟩ := comma_eq o level
    have hnew : k ∉ acc.names := fun hk => (List.nodup_append.mp hnames).2.2 k hk k (.head _) rfl
    have hrest : ((acc ++ [(k, v)]).names ++ m.1 :: Members.names ms).Nodup := by
      simpa [Members.names] using hnames
    have hnext := ih (fun m hm => h m (.tail _ hm)) (acc ++ [(k, v)]) hrest (by simpa using hfuel)
    have hstops := stops_members o level outer (m :: ms) t
    simp only [printMembers, hcomma, List.cons_append, List.append_assoc] at hstops ⊢
    rw [(readMembers_step (h (k, v) (.head _)) hnew _ hstops).2 _
        (skipSpaces_cons (by decide) _),
      skipSpaces_append hgap, (starts_printString o.asciiOnly m.1).skipSpaces]
    simpa using hnext

/-- An array is read back as its items are. -/
theorem readArray_print (level : Nat) {vs : List Json}
    (h : ∀ v ∈ vs, ReadsBack value o (level + 1) v) (t : List Char) :
    ∃ r, print o level (.array vs) ++ t = '[' :: r ∧
      readArray value r = .ok (.array vs, t) := by
  cases vs with
  | nil => exact ⟨']' :: t, by rw [print]; rfl, rfl⟩
  | cons v vs =>
    obtain ⟨items, hitems⟩ : ∃ items, items = print o (level + 1) v ++
        (printItems o (level + 1) vs ++ (o.lead level ++ ']' :: t)) := ⟨_, rfl⟩
    have hstart := (h v (.head _)).starts
    have hfuel : vs.length < items.length + 1 := by
      have hlength := length_printItems o (level + 1) vs
      simp only [hitems, List.length_append]
      omega
    have hskip : skipSpaces (o.lead (level + 1) ++ items) = items := by
      rw [skipSpaces_append (lead_isSpace o (level + 1)), hitems]
      exact hstart.skipSpaces _
    have hread := readItems_print level h [] hfuel t
    rw [← hitems] at hread
    refine ⟨o.lead (level + 1) ++ items, by rw [print]; simp [hitems], ?_⟩
    unfold readArray
    rw [hskip]
    split
    · exact absurd hitems.symm (hstart.not_close _ _)
    · exact hread

/-- An object is read back as the values of its members are. -/
theorem readObject_print (level : Nat) {ms : Members Json}
    (h : ∀ m ∈ ms, ReadsBack value o (level + 1) m.2) (hnames : ms.names.Nodup) (t : List Char) :
    ∃ r, print o level (.object ms) ++ t = '\x7b' :: r ∧
      readObject value r = .ok (.object ms, t) := by
  cases ms with
  | nil => exact ⟨'\x7d' :: t, by rw [print]; rfl, rfl⟩
  | cons m ms =>
    obtain ⟨k, v⟩ := m
    obtain ⟨members, hmembers⟩ : ∃ members, members = printString o.asciiOnly k ++ ':' :: ' ' ::
        (print o (level + 1) v ++
          (printMembers o (level + 1) ms ++ (o.lead level ++ '\x7d' :: t))) := ⟨_, rfl⟩
    have hfuel : ms.length < members.length + 1 := by
      have hlength := length_printMembers o (level + 1) ms
      simp only [hmembers, List.length_append, List.length_cons]
      omega
    have hskip : skipSpaces (o.lead (level + 1) ++ members) = members := by
      rw [skipSpaces_append (lead_isSpace o (level + 1)), hmembers]
      exact (starts_printString o.asciiOnly k).skipSpaces _
    have hread := readMembers_print level h [] hnames hfuel t
    rw [← hmembers] at hread
    refine ⟨o.lead (level + 1) ++ members, by rw [print]; simp [hmembers], ?_⟩
    unfold readObject
    rw [hskip]
    split
    · rw [printString_append] at hmembers
      exact absurd (List.cons.inj hmembers).1 (by decide)
    · exact hread

end

/-! ## Values -/

theorem areWritable_iff {vs : List Json} :
    areWritable vs = true ↔ ∀ v ∈ vs, v.isWritable = true := by
  induction vs with
  | nil => simp [areWritable]
  | cons v vs ih => rw [areWritable, Bool.and_eq_true, ih, List.forall_mem_cons]

theorem haveWritable_iff {ms : Members Json} :
    haveWritable ms = true ↔ ∀ m ∈ ms, m.2.isWritable = true := by
  induction ms with
  | nil => simp [haveWritable]
  | cons m ms ih => rw [haveWritable, Bool.and_eq_true, ih, List.forall_mem_cons]

/-- A value that is read back when so many arrays and objects may be around one another. -/
inductive Faithful : (depth : Nat) → Json → Prop
  | null {depth : Nat} : Faithful depth .null
  | bool {depth : Nat} (b : Bool) : Faithful depth (.bool b)
  | int {depth : Nat} {n : Int} (h : Decimal.isShowable n = true) : Faithful depth (.int n)
  | str {depth : Nat} (s : String) : Faithful depth (.str s)
  | array {depth : Nat} {vs : List Json} (h : ∀ v ∈ vs, Faithful depth v) :
    Faithful (depth + 1) (.array vs)
  | object {depth : Nat} {ms : Members Json} (hnames : ms.names.Nodup)
    (h : ∀ m ∈ ms, Faithful depth m.2) : Faithful (depth + 1) (.object ms)

namespace Faithful

variable {depth : Nat} {v : Json}

theorem starts (h : Faithful depth v) (o : Layout) (level : Nat) : Starts (print o level v) := by
  cases h with
  | null => exact ⟨'n', _, rfl, by decide⟩
  | bool b =>
    cases b with
    | true => exact ⟨'t', _, rfl, by decide⟩
    | false => exact ⟨'f', _, rfl, by decide⟩
  | int =>
    rw [print]
    exact starts_printInt _
  | str s =>
    rw [print]
    exact starts_printString o.asciiOnly s
  | @array _ vs =>
    cases vs with
    | nil =>
      rw [print]
      exact ⟨'[', _, rfl, by decide⟩
    | cons v vs =>
      rw [print]
      exact ⟨'[', _, rfl, by decide⟩
  | @object _ ms =>
    cases ms with
    | nil =>
      rw [print]
      exact ⟨'\x7b', _, rfl, by decide⟩
    | cons m ms =>
      rw [print]
      exact ⟨'\x7b', _, rfl, by decide⟩

end Faithful

/-- A value is read back however it is laid out. -/
theorem readValue_print {depth : Nat} {v : Json} (h : Faithful depth v) (o : Layout) (level : Nat)
    {t : List Char} (ht : Stops t) : readValue depth (print o level v ++ t) = .ok (v, t) := by
  -- by induction on the value: what is inside an array or an object is read to a lesser depth
  induction h generalizing level t with
  | null =>
    rw [print]
    exact readValue_of_head (by decide) (by decide) (by decide) _
  | bool b =>
    rw [print]
    cases b with
    | true => exact readValue_of_head (by decide) (by decide) (by decide) _
    | false => exact readValue_of_head (by decide) (by decide) (by decide) _
  | int hn =>
    rw [print]
    exact readValue_printInt _ hn ht
  | str s =>
    rw [print]
    exact readValue_printString _ o.asciiOnly s t
  | @array depth vs hvs ih =>
    have hback (v : Json) (hv : v ∈ vs) : ReadsBack (readValue depth) o (level + 1) v :=
      ⟨(hvs v hv).starts o (level + 1), fun u hu => ih v hv (level + 1) hu⟩
    obtain ⟨r, hprint, hread⟩ := readArray_print level hback t
    rw [hprint, readValue, hread]
  | @object depth ms hnames hms ih =>
    have hback (m : String × Json) (hm : m ∈ ms) :
        ReadsBack (readValue depth) o (level + 1) m.2 :=
      ⟨(hms m hm).starts o (level + 1), fun u hu => ih m hm (level + 1) hu⟩
    obtain ⟨r, hprint, hread⟩ := readObject_print level hback hnames t
    rw [hprint, readValue, hread]

/-- What is printed of a value is read as that value. -/
theorem read_render (o : Layout) {v : Json} (h : Faithful depthLimit v) :
    read (render o v) = .ok v := by
  have hstart := h.starts o 0
  have hvalue := readValue_print h o 0 stops_nil
  have hskip := hstart.skipSpaces []
  rw [List.append_nil] at hvalue hskip
  rw [read_eq_ok, render, String.toList_ofList]
  refine ⟨?_, [], by rw [hskip, hvalue], rfl⟩
  obtain ⟨c, r, hc, hmay⟩ := hstart
  rw [hc]
  intro hmark
  cases hmark
  cases hmay

/-- An array of texts is read back from what is printed of it. -/
theorem read_render_texts (o : Layout) (texts : List String) :
    read (render o (.array (texts.map .str))) = .ok (.array (texts.map .str)) := by
  refine read_render o (.array fun v hv => ?_)
  obtain ⟨s, -, rfl⟩ := List.mem_map.mp hv
  exact .str s

end Json

end MailRules
