import MailRules.Proofs.Json.RoundTrip

set_option autoImplicit false

/-!
# Values on one line

A value that is read back can be written, and where members do not go on lines of their own there is
no line feed in what is printed of it (`lineFeed_not_mem_render`), whatever texts it holds: in a
string a line feed is escaped.
-/

namespace MailRules.Json

/-! ## Strings and numbers -/

theorem unitEscape_oneLine (n : Nat) : '\n' ∉ unitEscape n := by
  have hdigit : ∀ m < 16, '\n' ≠ Text.hexDigit m := by decide +kernel
  have hdigits (m : Nat) : '\n' ≠ Text.hexDigit (m % 16) := hdigit _ (Nat.mod_lt _ (by decide))
  simp [unitEscape, Text.hex, hdigits]

theorem codeEscape_oneLine (c : Char) : '\n' ∉ codeEscape c := by
  unfold codeEscape
  dsimp only
  split
  · exact unitEscape_oneLine _
  · exact List.not_mem_append (unitEscape_oneLine _) (unitEscape_oneLine _)

/-- No character is written as a line feed, not even that. -/
theorem escapeChar_oneLine (asciiOnly : Bool) (c : Char) : '\n' ∉ escapeChar asciiOnly c := by
  by_cases hfeed : c = '\n'
  · subst hfeed
    cases asciiOnly <;> decide
  · unfold escapeChar
    -- all escapes but the last are two characters
    repeat'
      split
    all_goals first
      | exact codeEscape_oneLine c
      | simp [Ne.symm hfeed]

theorem printString_oneLine (asciiOnly : Bool) (s : String) :
    '\n' ∉ printString asciiOnly s := by
  have hchars : '\n' ∉ s.toList.flatMap (escapeChar asciiOnly) := by
    rw [List.mem_flatMap]
    rintro ⟨c, -, hc⟩
    exact escapeChar_oneLine asciiOnly c hc
  simp [printString, hchars]

theorem printInt_oneLine (n : Int) : '\n' ∉ printInt n := by
  have hdigits : '\n' ∉ Decimal.digitsOf n.natAbs := by
    intro h
    cases isDigit_of_mem_digitsOf h
  simp only [printInt]
  split
  · simp [hdigits]
  · exact hdigits

/-! ## Values -/

section

variable {o : Layout} {depth level : Nat}

theorem lead_oneLine (ho : o.indent = none) (level : Nat) : '\n' ∉ o.lead level := by
  simp [Layout.lead, ho]

theorem comma_oneLine (ho : o.indent = none) (level : Nat) : '\n' ∉ o.comma level := by
  simp [Layout.comma, ho]

theorem printItems_oneLine (ho : o.indent = none) {vs : List Json}
    (h : ∀ v ∈ vs, '\n' ∉ print o level v) : '\n' ∉ printItems o level vs := by
  induction vs with
  | nil => simp [printItems]
  | cons v vs ih =>
    obtain ⟨hv, hvs⟩ := List.forall_mem_cons.mp h
    simp [printItems, comma_oneLine ho, hv, ih hvs]

theorem printMembers_oneLine (ho : o.indent = none) {ms : Members Json}
    (h : ∀ m ∈ ms, '\n' ∉ print o level m.2) : '\n' ∉ printMembers o level ms := by
  induction ms with
  | nil => simp [printMembers]
  | cons m ms ih =>
    obtain ⟨hm, hms⟩ := List.forall_mem_cons.mp h
    simp [printMembers, comma_oneLine ho, printString_oneLine, hm, ih hms]

/-- Where members stay on one line, so does the value. -/
theorem print_oneLine (ho : o.indent = none) {v : Json} (h : Faithful depth v) (level : Nat) :
    '\n' ∉ print o level v := by
  induction h generalizing level with
  | null => simp [print]
  | bool b => cases b <;> simp [print]
  | @int _ n => simpa [print] using printInt_oneLine n
  | str s => simpa [print] using printString_oneLine o.asciiOnly s
  | @array _ vs _ ih =>
    cases vs with
    | nil => simp [print]
    | cons v vs =>
      obtain ⟨hv, hvs⟩ := List.forall_mem_cons.mp fun v hv => ih v hv (level + 1)
      simp [print, lead_oneLine ho, hv, printItems_oneLine ho hvs]
  | @object _ ms _ _ ih =>
    cases ms with
    | nil => simp [print]
    | cons m ms =>
      obtain ⟨hm, hms⟩ := List.forall_mem_cons.mp fun m hm => ih m hm (level + 1)
      simp [print, lead_oneLine ho, printString_oneLine, hm, printMembers_oneLine ho hms]

theorem lineFeed_not_mem_render (ho : o.indent = none) {v : Json} (h : Faithful depth v) :
    '\n' ∉ (render o v).toList := by
  rw [render, String.toList_ofList]
  exact print_oneLine ho h 0

/-- A value that is read back can be written. -/
theorem Faithful.isWritable {v : Json} (h : Faithful depth v) : v.isWritable = true := by
  induction h with
  | int hn => simpa [Json.isWritable] using hn
  | array _ ih => simpa [Json.isWritable, areWritable_iff] using ih
  | object _ _ ih => simpa [Json.isWritable, haveWritable_iff] using ih
  | _ => simp [Json.isWritable]

end

end MailRules.Json
