import MailRules.Json.Printer
import MailRules.Proofs.Json.Tokens

set_option autoImplicit false

/-!
# Strings in texts

A string that has been printed is read back (`readString_flatMap`). Its characters may be escaped,
those past U+FFFF as two code units, of which the first waits for the second (`addUnit_pair`).

Only a text with a bracket is read as an array (`bracket_mem_of_read`).
-/

namespace MailRules.Json

/-! ## Escapes -/

theorem hexValue?_hexDigit {n : Nat} (h : n < 16) : hexValue? (Text.hexDigit n) = some n := by
  have hall : ∀ m < 16, hexValue? (Text.hexDigit m) = some m := by decide +kernel
  exact hall n h

/-- The escape of a code unit is read as that unit. -/
theorem readChars_unitEscape (waiting : Option Nat) (acc : List Char) {n : Nat} (hn : n < 0x10000)
    {t : List Char} (ht : t ≠ []) :
    readChars waiting acc (unitEscape n ++ t) =
      readChars (addUnit waiting acc n).1 (addUnit waiting acc n).2 t := by
  obtain ⟨c, t, rfl⟩ := List.exists_cons_of_ne_nil ht
  have hunit : unitOf? (Text.hexDigit (n / 16 / 16 / 16 % 16)) (Text.hexDigit (n / 16 / 16 % 16))
      (Text.hexDigit (n / 16 % 16)) (Text.hexDigit (n % 16)) = some n := by
    simp only [unitOf?, hexValue?_hexDigit (Nat.mod_lt _ (by decide : 0 < 16)), Option.bind_eq_bind,
      Option.bind_some, Option.pure_def, Option.some.injEq]
    omega
  simp only [unitEscape, Text.hex, List.nil_append, List.cons_append]
  rw [readChars]
  exact hunit

/-- The code of a character is no surrogate. -/
theorem toNat_valid (c : Char) : c.toNat < 0xd800 ∨ 0xdfff < c.toNat ∧ c.toNat < 0x110000 :=
  c.valid

/-- A character of one code unit is read as itself. -/
theorem addUnit_single (acc : List Char) (c : Char) :
    addUnit none acc c.toNat = (none, c :: acc) := by
  have hvalid := toNat_valid c
  have hfirst : ¬(0xd800 ≤ c.toNat ∧ c.toNat < 0xdc00) := by omega
  have hsecond : ¬(0xdc00 ≤ c.toNat ∧ c.toNat < 0xe000) := by omega
  simp [addUnit, hfirst, hsecond, settle]

/-- The two code units of a character past U+FFFF are read as that character. -/
theorem addUnit_pair (acc : List Char) {c : Char} (hc : 0x10000 ≤ c.toNat) :
    addUnit none acc (0xd800 + (c.toNat - 0x10000) / 0x400) =
        (some (0xd800 + (c.toNat - 0x10000) / 0x400), acc) ∧
      addUnit (some (0xd800 + (c.toNat - 0x10000) / 0x400)) acc
          (0xdc00 + (c.toNat - 0x10000) % 0x400) = (none, c :: acc) := by
  have hvalid := toNat_valid c
  have hcode : 0x10000 + (0xd800 + (c.toNat - 0x10000) / 0x400 - 0xd800) * 0x400 +
      (0xdc00 + (c.toNat - 0x10000) % 0x400 - 0xdc00) = c.toNat := by omega
  constructor
  · have hfirst : 0xd800 ≤ 0xd800 + (c.toNat - 0x10000) / 0x400 ∧
        0xd800 + (c.toNat - 0x10000) / 0x400 < 0xdc00 := by omega
    simp only [addUnit, Bool.and_eq_true, decide_eq_true_eq]
    rw [if_pos hfirst]
    rfl
  · have hfirst : ¬(0xd800 ≤ 0xdc00 + (c.toNat - 0x10000) % 0x400 ∧
        0xdc00 + (c.toNat - 0x10000) % 0x400 < 0xdc00) := by omega
    have hsecond : 0xdc00 ≤ 0xdc00 + (c.toNat - 0x10000) % 0x400 ∧
        0xdc00 + (c.toNat - 0x10000) % 0x400 < 0xe000 := by omega
    simp only [addUnit, Bool.and_eq_true, decide_eq_true_eq]
    rw [if_neg hfirst, if_pos hsecond, hcode, Char.ofNat_toNat]

/-- The escape of a character by its code is read as that character. -/
theorem readChars_codeEscape (acc : List Char) (c : Char) {t : List Char} (ht : t ≠ []) :
    readChars none acc (codeEscape c ++ t) = readChars none (c :: acc) t := by
  have hvalid := toNat_valid c
  unfold codeEscape
  -- two code units are needed from U+10000 on
  by_cases hc : c.toNat < 0x10000
  · simp only [hc, if_true]
    rw [readChars_unitEscape none acc hc ht, addUnit_single]
  · simp only [hc, if_false, List.append_assoc]
    obtain ⟨hfirst, hsecond⟩ := addUnit_pair acc (Nat.le_of_not_lt hc)
    rw [readChars_unitEscape none acc (by omega) (by simp [unitEscape]), hfirst,
      readChars_unitEscape _ acc (by omega) ht, hsecond]

/-- A short escape is read as the character that it stands for. -/
theorem readChars_shortEscape (acc : List Char) {e c : Char} (he : e ≠ 'u')
    (hc : shortEscape? e = some c) (t : List Char) :
    readChars none acc ('\\' :: e :: t) = readChars none (c :: acc) t := by
  rw [readChars, if_neg he, hc]
  · rfl
  · exact fun _ _ _ _ _ h => absurd h he

/-- A character that is not escaped is read as itself. -/
theorem readChars_plain (acc : List Char) {c : Char} (hquote : c ≠ '"') (hslash : c ≠ '\\')
    (hcode : ¬c.toNat < 32) (t : List Char) :
    readChars none acc (c :: t) = readChars none (c :: acc) t := by
  rw [readChars, if_neg hcode]
  · rfl
  all_goals grind

/-- A character is read back however it is written. -/
theorem readChars_escapeChar (asciiOnly : Bool) (acc : List Char) (c : Char) {t : List Char}
    (ht : t ≠ []) :
    readChars none acc (escapeChar asciiOnly c ++ t) = readChars none (c :: acc) t := by
  unfold escapeChar
  by_cases hquote : c = '"'
  · subst hquote
    exact readChars_shortEscape acc (by decide) rfl t
  by_cases hslash : c = '\\'
  · subst hslash
    exact readChars_shortEscape acc (by decide) rfl t
  rw [if_neg hquote, if_neg hslash]
  -- five control characters have short escapes of their own
  split
  · rename_i h
    exact h ▸ readChars_shortEscape acc (by decide) rfl t
  split
  · rename_i h
    exact h ▸ readChars_shortEscape acc (by decide) rfl t
  split
  · rename_i h
    exact h ▸ readChars_shortEscape acc (by decide) rfl t
  split
  · rename_i h
    exact h ▸ readChars_shortEscape acc (by decide) rfl t
  split
  · rename_i h
    exact h ▸ readChars_shortEscape acc (by decide) rfl t
  split
  · exact readChars_codeEscape acc c ht
  · rename_i hplain
    rw [List.singleton_append]
    exact readChars_plain acc hquote hslash (by simp_all) t

/-- The characters of a string are read back. -/
theorem readChars_flatMap (asciiOnly : Bool) (acc cs t : List Char) :
    readChars none acc (cs.flatMap (escapeChar asciiOnly) ++ '"' :: t) =
      .ok (acc.reverse ++ cs, t) := by
  induction cs generalizing acc with
  | nil =>
    rw [List.flatMap_nil, List.nil_append, readChars, List.append_nil]
    rfl
  | cons c cs ih =>
    rw [List.flatMap_cons, List.append_assoc, readChars_escapeChar asciiOnly acc c (by simp), ih,
      List.reverse_cons, List.append_assoc, List.singleton_append]

/-- A string is read back from after its opening quote. -/
theorem readString_flatMap (asciiOnly : Bool) (s : String) (whole t : List Char) :
    readString whole (s.toList.flatMap (escapeChar asciiOnly) ++ '"' :: t) = .ok (s, t) := by
  rw [readString, readChars_flatMap, List.reverse_nil, List.nil_append]
  exact congrArg (fun u => Except.ok (u, t)) String.ofList_toList

theorem printString_append (asciiOnly : Bool) (s : String) (t : List Char) :
    printString asciiOnly s ++ t =
      '"' :: (s.toList.flatMap (escapeChar asciiOnly) ++ '"' :: t) := by
  simp [printString]

/-- A string is read back. -/
theorem readValue_printString (depth : Nat) (asciiOnly : Bool) (s : String) (t : List Char) :
    readValue depth (printString asciiOnly s ++ t) = .ok (.str s, t) := by
  rw [printString_append]
  cases depth with
  | zero => rw [readValue, readString_flatMap]; rfl
  | succ depth => rw [readValue, readString_flatMap]; rfl

/-! ## What is read as an array -/

theorem readNumber_kindName {whole s r : List Char} {negative : Bool} {v : Json}
    (h : readNumber whole negative s = .ok (v, r)) : v.kindName ≠ "list" := by
  simp only [readNumber, problemAt] at h
  repeat' split at h
  all_goals cases h
  all_goals simp [kindName]

theorem readScalar_kindName {s r : List Char} {v : Json} (h : readScalar s = .ok (v, r)) :
    v.kindName ≠ "list" := by
  have hliterals : ∀ l ∈ literals, l.2.kindName ≠ "list" := by
    simp [literals, kindName]
  unfold readScalar at h
  split at h
  · rename_i word w hfind
    cases h
    exact hliterals _ (List.mem_of_find?_eq_some hfind)
  · split at h
    · exact readNumber_kindName h
    · exact readNumber_kindName h

theorem readMembers_kindName {value : List Char → Reading Json} {fuel : Nat} {acc : Members Json}
    {s r : List Char} {v : Json} (h : readMembers value fuel acc s = .ok (v, r)) :
    v.kindName ≠ "list" := by
  induction fuel generalizing acc s with
  | zero => cases h
  | succ fuel ih =>
    simp only [readMembers, problemAt] at h
    repeat' split at h
    all_goals first
      | exact ih h
      | cases h
    simp [kindName]

theorem readObject_kindName {value : List Char → Reading Json} {s r : List Char} {v : Json}
    (h : readObject value s = .ok (v, r)) : v.kindName ≠ "list" := by
  unfold readObject at h
  split at h
  · cases h
    simp [kindName]
  · exact readMembers_kindName h

theorem map_str_kindName {o : Reading String} {r : List Char} {v : Json}
    (h : (o.map fun p => (Json.str p.1, p.2)) = .ok (v, r)) : v.kindName ≠ "list" := by
  rcases o with _ | p
  · cases h
  · cases h
    simp [kindName]

/-- Only what starts with a bracket is read as an array. -/
theorem readValue_array {depth : Nat} {s r : List Char} {items : List Json}
    (h : readValue depth s = .ok (.array items, r)) : ∃ t, s = '[' :: t := by
  have hlist : (Json.array items).kindName = "list" := rfl
  cases depth with
  | zero =>
    unfold readValue at h
    split at h
    · exact absurd hlist (map_str_kindName h)
    · cases h
    · cases h
    · exact absurd hlist (readScalar_kindName h)
  | succ depth =>
    unfold readValue at h
    split at h
    · exact absurd hlist (map_str_kindName h)
    · exact ⟨_, rfl⟩
    · exact absurd hlist (readObject_kindName h)
    · exact absurd hlist (readScalar_kindName h)

/-- The text of an array has a bracket. -/
theorem bracket_mem_of_read {text : String} {items : List Json}
    (h : read text = .ok (.array items)) : '[' ∈ text.toList := by
  obtain ⟨-, r, hread, -⟩ := read_eq_ok.mp h
  obtain ⟨t, ht⟩ := readValue_array hread
  have hmem : '[' ∈ skipSpaces text.toList := by
    rw [ht]
    exact List.mem_cons_self
  exact (List.dropWhile_sublist _).mem hmem

end MailRules.Json
