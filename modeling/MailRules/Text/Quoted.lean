import MailRules.Text.Printable

set_option autoImplicit false

/-!
# Quoted literals

A text as a literal for messages: in single quotes, or in double quotes when it holds single quotes
and no double ones. The backslash and the quote in use are escaped, the common control characters
have short escapes, and every other character that does not print is written by its code in two,
four or eight hexadecimal digits.
-/

namespace MailRules.Text

/-- One hexadecimal digit, in lower case. -/
def hexDigit (n : Nat) : Char :=
  if n < 10 then Char.ofNat (48 + n) else Char.ofNat (87 + n)

/-- The last `width` hexadecimal digits of a number. -/
def hex (width n : Nat) : List Char :=
  match width with
  | 0 => []
  | w + 1 => hex w (n / 16) ++ [hexDigit (n % 16)]

/-- The escape of a character by its code. -/
def codeEscape (c : Char) : List Char :=
  let n := c.toNat
  if n < 0x100 then '\\' :: 'x' :: hex 2 n
  else if n < 0x10000 then '\\' :: 'u' :: hex 4 n
  else '\\' :: 'U' :: hex 8 n

/-- The written form of one character inside a literal. -/
def quoteChar (quote c : Char) : List Char :=
  if c = quote || c = '\\' then ['\\', c]
  else if c = '\n' then ['\\', 'n']
  else if c = '\r' then ['\\', 'r']
  else if c = '\t' then ['\\', 't']
  else if isPrintable c then [c]
  else codeEscape c

/-- The quote that a text's literal is written in. -/
def quoteFor (s : List Char) : Char :=
  let single := Char.ofNat 39
  if s.contains single && !s.contains '"' then '"' else single

/-- A text as a quoted literal. -/
def quoted (s : String) : String :=
  let q := quoteFor s.toList
  String.ofList (q :: s.toList.flatMap (quoteChar q) ++ [q])

/-- Bytes as a quoted literal: ASCII characters as themselves, every other byte by its code. -/
def quotedBytes (bytes : List UInt8) : String :=
  let cs := bytes.map (fun b => Char.ofNat b.toNat)
  let q := quoteFor cs
  let shown (c : Char) : List Char := if c.toNat < 0x7f then quoteChar q c else codeEscape c
  String.ofList ('b' :: q :: cs.flatMap shown ++ [q])

example : quoted "a'b" = "\"a'b\"" := by decide +kernel
example : quotedBytes [0x61, 0x27, 0xe9, 0] = "b\"a'\\xe9\\x00\"" := by decide +kernel
example : quoted "a'\"\n\u200b" = "'a\\'\"\\n\\u200b'" := by decide +kernel

end MailRules.Text
