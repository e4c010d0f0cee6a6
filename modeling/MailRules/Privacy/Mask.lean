import MailRules.Text.Blank

set_option autoImplicit false

/-!
# Masking addresses

An address in a text is a run of local characters, an `@`, and a run of domain characters. Masking
keeps the first two characters of the local part and the whole domain, from left to right; the text
that a masked address ends in is not looked at again.
-/

namespace MailRules.Privacy

/-- A character of the local part of an address. -/
def isLocal (c : Char) : Bool :=
  c.isAlphanum || c = '.' || c = '_' || c = '%' || c = '+' || c = '-'

/-- A character of the domain of an address. -/
def isHost (c : Char) : Bool :=
  c.isAlphanum || c = '.' || c = '-'

/-- What stands for the hidden part of an address. -/
def marker : List Char := ['*', '*', '*']

/-- Where masking is in a text: after local characters that may begin an address (last first), or
inside the domain of a masked address. -/
inductive Place
  | after (pending : List Char)
  | host
  deriving Repr, DecidableEq

/-- Masks the rest of a text. -/
def maskFrom : Place → List Char → List Char
  | .after pending, [] => pending.reverse
  | .host, [] => []
  | .after pending, c :: r =>
    if isLocal c then maskFrom (.after (c :: pending)) r
    else if c = '@' && !pending.isEmpty && r.head?.any isHost then
      pending.reverse.take 2 ++ marker ++ '@' :: maskFrom .host r
    else pending.reverse ++ c :: maskFrom (.after []) r
  | .host, c :: r =>
    if isHost c then c :: maskFrom .host r
    else if isLocal c then maskFrom (.after [c]) r
    else c :: maskFrom (.after []) r

/-- A text with its addresses masked. -/
def maskChars (s : List Char) : List Char :=
  maskFrom (.after []) s

/-- A text with its addresses masked. -/
def mask (s : String) : String :=
  Text.mapText maskChars s

/-- The first characters of a text. -/
def cut (n : Nat) (s : String) : String :=
  Text.mapText (List.take n) s

example : mask "Contact alice@example.com." = "Contact al***@example.com." := by decide +kernel
example : mask "aa@bb@cc@dd a@" = "aa***@bb@cc***@dd a@" := by decide +kernel

end MailRules.Privacy
