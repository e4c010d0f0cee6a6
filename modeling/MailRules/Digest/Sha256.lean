import MailRules.Text.Quoted

set_option autoImplicit false

/-!
# SHA-256

The digest of FIPS 180-4 of a text in UTF-8. Texts are cut into blocks of sixteen words; a block's
schedule of 64 words is mixed into a state of eight words.
-/

namespace MailRules.Digest

/-- The first 32 bits of the fractional parts of the cube roots of the first 64 primes. -/
def roundConstants : List UInt32 := [
  0x428a2f98, 0x71374491, 0xb5c0fbcf, 0xe9b5dba5, 0x3956c25b, 0x59f111f1, 0x923f82a4, 0xab1c5ed5,
  0xd807aa98, 0x12835b01, 0x243185be, 0x550c7dc3, 0x72be5d74, 0x80deb1fe, 0x9bdc06a7, 0xc19bf174,
  0xe49b69c1, 0xefbe4786, 0x0fc19dc6, 0x240ca1cc, 0x2de92c6f, 0x4a7484aa, 0x5cb0a9dc, 0x76f988da,
  0x983e5152, 0xa831c66d, 0xb00327c8, 0xbf597fc7, 0xc6e00bf3, 0xd5a79147, 0x06ca6351, 0x14292967,
  0x27b70a85, 0x2e1b2138, 0x4d2c6dfc, 0x53380d13, 0x650a7354, 0x766a0abb, 0x81c2c92e, 0x92722c85,
  0xa2bfe8a1, 0xa81a664b, 0xc24b8b70, 0xc76c51a3, 0xd192e819, 0xd6990624, 0xf40e3585, 0x106aa070,
  0x19a4c116, 0x1e376c08, 0x2748774c, 0x34b0bcb5, 0x391c0cb3, 0x4ed8aa4a, 0x5b9cca4f, 0x682e6ff3,
  0x748f82ee, 0x78a5636f, 0x84c87814, 0x8cc70208, 0x90befffa, 0xa4506ceb, 0xbef9a3f7, 0xc67178f2]

/-- The eight words of a state. -/
structure State where
  a : UInt32
  b : UInt32
  c : UInt32
  d : UInt32
  e : UInt32
  f : UInt32
  g : UInt32
  h : UInt32

/-- The first 32 bits of the fractional parts of the square roots of the first eight primes. -/
def State.initial : State :=
  ⟨0x6a09e667, 0xbb67ae85, 0x3c6ef372, 0xa54ff53a, 0x510e527f, 0x9b05688c, 0x1f83d9ab, 0x5be0cd19⟩

/-- A word turned to the right. -/
def rotate (x : UInt32) (n : UInt32) : UInt32 :=
  (x >>> n) ||| (x <<< (32 - n))

/-- One round with a word of the schedule and a constant. -/
def State.round (s : State) (word constant : UInt32) : State :=
  let s1 := rotate s.e 6 ^^^ rotate s.e 11 ^^^ rotate s.e 25
  let choice := (s.e &&& s.f) ^^^ ((~~~ s.e) &&& s.g)
  let t1 := s.h + s1 + choice + constant + word
  let s0 := rotate s.a 2 ^^^ rotate s.a 13 ^^^ rotate s.a 22
  let majority := (s.a &&& s.b) ^^^ (s.a &&& s.c) ^^^ (s.b &&& s.c)
  ⟨t1 + (s0 + majority), s.a, s.b, s.c, s.d + t1, s.e, s.f, s.g⟩

/-- The sums of two states, word by word. -/
def State.add (s t : State) : State :=
  ⟨s.a + t.a, s.b + t.b, s.c + t.c, s.d + t.d, s.e + t.e, s.f + t.f, s.g + t.g, s.h + t.h⟩

/-- Adds `count` words to a schedule whose words are listed last first. -/
def extend : (count : Nat) → List UInt32 → List UInt32
  | 0, ws => ws
  | count + 1, ws =>
    let at_ (n : Nat) : UInt32 := ws.getD (n - 1) 0
    let x := at_ 15
    let y := at_ 2
    let s0 := rotate x 7 ^^^ rotate x 18 ^^^ (x >>> 3)
    let s1 := rotate y 17 ^^^ rotate y 19 ^^^ (y >>> 10)
    extend count ((at_ 16 + s0 + at_ 7 + s1) :: ws)

/-- The schedule of a block of sixteen words. -/
def schedule (block : List UInt32) : List UInt32 :=
  (extend 48 block.reverse).reverse

/-- Mixes a block into a state. -/
def State.mix (s : State) (block : List UInt32) : State :=
  s.add (((schedule block).zip roundConstants).foldl (fun t p => t.round p.1 p.2) s)

/-- A number as bytes, highest first. -/
def bytesOf (width n : Nat) : List Nat :=
  match width with
  | 0 => []
  | w + 1 => bytesOf w (n / 256) ++ [n % 256]

/-- The bytes of a message, a byte 0x80, zeros up to the end of a block but for eight bytes, and the
length of the message in bits. -/
def pad (bytes : List Nat) : List Nat :=
  let zeros := (119 - bytes.length % 64) % 64
  bytes ++ 0x80 :: (List.replicate zeros 0 ++ bytesOf 8 (8 * bytes.length))

/-- Bytes taken together to words, four at a time. -/
def wordsOf : List Nat → List UInt32
  | a :: b :: c :: d :: r => UInt32.ofNat (((a * 256 + b) * 256 + c) * 256 + d) :: wordsOf r
  | _ => []

/-- Mixes blocks of sixteen words into a state, `fuel` blocks at most. -/
def State.mixAll (s : State) : (fuel : Nat) → List UInt32 → State
  | 0, _ => s
  | fuel + 1, ws =>
    if ws.isEmpty then s else (s.mix (ws.take 16)).mixAll fuel (ws.drop 16)

/-- The words of a state. -/
def State.toList (s : State) : List UInt32 :=
  [s.a, s.b, s.c, s.d, s.e, s.f, s.g, s.h]

/-- The digest of a text as 64 hexadecimal digits. -/
def sha256 (text : String) : String :=
  let words := wordsOf (pad (text.toUTF8.toList.map UInt8.toNat))
  let final := State.initial.mixAll words.length words
  String.ofList (final.toList.flatMap (fun w => Text.hex 8 w.toNat))

end MailRules.Digest
