import MailRules.Text.Encoding
import MailRules.Text.Segment
import MailRules.Yaml.Fault

set_option autoImplicit false

/-!
# Tokens of a YAML text

A text in YAML 1.1 is first cut into tokens. Block structure is made explicit: a column further to
the right opens a block (`blockSequenceStart`, `blockMappingStart`), a column further to the left
closes blocks (`blockEnd`). A scalar or collection turns out to be a mapping key only when the
colon after it is met, so the place of a *possible key* is remembered and the `key` token is put
in there later; such a key has to stay on one line and within 1024 characters.

`Cursor` holds the text that is left and where it starts. Every step takes characters off the text,
so the number of steps is bounded by its length.
-/

namespace MailRules.Yaml

/-- The tag written before a node: a handle, unless the tag is given in full, and the rest. -/
structure TagName where
  handle : Option String
  suffix : String
  deriving Repr, DecidableEq

/-- A token. -/
inductive Token
  | streamEnd
  /-- A version line, or a line that gives a tag handle its meaning; other such lines say
  nothing. -/
  | version (major : Nat)
  | tagHandle (handle meaning : String)
  | otherDirective
  | documentStart
  | documentEnd
  | blockSequenceStart
  | blockMappingStart
  | blockEnd
  | flowSequenceStart
  | flowMappingStart
  | flowSequenceEnd
  | flowMappingEnd
  | flowEntry
  | blockEntry
  | key
  | value
  | alias (name : String)
  | anchor (name : String)
  | tag (name : TagName)
  | scalar (text : String) (plain : Bool)
  deriving Repr, DecidableEq

/-- A place where a key may have begun. -/
structure PossibleKey where
  /-- How deep in flow collections the place is. -/
  level : Nat
  /-- The number of tokens before the place. -/
  tokens : Nat
  /-- Whether nothing but a key can stand there. -/
  required : Bool
  index : Nat
  line : Nat
  column : Nat
  deriving Repr, DecidableEq

/-- The text that is left, its place, and what has been found so far. -/
structure Cursor where
  rest : List Char
  /-- How many characters the whole text has. -/
  size : Nat
  index : Nat := 0
  line : Nat := 0
  column : Nat := 0
  /-- How many flow collections are open. -/
  flow : Nat := 0
  /-- The column of the innermost block, and of those around it. -/
  indent : Int := -1
  outer : List Int := []
  /-- Whether a key may begin here. -/
  keyAllowed : Bool := true
  keys : List PossibleKey := []
  /-- The tokens so far, the latest first, and how many there are. -/
  tokens : List Token := []
  count : Nat := 0
  deriving Repr

/-- A step that moves the cursor. -/
abbrev Scanner := StateT Cursor (Except Fault)

/-- Whether a character ends a line. -/
def isBreak (c : Char) : Bool :=
  c = '\n' || c = '\r' || c = '\u0085' || c = '\u2028' || c = '\u2029'

/-- Whether a text is at its end or at the end of a line. -/
def atLineEnd (s : List Char) : Bool :=
  s.head?.all isBreak

/-- Whether a text is at its end, at the end of a line, or at a space. -/
def atSpace (s : List Char) : Bool :=
  s.head?.all (fun c => isBreak c || c = ' ')

/-- Whether a text is at its end, at the end of a line, at a space or at a tab. -/
def atBlank (s : List Char) : Bool :=
  s.head?.all (fun c => isBreak c || c = ' ' || c = '\t')

namespace Cursor

/-- Takes one character off the text. -/
def advance (k : Cursor) : Cursor :=
  match k.rest with
  | [] => k
  | c :: r =>
    if isBreak c && !(c = '\r' && r.head? = some '\n') then
      { k with rest := r, index := k.index + 1, line := k.line + 1, column := 0 }
    else if c = '\ufeff' then { k with rest := r, index := k.index + 1 }
    else { k with rest := r, index := k.index + 1, column := k.column + 1 }

/-- Takes characters off the text. -/
def advanceBy (k : Cursor) : Nat → Cursor
  | 0 => k
  | n + 1 => advanceBy k.advance n

/-- Whether the text is at a line that separates documents. -/
def atSeparator (k : Cursor) : Bool :=
  let mark := k.rest.take 3
  (mark = "---".toList || mark = "...".toList) && atBlank (k.rest.drop 3)

end Cursor

/-- The next character, if any is left. -/
def peek : Scanner (Option Char) := do
  return (← get).rest.head?

/-- More steps than the text that is left can take. -/
def limit : Scanner Nat := do
  return (← get).size + 1

/-- Takes characters off the text. -/
def forward (n : Nat) : Scanner Unit :=
  modify (·.advanceBy n)

/-- Takes the characters of a class off the text. -/
def takeWhile (p : Char → Bool) : Scanner (List Char) := do
  let cs := (← get).rest.takeWhile p
  forward cs.length
  return cs

/-- Adds a token. -/
def emit (t : Token) : Scanner Unit :=
  modify fun k => { k with tokens := t :: k.tokens, count := k.count + 1 }

/-- Takes a line break off the text, if there is one, and tells what it counts as. -/
def lineBreak : Scanner (List Char) := do
  match (← get).rest with
  | '\r' :: '\n' :: _ => forward 2; return ['\n']
  | c :: _ =>
    if c = '\u2028' || c = '\u2029' then forward 1; return [c]
    else if isBreak c then forward 1; return ['\n']
    else return []
  | [] => return []

/-- Closes the blocks that a column lies to the left of. -/
def unwindTo (column : Int) : Scanner Unit :=
  modify fun k =>
    if k.flow ≠ 0 then k
    else
      let rec go (indent : Int) (closed : List Token) : List Int → Int × List Int × List Token
        | [] => (indent, [], closed)
        | o :: os =>
          if column < indent then go o (.blockEnd :: closed) os else (indent, o :: os, closed)
      let (indent, outer, closed) := go k.indent [] k.outer
      { k with
        indent := indent
        outer := outer
        tokens := closed ++ k.tokens
        count := k.count + closed.length }

/-- Opens a block at a column if it lies to the right of the innermost one, and tells whether. -/
def openBlock (column : Int) : Scanner Bool := do
  let k ← get
  if k.indent < column then
    set { k with indent := column, outer := k.indent :: k.outer }
    return true
  else return false

/-- Forgets possible keys that cannot be keys any more. -/
def dropStaleKeys : Scanner Unit := do
  let k ← get
  let stale (p : PossibleKey) : Bool := p.line ≠ k.line || 1024 < k.index - p.index
  if k.keys.any (fun p => stale p && p.required) then throw .token
  set { k with keys := k.keys.filter (fun p => !stale p) }

/-- Forgets the possible key of the innermost collection. -/
def dropKey : Scanner Unit := do
  let k ← get
  if k.keys.any (fun p => p.level = k.flow && p.required) then throw .token
  set { k with keys := k.keys.filter (fun p => p.level ≠ k.flow) }

/-- Remembers that a key may begin here. -/
def saveKey : Scanner Unit := do
  let k ← get
  if k.keyAllowed then
    dropKey
    modify fun k' => { k' with keys :=
      ⟨k.flow, k.count, k.flow = 0 && k.indent = (k.column : Int), k.index, k.line,
        k.column⟩ :: k'.keys }

/-- Says whether a key may begin after this. -/
def allowKey (b : Bool) : Scanner Unit :=
  modify fun k => { k with keyAllowed := b }

/-- Takes spaces, comments and line breaks off the text, `fuel` lines at most. -/
def toNextToken : (fuel : Nat) → Scanner Unit
  | 0 => return
  | fuel + 1 => do
    let _ ← takeWhile (· = ' ')
    if (← peek) = some '#' then
      let _ ← takeWhile (fun c => !isBreak c)
    match ← lineBreak with
    | [] => return
    | _ =>
      if (← get).flow = 0 then allowKey true
      toNextToken fuel

/-- A character of a name. -/
def isNameChar (c : Char) : Bool :=
  c.isAlphanum || c = '-' || c = '_'

/-- Takes a name off the text, that of an alias or an anchor, after its mark. -/
def nodeName : Scanner String := do
  forward 1
  let cs ← takeWhile isNameChar
  if cs.isEmpty then throw .token
  let rest := (← get).rest
  if atBlank rest || rest.head?.any ("?:,]\x7d%@".toList.contains ·) ||
      rest.head?.any (·.toNat = 96) then
    return String.ofList cs
  else throw .token

/-- A character of a tag. -/
def isTagChar (c : Char) : Bool :=
  c.isAlphanum || "-;/?:@&=+$,_.!~*'()[]".toList.contains c

/-- The value of a hexadecimal digit. -/
def hexValue? (c : Char) : Option Nat :=
  if c.isDigit then some (c.toNat - 48)
  else if 'a' ≤ c && c ≤ 'f' then some (c.toNat - 87)
  else if 'A' ≤ c && c ≤ 'F' then some (c.toNat - 55)
  else none

/-- The number that hexadecimal digits spell. -/
def hexNumber? (cs : List Char) : Option Nat :=
  cs.foldlM (fun n c => (hexValue? c).map (n * 16 + ·)) 0

/-- Takes escaped bytes off the text, `fuel` of them at most. -/
def tagBytes : (fuel : Nat) → List UInt8 → Scanner (List UInt8)
  | 0, acc => return acc
  | fuel + 1, acc => do
    match (← get).rest with
    | '%' :: digits =>
      if (digits.take 2).length < 2 then throw .token
      match hexNumber? (digits.take 2) with
      | some n =>
        forward 3
        tagBytes fuel (acc ++ [UInt8.ofNat n])
      | none => throw .token
    | _ => return acc

/-- Takes the main part of a tag off the text; bytes that are escaped one after the other are text
in UTF-8. -/
def tagText : (fuel : Nat) → List Char → Scanner (List Char)
  | 0, acc => return acc
  | fuel + 1, acc => do
    let cs ← takeWhile isTagChar
    if (← peek) = some '%' then
      match Text.ofUtf8? (← tagBytes (← limit) []) with
      | some s => tagText fuel (acc ++ cs ++ s.toList)
      | none => throw .token
    else
      if (acc ++ cs).isEmpty then throw .token
      return acc ++ cs

/-- Takes the handle of a tag off the text. -/
def tagHandleText : Scanner String := do
  forward 1
  let cs ← takeWhile isNameChar
  match (← get).rest with
  | '!' :: _ =>
    forward 1
    return String.ofList ('!' :: cs ++ ['!'])
  | r =>
    if cs.isEmpty && r.head? = some ' ' then return "!" else throw .token

/-- Takes a tag off the text. -/
def tagName : Scanner TagName := do
  let rest := (← get).rest
  let name ←
    match rest.drop 1 with
    | '<' :: _ =>
      forward 2
      let cs ← tagText (← limit) []
      if (← peek) ≠ some '>' then throw .token
      forward 1
      pure ⟨none, String.ofList cs⟩
    | r =>
      if atBlank r then
        forward 1
        pure ⟨none, "!"⟩
      else
        let word := r.takeWhile (fun c => !isBreak c && c ≠ ' ')
        let handle ← if word.contains '!' then tagHandleText else do forward 1; pure "!"
        pure ⟨some handle, String.ofList (← tagText (← limit) [])⟩
  if atSpace (← get).rest then return name else throw .token

/-- Takes the rest of a line off the text that has nothing but spaces and a comment. -/
def emptyRest : Scanner Unit := do
  let _ ← takeWhile (· = ' ')
  if (← peek) = some '#' then
    let _ ← takeWhile (fun c => !isBreak c)
  if !atLineEnd (← get).rest then throw .token
  let _ ← lineBreak

/-- Takes a whole number off the text. -/
def versionNumber : Scanner Nat := do
  let cs ← takeWhile Char.isDigit
  if cs.isEmpty then throw .token
  if Decimal.digitLimit < cs.length then throw (.value (.tooLong cs.length))
  return cs.foldl (fun n c => 10 * n + (c.toNat - 48)) 0

/-- Takes a directive off the text. -/
def directive : Scanner Token := do
  forward 1
  let name ← takeWhile isNameChar
  if name.isEmpty || !atSpace (← get).rest then throw .token
  let t ←
    if name = "YAML".toList then do
      let _ ← takeWhile (· = ' ')
      let major ← versionNumber
      if (← peek) ≠ some '.' then throw .token
      forward 1
      let _ ← versionNumber
      if !atSpace (← get).rest then throw .token
      pure (.version major)
    else if name = "TAG".toList then do
      let _ ← takeWhile (· = ' ')
      if (← peek) ≠ some '!' then throw .token
      let handle ← tagHandleText
      if (← peek) ≠ some ' ' then throw .token
      let _ ← takeWhile (· = ' ')
      let meaning ← tagText (← limit) []
      if !atSpace (← get).rest then throw .token
      pure (.tagHandle handle (String.ofList meaning))
    else do
      let _ ← takeWhile (fun c => !isBreak c)
      pure .otherDirective
  emptyRest
  return t

/-- Takes spaces off the text up to a column. -/
def spacesTo (column : Nat) : Scanner Unit := do
  let k ← get
  let spaces := (k.rest.takeWhile (· = ' ')).length
  forward (min spaces (column - k.column))

/-- Takes empty lines off the text, and the indentation after each; gives their breaks after those
before, the latest of which is first. -/
def emptyLines (indent : Nat) : (fuel : Nat) → List Char → Scanner (List Char)
  | 0, acc => return acc.reverse
  | fuel + 1, acc => do
    spacesTo indent
    match ← lineBreak with
    | [] => return acc.reverse
    | b => emptyLines indent fuel (b ++ acc)

/-- Takes empty lines off the text and finds the deepest indentation on them. -/
def leadingLines : (fuel : Nat) → List Char → Nat → Scanner (List Char × Nat)
  | 0, acc, deepest => return (acc.reverse, deepest)
  | fuel + 1, acc, deepest => do
    let _ ← takeWhile (· = ' ')
    let deepest := max deepest (← get).column
    match ← lineBreak with
    | [] => return (acc.reverse, deepest)
    | b => leadingLines fuel (b ++ acc) deepest

/-- What becomes of the line breaks at the end of a block scalar. -/
inductive Chomping
  | strip
  | clip
  | keep
  deriving Repr, DecidableEq

/-- The marks after the sign of a block scalar: what to do with its end, and its indentation. -/
def blockMarks : Scanner (Chomping × Option Nat) := do
  let sign? (c : Option Char) : Option Chomping :=
    if c = some '+' then some .keep else if c = some '-' then some .strip else none
  let digit? (c : Option Char) : Option Nat :=
    c.bind fun d => if d.isDigit then some (d.toNat - 48) else none
  let mut chomping := Chomping.clip
  let mut increment : Option Nat := none
  match sign? (← peek) with
  | some s =>
    chomping := s
    forward 1
    match digit? (← peek) with
    | some d =>
      increment := some d
      forward 1
    | none => pure ()
  | none =>
    match digit? (← peek) with
    | some d =>
      increment := some d
      forward 1
      match sign? (← peek) with
      | some s =>
        chomping := s
        forward 1
      | none => pure ()
    | none => pure ()
  if increment = some 0 || !atSpace (← get).rest then throw .token
  return (chomping, increment)

/-- Takes the lines of a block scalar off the text, the first of them after the breaks `breaks`;
gives the text, the break after its last line, and the breaks after that. Of the characters before,
the latest is first. -/
def blockLines (folded : Bool) (indent : Nat) :
    (fuel : Nat) → List Char → List Char → Scanner (List Char × List Char × List Char)
  | 0, acc, breaks => return (acc.reverse, [], breaks)
  | fuel + 1, acc, breaks => do
    let flush (s : List Char) : Bool := s.head?.any (fun c => c ≠ ' ' && c ≠ '\t')
    let begins := flush (← get).rest
    let line ← takeWhile (fun c => !isBreak c)
    let lineEnd ← lineBreak
    let acc := line.reverse ++ (breaks.reverse ++ acc)
    let breaks ← emptyLines indent (← limit) []
    let k ← get
    if k.column = indent && !k.rest.isEmpty then
      let acc :=
        if folded && lineEnd = ['\n'] && begins && flush k.rest then
          (if breaks.isEmpty then ' ' :: acc else acc)
        else lineEnd ++ acc
      blockLines folded indent fuel acc breaks
    else return (acc.reverse, lineEnd, breaks)

/-- Takes a block scalar off the text. -/
def blockScalar (folded : Bool) : Scanner Token := do
  forward 1
  let (chomping, increment) ← blockMarks
  emptyRest
  let k ← get
  let least := (max 1 (k.indent + 1)).toNat
  let (indent, breaks) ←
    match increment with
    | some n => do
      let indent := least + n - 1
      pure (indent, ← emptyLines indent (← limit) [])
    | none => do
      let (breaks, deepest) ← leadingLines (← limit) [] 0
      pure (max least deepest, breaks)
  let k ← get
  let (text, lineEnd, breaks) ←
    if k.column = indent && !k.rest.isEmpty then
      blockLines folded indent (← limit) [] breaks
    else pure ([], [], breaks)
  let tail := match chomping with
    | .strip => []
    | .clip => lineEnd
    | .keep => lineEnd ++ breaks
  return .scalar (String.ofList (text ++ tail)) false

/-- The character that an escape of one letter stands for. -/
def escape? (c : Char) : Option Char :=
  [('0', '\x00'), ('a', '\x07'), ('b', '\x08'), ('t', '\t'), ('\t', '\t'), ('n', '\n'),
    ('v', '\x0b'), ('f', '\x0c'), ('r', '\r'), ('e', '\x1b'), (' ', ' '), ('"', '"'),
    ('\\', '\\'), ('/', '/'), ('N', '\u0085'), ('_', '\u00a0'), ('L', '\u2028'),
    ('P', '\u2029')].lookup c

/-- How many hexadecimal digits follow the letter of an escape. -/
def escapeWidth? (c : Char) : Option Nat :=
  [('x', 2), ('u', 4), ('U', 8)].lookup c

/-- Takes empty lines inside a quoted scalar off the text; gives their breaks. -/
def quotedBreaks : (fuel : Nat) → List Char → Scanner (List Char)
  | 0, acc => return acc.reverse
  | fuel + 1, acc => do
    if (← get).atSeparator then throw .token
    let _ ← takeWhile (fun c => c = ' ' || c = '\t')
    match ← lineBreak with
    | [] => return acc.reverse
    | b => quotedBreaks fuel (b ++ acc)

/-- Takes the rest of a quoted scalar off the text, its closing quote included. Of the characters
before, the latest is first. -/
def quotedText (quote : Char) : (fuel : Nat) → List Char → Scanner (List Char)
  | 0, _ => throw .token
  | fuel + 1, acc => do
    let k ← get
    match k.rest with
    | [] => throw .token
    | c :: r =>
      if c = quote && quote ≠ '"' && r.head? = some quote then
        forward 2
        quotedText quote fuel (quote :: acc)
      else if c = quote then
        forward 1
        return acc.reverse
      else if c = '\\' && quote = '"' then
        match r with
        | [] => throw .token
        | e :: t =>
          match escape? e, escapeWidth? e with
          | some d, _ =>
            forward 2
            quotedText quote fuel (d :: acc)
          | none, some width =>
            match hexNumber? (t.take width) with
            | some n =>
              if (t.take width).length < width then throw .token
              if 0x110000 ≤ n then throw (.value (.noCharacter (0x80000000 ≤ n)))
              forward (2 + width)
              quotedText quote fuel (Char.ofNat n :: acc)
            | none => throw .token
          | none, none =>
            if isBreak e then
              forward 1
              let _ ← lineBreak
              let breaks ← quotedBreaks (← limit) []
              quotedText quote fuel (breaks.reverse ++ acc)
            else throw .token
      else if c = ' ' || c = '\t' then
        let spaces ← takeWhile (fun d => d = ' ' || d = '\t')
        match ← peek with
        | none => throw .token
        | some d => quotedText quote fuel (if isBreak d then acc else spaces.reverse ++ acc)
      else if isBreak c then
        let b ← lineBreak
        let breaks ← quotedBreaks (← limit) []
        let fold := if b ≠ ['\n'] then b else if breaks.isEmpty then [' '] else []
        quotedText quote fuel ((fold ++ breaks).reverse ++ acc)
      else
        forward 1
        quotedText quote fuel (c :: acc)

/-- Takes the breaks and spaces after a line of a plain scalar off the text. Nothing is given when a
line that separates documents follows. -/
def plainBreaks : (fuel : Nat) → List Char → Scanner (Option (List Char))
  | 0, acc => return some acc.reverse
  | fuel + 1, acc => do
    if (← get).atSeparator then return none
    let _ ← takeWhile (· = ' ')
    match ← lineBreak with
    | [] => return some acc.reverse
    | b => plainBreaks fuel (b ++ acc)

/-- Takes the spaces inside a plain scalar off the text; gives what they count as. -/
def plainSpaces : Scanner (List Char) := do
  let spaces ← takeWhile (· = ' ')
  match ← lineBreak with
  | [] => return spaces
  | b =>
    allowKey true
    match ← plainBreaks (← limit) [] with
    | none => return []
    | some breaks =>
      let fold := if b ≠ ['\n'] then b else if breaks.isEmpty then [' '] else []
      return fold ++ breaks

/-- A character that separates entries of flow collections. -/
def isFlowMark (c : Char) : Bool :=
  c = ',' || c = '[' || c = ']' || c = '\x7b' || c = '\x7d'

/-- The number of characters up to the end of a stretch of a plain scalar. -/
def plainLength (inFlow : Bool) : List Char → Nat
  | [] => 0
  | c :: r =>
    if isBreak c || c = ' ' || c = '\t' ||
        (c = ':' && (atBlank r || (inFlow && r.head?.any isFlowMark))) ||
        (inFlow && (isFlowMark c || c = '?')) then 0
    else plainLength inFlow r + 1

/-- Takes a plain scalar off the text. Of the characters before, the latest is first; `spaces` come
between them and the scalar. -/
def plainText (indent : Int) : (fuel : Nat) → List Char → List Char → Scanner (List Char)
  | 0, acc, _ => return acc.reverse
  | fuel + 1, acc, spaces => do
    let k ← get
    let n := plainLength (k.flow ≠ 0) k.rest
    if k.rest.head? = some '#' || n = 0 then return acc.reverse
    allowKey false
    let acc := (k.rest.take n).reverse ++ (spaces.reverse ++ acc)
    forward n
    let spaces ← plainSpaces
    let k ← get
    if spaces.isEmpty || k.rest.head? = some '#' || (k.flow = 0 && (k.column : Int) < indent) then
      return acc.reverse
    plainText indent fuel acc spaces

/-- A token of one character that opens a flow collection. -/
def openFlow (t : Token) : Scanner Unit := do
  saveKey
  modify fun k => { k with flow := k.flow + 1 }
  allowKey true
  forward 1
  emit t

/-- A token of one character that closes a flow collection. -/
def closeFlow (t : Token) : Scanner Unit := do
  dropKey
  modify fun k => { k with flow := k.flow - 1 }
  allowKey false
  forward 1
  emit t

/-- The token of a line that separates documents. -/
def separator (t : Token) : Scanner Unit := do
  unwindTo (-1)
  dropKey
  allowKey false
  forward 3
  emit t

/-- The colon after a key. -/
def valueMark : Scanner Unit := do
  let k ← get
  match k.keys.find? (·.level = k.flow) with
  | some p =>
    set { k with keys := k.keys.filter (·.level ≠ k.flow) }
    let opened ← if k.flow = 0 then openBlock p.column else pure false
    let marks := if opened then [Token.key, .blockMappingStart] else [.key]
    modify fun k =>
      let later := k.count - p.tokens
      { k with
        tokens := k.tokens.take later ++ marks ++ k.tokens.drop later
        count := k.count + marks.length
        keyAllowed := false }
  | none =>
    if k.flow = 0 then
      if !k.keyAllowed then throw .token
      if ← openBlock k.column then emit .blockMappingStart
    allowKey (k.flow = 0)
    dropKey
  forward 1
  emit .value

/-- A mark that begins an entry of a block: an item of a sequence, or a key. -/
def entryMark (opening mark : Token) (keyAfter : Bool) : Scanner Unit := do
  let k ← get
  if k.flow = 0 then
    if !k.keyAllowed then throw .token
    if ← openBlock k.column then emit opening
  allowKey keyAfter
  dropKey
  forward 1
  emit mark

/-- A token that may be a key: remembers the place and reads the token. -/
def keyToken (read : Scanner Token) : Scanner Unit := do
  saveKey
  allowKey false
  emit (← read)

/-- Whether a plain scalar may begin here. -/
def beginsPlain (inFlow : Bool) (c : Char) (r : List Char) : Bool :=
  let special := "-?:,[]\x7b\x7d#&*!|>'\"%@".toList
  (!isBreak c && c ≠ ' ' && c ≠ '\t' && !special.contains c && c.toNat ≠ 96) ||
    (!atBlank r && (c = '-' || (!inFlow && (c = '?' || c = ':'))))

/-- Reads the next token and tells whether the text goes on. -/
def nextToken : Scanner Bool := do
  toNextToken (← limit)
  dropStaleKeys
  unwindTo (← get).column
  let k ← get
  let inFlow : Bool := k.flow ≠ 0
  match k.rest with
  | [] =>
    unwindTo (-1)
    dropKey
    emit .streamEnd
    return false
  | c :: r =>
    if c = '%' && k.column = 0 then
      unwindTo (-1)
      dropKey
      allowKey false
      emit (← directive)
    else if c = '-' && k.column = 0 && k.atSeparator then separator .documentStart
    else if c = '.' && k.column = 0 && k.atSeparator then separator .documentEnd
    else if c = '[' then openFlow .flowSequenceStart
    else if c = '\x7b' then openFlow .flowMappingStart
    else if c = ']' then closeFlow .flowSequenceEnd
    else if c = '\x7d' then closeFlow .flowMappingEnd
    else if c = ',' then
      allowKey true
      dropKey
      forward 1
      emit .flowEntry
    else if c = '-' && atBlank r then entryMark .blockSequenceStart .blockEntry true
    else if c = '?' && (inFlow || atBlank r) then entryMark .blockMappingStart .key (!inFlow)
    else if c = ':' && (inFlow || atBlank r) then valueMark
    else if c = '*' then keyToken (do return .alias (← nodeName))
    else if c = '&' then keyToken (do return .anchor (← nodeName))
    else if c = '!' then keyToken (do return .tag (← tagName))
    else if (c = '|' || c = '>') && !inFlow then
      allowKey true
      dropKey
      emit (← blockScalar (c = '>'))
    else if c.toNat = 39 || c = '"' then
      keyToken do
        forward 1
        return .scalar (String.ofList (← quotedText c (← limit) [])) false
    else if beginsPlain inFlow c r then
      saveKey
      allowKey false
      let text ← plainText (k.indent + 1) (← limit) [] []
      emit (.scalar (String.ofList text) true)
    else throw .token
    return true

/-- The tokens that do not depend on what follows: those before the first possible key. -/
def Cursor.settled (k : Cursor) : List Token :=
  let stale (p : PossibleKey) : Bool := p.line ≠ k.line || 1024 < k.index - p.index
  match ((k.keys.filter (fun p => !stale p)).map (·.tokens)).min? with
  | some n => k.tokens.reverse.take n
  | none => k.tokens.reverse

/-- The tokens from a cursor to the end of the text, `fuel` of them at most, or those that can be
told before a fault. -/
def allTokens : (fuel : Nat) → Cursor → List Token × Option Fault
  | 0, k => (k.settled, some .token)
  | fuel + 1, k =>
    match nextToken.run k with
    | .ok (true, next) => allTokens fuel next
    | .ok (false, next) => (next.tokens.reverse, none)
    | .error e => (k.settled, some e)

/-- Whether a character may stand in a document. -/
def isAllowed (c : Char) : Bool :=
  let n := c.toNat
  n = 9 || n = 10 || n = 13 || (32 ≤ n && n ≤ 126) || n = 0x85 || (0xa0 ≤ n && n ≤ 0xfffd) ||
    0x10000 ≤ n

/-- The tokens of a text, and the fault that stops them, if any. -/
def tokensOf (s : List Char) : List Token × Option Fault :=
  if !s.all isAllowed then ([], some .character)
  else
    let start := if s.head? = some '\ufeff' then s.tail else s
    allTokens (s.length + 2) { rest := start, size := s.length }

end MailRules.Yaml
