import MailRules.Instruction.Address
import MailRules.Text.Word

set_option autoImplicit false

/-!
# Reading instructions without help

An instruction that is an address or a host name, or a sentence that mentions exactly one and makes
no exception, is read at once (`Guess.certain`). Every other instruction leaves at most a best
guess (`Guess.doubtful`): the first address it mentions, or the sentence as a topic.

The reading depends on the text and the action alone.
-/

namespace MailRules.Instruction

open Text

/-- Whether a character is the given small letter when case is ignored. -/
def isLetterOf (small c : Char) : Bool :=
  lowerSimple c = small || (small = 'i' && c = 'ı') || (small = 's' && c = 'ſ')

/-- The text after a word in small letters that it starts with when case is ignored. -/
def afterWord? : List Char → List Char → Option (List Char)
  | [], s => some s
  | _ :: _, [] => none
  | w :: ws, c :: r => if isLetterOf w c then afterWord? ws r else none

/-- The words that announce an exception. -/
def exceptionWords : List (List Char) :=
  ["unless", "except", "excluding", "but not"].map String.toList

/-- Whether one of the words stands at the start of a text, and stands alone there. -/
def startsWithWord (ws : List (List Char)) (before : Option Char) (s : List Char) : Bool :=
  !before.any isWord &&
    ws.any fun w =>
      match afterWord? w s with
      | some r => !r.head?.any isWord
      | none => false

/-- Whether one of the words stands alone somewhere in a text that follows `before`. -/
def mentions (ws : List (List Char)) (before : Option Char) : List Char → Bool
  | [] => false
  | c :: r => startsWithWord ws before (c :: r) || mentions ws (some c) r

/-- Whether an instruction makes an exception. -/
def hasException (s : List Char) : Bool :=
  mentions exceptionWords none s

/-- What an instruction is read as. -/
inductive Guess
  /-- The rule that the instruction asks for. -/
  | certain (draft : Draft)
  /-- A best guess, not to be stored. -/
  | doubtful (draft : Option Draft)
  deriving Inhabited

/-- The draft of a guess. -/
def Guess.draft? : Guess → Option Draft
  | certain d => some d
  | doubtful d => d

/-- Whether an instruction still needs a better reader. -/
def Guess.needsHelp : Guess → Bool
  | certain _ => false
  | doubtful _ => true

/-- How sure a reading is of an instruction that is an address. -/
def bareConfidence : Float := 0.95

/-- How sure a reading is of the one address in a sentence. -/
def sentenceConfidence : Float := 0.8

/-- How sure a reading is of the first of several addresses. -/
def partialConfidence : Float := 0.6

/-- How sure a reading is that a sentence is a topic. -/
def topicConfidence : Float := 0.4

/-- The draft of a kind for a text. -/
def draftOf (kind : RuleKind) (text : List Char) (action : RuleAction) (confidence : Float) :
    Draft where
  kind := kind
  pattern := String.ofList (Canonical.patternChars kind text)
  action := action
  confidence := some (.real confidence)

/-- A text with single spaces between its words. -/
def condense (s : List Char) : List Char :=
  join [' '] (words s)

/-- Reads a trimmed instruction that is not empty. -/
def readTrimmed (s : List Char) (action : RuleAction) : Guess :=
  if isAtDomain s then .certain (draftOf .domain s action bareConfidence)
  else if isBareAddress s then .certain (draftOf .email s action bareConfidence)
  else if looksLikeHost s then .certain (draftOf .domain s action bareConfidence)
  else
    match candidates s with
    | [c] =>
      if hasException s then .doubtful (some (draftOf c.kind c.pattern action partialConfidence))
      else .certain (draftOf c.kind c.pattern action sentenceConfidence)
    | c :: _ => .doubtful (some (draftOf c.kind c.pattern action partialConfidence))
    | [] => .doubtful (some (draftOf .topic (condense s) action topicConfidence))

/-- Reads an instruction. -/
def guess (text : String) (action : RuleAction) : Guess :=
  let s := trim text.toList
  if s.isEmpty then .doubtful none else readTrimmed s action

end MailRules.Instruction
