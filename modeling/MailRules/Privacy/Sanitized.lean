import MailRules.Privacy.Key

set_option autoImplicit false

/-!
# The details of events

`sanitize` takes what callers hand over as the details of an event and masks every address in it. A
group of pairs will do in place of an object. What comes out has keys, not names: what the keys are
called is up to those who show or keep the details.
-/

namespace MailRules.Privacy

/-- Why details are refused. -/
inductive DetailFault
  /-- A value of this kind has no parts. -/
  | notIterable (kind : String)
  /-- The part at this place is no pair but has so many parts. -/
  | notPair (index count : Nat)
  /-- The part at this place has no parts. -/
  | noSequence (index : Nat)
  /-- A value of this kind cannot be a key. -/
  | unhashable (kind : String)
  /-- A key of this kind has no name. -/
  | nameless (kind : String)
  /-- Groups and objects are nested too deeply. -/
  | tooDeep
  deriving Repr, DecidableEq

/-- The wording of a refusal. -/
def DetailFault.message : DetailFault → String
  | notIterable kind => s!"'{kind}' object is not iterable"
  | notPair index count =>
    s!"dictionary update sequence element #{index} has length {count}; 2 is required"
  | noSequence index => s!"cannot convert dictionary update sequence element #{index} to a sequence"
  | unhashable kind => s!"unhashable type: '{kind}'"
  | nameless kind => s!"keys must be str, int, float, bool or None, not {kind}"
  | tooDeep => "maximum recursion depth exceeded in __instancecheck__"

/-- Values under keys, one value a key. -/
abbrev Keyed (α : Type) := List (Detail × α)

/-- The pairs that parts are, counted from `index`. -/
def pairsOf (index : Nat) : List Detail → Except DetailFault (Keyed Detail)
  | [] => .ok []
  | d :: ds =>
    match d.parts? with
    | none => .error (.noSequence index)
    | some [k, v] =>
      match k.unkeyable? with
      | none => (pairsOf (index + 1) ds).map ((k, v) :: ·)
      | some kind => .error (.unhashable kind)
    | some parts => .error (.notPair index parts.length)

/-- The values under keys that a caller's details stand for. -/
def keyed (d : Detail) : Except DetailFault (Keyed Detail) :=
  match d with
  | .object ms => .ok (ms.map fun m => (.scalar (.str m.1), m.2))
  | _ =>
    match d.parts? with
    | some parts => (pairsOf 0 parts).map (Members.distinctBy Detail.sameKey)
    | none => .error (.notIterable d.kindName)

/-- The largest depth of details that are looked into. -/
def depthLimit : Nat := 480

/-- A detail with every address masked, unless it is nested too deeply. -/
def redact? (d : Detail) : Except DetailFault Json :=
  if depthLimit < d.depth then .error .tooDeep else .ok d.redact

/-- Values with every address masked, unless one is nested too deeply. -/
def redactKeyed (es : Keyed Detail) : Except DetailFault (Keyed Json) :=
  if depthLimit ≤ Detail.depthOfItems (es.map Prod.snd) then .error .tooDeep
  else .ok (es.map fun e => (e.1, e.2.redact))

/-- The details of an event: nothing for a value that counts as nothing, else what it stands for
with every address masked. -/
def sanitize (d : Detail) : Except DetailFault (Keyed Json) :=
  if d.isTruthy then (keyed d).bind redactKeyed else .ok []

namespace Keyed

/-- The members as messages show them. -/
def shown (es : Keyed Json) : Members Json :=
  Members.ofPairs (es.map fun e => (e.1.keyText, e.2))

/-- The members as JSON. Of two keys with one name the later gives its value to the first. -/
def named (es : Keyed Json) : Except DetailFault (Members Json) := do
  let pairs ← es.mapM fun e =>
    match e.1.jsonName? with
    | some name => .ok (name, e.2)
    | none => .error (.nameless e.1.kindName)
  return Members.ofPairs pairs

end Keyed

end MailRules.Privacy
