import MailRules.Yaml.Scalar
import MailRules.Members

set_option autoImplicit false

/-!
# Nodes of a YAML text

Tokens are put together to nodes: scalars, sequences and mappings, each with its tag. An alias
stands for the node that its anchor names earlier in the document, which may be one that the alias
lies in. So nodes form a graph and are referred to by number, in the order in which they begin.

`Stream` is the tokens that are left together with the nodes, the anchors and the tag handles met so
far. A text has at most one document.
-/

namespace MailRules.Yaml

/-- The number of a node. -/
abbrev NodeId := Nat

/-- What a node is made of. -/
inductive Content
  | scalar (text : String)
  | sequence (items : List NodeId)
  | mapping (entries : List (NodeId × NodeId))
  deriving Repr, DecidableEq, Inhabited

/-- A node and its tag. -/
structure Node where
  tag : Tag
  content : Content
  deriving Repr, DecidableEq, Inhabited

/-- The tokens that are left, the nodes so far, the nodes that anchors name, and the meanings of tag
handles. -/
structure Stream where
  tokens : List Token
  /-- What comes instead of further tokens. -/
  fault : Option Fault := none
  nodes : Array Node := #[]
  /-- The nodes that are complete, the latest first. -/
  finished : List NodeId := []
  anchors : List (String × NodeId) := []
  handles : List (String × String) := []

/-- The nodes of a document. -/
structure Graph where
  nodes : Array Node
  /-- The nodes in an order in which each comes after those that it holds, except for those that it
  lies in. -/
  order : List NodeId
  root : NodeId
  deriving Repr, Inhabited

/-- A step that takes tokens off the stream. -/
abbrev Composer := StateT Stream (Except Fault)

/-- The meanings of the handles that need no directive. -/
def defaultHandles : List (String × String) := [("!", "!"), ("!!", standardTag)]

/-- The next token. -/
def next? : Composer (Option Token) := do
  let s ← get
  match s.tokens, s.fault with
  | [], some f => throw f
  | ts, _ => return ts.head?

/-- The number of a node that begins here. -/
def begin : Composer NodeId := do
  let id := (← get).nodes.size
  modify fun s => { s with nodes := s.nodes.push ⟨.unknown, .scalar ""⟩ }
  return id

/-- Says what a node that has ended is. -/
def finish (id : NodeId) (tag : Tag) (content : Content) : Composer NodeId := do
  modify fun s => { s with
    nodes := s.nodes.setIfInBounds id ⟨tag, content⟩, finished := id :: s.finished }
  return id

/-- A scalar without text. -/
def emptyNode : Composer NodeId := do
  finish (← begin) .null (.scalar "")

/-- Takes a token off the stream. -/
def skip : Composer Unit :=
  modify fun s => { s with tokens := s.tokens.tail }

/-- Takes a token off the stream if it is the given one, and tells whether it was. -/
def accept (t : Token) : Composer Bool := do
  if (← next?) = some t then
    skip
    return true
  else return false

/-- Whether the next token is one of the given ones. -/
def sees (ts : List Token) : Composer Bool := do
  return (← next?).any ts.contains

/-- The full tag for a written one. -/
def resolveTag (t : TagName) : Composer String := do
  match t.handle with
  | none => return t.suffix
  | some h =>
    match (← get).handles.lookup h with
    | some meaning => return meaning ++ t.suffix
    | none => throw .shape

/-- Takes the anchor and the tag before a node off the stream, in either order. -/
def properties : Composer (Option String × Option String) := do
  match ← next? with
  | some (.anchor a) =>
    skip
    match ← next? with
    | some (.tag t) =>
      skip
      return (some a, some (← resolveTag t))
    | _ => return (some a, none)
  | some (.tag t) =>
    skip
    let name ← resolveTag t
    match ← next? with
    | some (.anchor a) =>
      skip
      return (some a, some name)
    | _ => return (none, some name)
  | _ => return (none, none)

/-- A node, or an empty scalar when one of the tokens that end it comes at once. -/
def orEmpty (ends : List Token) (node : Composer NodeId) : Composer NodeId := do
  if ← sees ends then emptyNode else node

/-- The items of a block sequence up to its end, at most `fuel` of them. -/
def blockItems (node : Composer NodeId) : (fuel : Nat) → List NodeId → Composer (List NodeId)
  | 0, _ => throw .shape
  | fuel + 1, acc => do
    if ← accept .blockEntry then
      let item ← orEmpty [.blockEntry, .blockEnd] node
      blockItems node fuel (item :: acc)
    else if ← accept .blockEnd then return acc.reverse
    else throw .shape

/-- The items of a sequence that is not indented, up to the first token that is no item. -/
def looseItems (node : Composer NodeId) : (fuel : Nat) → List NodeId → Composer (List NodeId)
  | 0, _ => throw .shape
  | fuel + 1, acc => do
    if ← accept .blockEntry then
      let item ← orEmpty [.blockEntry, .key, .value, .blockEnd] node
      looseItems node fuel (item :: acc)
    else return acc.reverse

/-- The entries of a block mapping up to its end. -/
def blockEntries (node : Composer NodeId) :
    (fuel : Nat) → List (NodeId × NodeId) → Composer (List (NodeId × NodeId))
  | 0, _ => throw .shape
  | fuel + 1, acc => do
    if ← accept .key then
      let k ← orEmpty [.key, .value, .blockEnd] node
      let v ←
        if ← accept .value then orEmpty [.key, .value, .blockEnd] node else emptyNode
      blockEntries node fuel ((k, v) :: acc)
    else if ← accept .blockEnd then return acc.reverse
    else throw .shape

/-- The value after a key in a flow collection that `closing` ends. -/
def flowValue (node : Composer NodeId) (closing : Token) : Composer NodeId := do
  if ← accept .value then orEmpty [.flowEntry, closing] node else emptyNode

/-- The items of a flow sequence up to its end; a key begins a mapping of one entry. -/
def flowItems (node : Composer NodeId) : (fuel : Nat) → List NodeId → Composer (List NodeId)
  | 0, _ => throw .shape
  | fuel + 1, acc => do
    if ← accept .flowSequenceEnd then return acc.reverse
    if !acc.isEmpty then
      if !(← accept .flowEntry) then throw .shape
    if ← accept .key then
      let id ← begin
      let k ← orEmpty [.value, .flowEntry, .flowSequenceEnd] node
      let v ← flowValue node .flowSequenceEnd
      flowItems node fuel ((← finish id .map (.mapping [(k, v)])) :: acc)
    else if ← accept .flowSequenceEnd then return acc.reverse
    else
      let item ← node
      flowItems node fuel (item :: acc)

/-- The entries of a flow mapping up to its end; what is no key has no value. -/
def flowEntries (node : Composer NodeId) :
    (fuel : Nat) → List (NodeId × NodeId) → Composer (List (NodeId × NodeId))
  | 0, _ => throw .shape
  | fuel + 1, acc => do
    if ← accept .flowMappingEnd then return acc.reverse
    if !acc.isEmpty then
      if !(← accept .flowEntry) then throw .shape
    if ← accept .key then
      let k ← orEmpty [.value, .flowEntry, .flowMappingEnd] node
      let v ← flowValue node .flowMappingEnd
      flowEntries node fuel ((k, v) :: acc)
    else if ← accept .flowMappingEnd then return acc.reverse
    else
      let k ← node
      flowEntries node fuel ((k, ← emptyNode) :: acc)

/-- Where a node stands: in flow collections, in a block, or in a block where a sequence need not be
indented. -/
inductive Position
  | flow
  | block
  | entry
  deriving Repr, DecidableEq

/-- The tag of a node whose full tag is written or left out; `implied` is the tag of one without. -/
def tagOr (implied : Tag) (written : Option String) : Tag :=
  match written with
  | none => implied
  | some t => if t = "!" then implied else Tag.ofName t

/-- The tag of a scalar. -/
def scalarTag (written : Option String) (text : String) (plain : Bool) : Tag :=
  match written with
  | none => if plain then impliedTag text else .str
  | some t => if t = "!" then impliedTag text else Tag.ofName t

/-- The most collections that may lie in one another. -/
def depthLimit : Nat := 485

/-- Takes a node off a stream of fewer than `limit` tokens, with fewer than `fuel` collections
around it. -/
def node (limit : Nat) : (fuel : Nat) → Position → Composer NodeId
  | 0, _ => throw (.value .endless)
  | fuel + 1, place => do
    match ← next? with
    | some (.alias a) =>
      skip
      match (← get).anchors.lookup a with
      | some id => return id
      | none => throw .anchor
    | _ =>
      let (anchor, tag) ← properties
      let first ← next?
      if let some a := anchor then
        if ((← get).anchors.lookup a).isSome then throw .anchor
      let id ← begin
      if let some a := anchor then
        modify fun s => { s with anchors := (a, id) :: s.anchors }
      match first with
      | some .blockEntry =>
        if place = .entry then
          finish id (tagOr .seq tag) (.sequence (← looseItems (node limit fuel .block) limit []))
        else if anchor.isSome || tag.isSome then finish id (scalarTag tag "" true) (.scalar "")
        else throw .shape
      | some (.scalar text plain) =>
        skip
        finish id (scalarTag tag text plain) (.scalar text)
      | some .flowSequenceStart =>
        skip
        finish id (tagOr .seq tag) (.sequence (← flowItems (node limit fuel .flow) limit []))
      | some .flowMappingStart =>
        skip
        finish id (tagOr .map tag) (.mapping (← flowEntries (node limit fuel .flow) limit []))
      | t =>
        if t = some .blockSequenceStart && place ≠ .flow then
          skip
          finish id (tagOr .seq tag) (.sequence (← blockItems (node limit fuel .block) limit []))
        else if t = some .blockMappingStart && place ≠ .flow then
          skip
          finish id (tagOr .map tag) (.mapping (← blockEntries (node limit fuel .entry) limit []))
        else if anchor.isSome || tag.isSome then finish id (scalarTag tag "" true) (.scalar "")
        else throw .shape

/-- Takes directives off the stream. -/
def directives : (fuel : Nat) → (version : Bool) → Composer Unit
  | 0, _ => return
  | fuel + 1, version => do
    match ← next? with
    | some (.version major) =>
      if version || major ≠ 1 then throw .shape
      skip
      directives fuel true
    | some (.tagHandle handle meaning) =>
      skip
      let s ← get
      if (s.handles.lookup handle).isSome then throw .shape
      set { s with handles := (handle, meaning) :: s.handles }
      directives fuel version
    | some .otherDirective =>
      skip
      directives fuel version
    | _ => return

/-- Takes marks of a document's end off the stream. -/
def documentEnds : (fuel : Nat) → Composer Unit
  | 0 => return
  | fuel + 1 => do
    if ← accept .documentEnd then documentEnds fuel

/-- Whether the next token begins with a directive. -/
def seesDirective : Composer Bool := do
  match ← next? with
  | some (.version _) => return true
  | some (.tagHandle _ _) => return true
  | some .otherDirective => return true
  | _ => return false

/-- The only document of a stream, if there is one. -/
def document : Composer (Option NodeId) := do
  let limit := (← get).tokens.length + 1
  let explicit := (← seesDirective) || (← sees [.documentStart, .streamEnd])
  if explicit then
    documentEnds limit
    if ← sees [.streamEnd] then return none
    directives limit false
    if !(← accept .documentStart) then throw .shape
  let handles := (← get).handles
  modify fun s => { s with
    handles := handles ++ defaultHandles.filter (fun d => (handles.lookup d.1).isNone) }
  let bare := explicit &&
    ((← seesDirective) || (← sees [.documentStart, .documentEnd, .streamEnd]))
  let root ← if bare then emptyNode else node limit (depthLimit + 1) .block
  let _ ← accept .documentEnd
  documentEnds limit
  if !(← sees [.streamEnd]) then throw .shape
  return some root

/-- The nodes that a text spells, if it has a document. -/
def graphOf (s : List Char) : Except Fault (Option Graph) :=
  let (tokens, fault) := tokensOf s
  match document.run { tokens := tokens, fault := fault } with
  | .ok (root, stream) =>
    .ok (root.map fun id => ⟨stream.nodes, stream.finished.reverse, id⟩)
  | .error e => .error e

end MailRules.Yaml
