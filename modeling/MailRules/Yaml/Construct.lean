import MailRules.Document
import MailRules.Yaml.Node

set_option autoImplicit false

/-!
# Values of YAML nodes

The value of a node is given by its tag. Of two entries of a mapping with the same key the later
wins, and an entry `<<` brings in the entries of other mappings.

Nodes are *visited* one after the other and each only once: a scalar gets its value at once, and a
collection waits for its turn, in which what it holds is visited. So of several faults the one
nearest to the root is found first. Only when all is well are the collections put together
(`Graph.valuesFrom`). A collection that lies in itself is followed a few times round.
-/

namespace MailRules.Yaml

/-- Nodes that are being visited. -/
structure Visit where
  nodes : Array Node
  /-- The values of scalars. -/
  leaves : Array (Option Document)
  seen : Array Bool
  /-- Collections that wait for their turn, the latest first. -/
  waiting : List NodeId := []

/-- A step of a visit. -/
abbrev Visitor := StateT Visit (Except Fault)

/-- A node; there is one for every number that a graph holds. -/
def nodeAt (nodes : Array Node) (id : NodeId) : Node :=
  nodes.getD id default

/-- The tag of a node. -/
def tagAt (nodes : Array Node) (id : NodeId) : Tag :=
  (nodeAt nodes id).tag

/-- The entries of a node, none if it is no mapping. -/
def entriesAt (nodes : Array Node) (id : NodeId) : List (NodeId × NodeId) :=
  match (nodeAt nodes id).content with
  | .mapping es => es
  | _ => []

/-- Whether a node is a mapping. -/
def isMappingAt (nodes : Array Node) (id : NodeId) : Bool :=
  match (nodeAt nodes id).content with
  | .mapping _ => true
  | _ => false

/-- The nodes with other entries for a mapping. -/
def setEntries (nodes : Array Node) (id : NodeId) (es : List (NodeId × NodeId)) : Array Node :=
  nodes.setIfInBounds id ⟨tagAt nodes id, .mapping es⟩

/-! ## Scalars -/

/-- The text of a scalar. That of a mapping is the text of its first value whose key has the tag
`value`. -/
def scalarText (nodes : Array Node) : (fuel : Nat) → NodeId → Except Fault String
  | 0, _ => .error (.value .endless)
  | fuel + 1, id =>
    match (nodeAt nodes id).content with
    | .scalar text => .ok text
    | .mapping es =>
      match es.find? (fun e => tagAt nodes e.1 = .value) with
      | some e => scalarText nodes fuel e.2
      | none => .error .tag
    | .sequence _ => .error .tag

/-- The bytes that the text of a scalar spells. -/
def readBytes (text : String) : Except Fault Document :=
  if text.toList.any (fun c => 128 ≤ c.toNat) then .error .tag
  else
    match Text.ofBase64? text with
    | some data => .ok (.bytes data)
    | none => .error .tag

/-- The value of a node that is said to be a scalar, nothing for a collection. -/
def leafOf? (nodes : Array Node) (id : NodeId) : Option (Except Fault Document) :=
  let read (f : String → Except Fault Document) : Option (Except Fault Document) :=
    some ((scalarText nodes (nodes.size + 1) id).bind f)
  match tagAt nodes id with
  | .null => read fun _ => .ok .null
  | .str => read fun s => .ok (.text s)
  | .bool => read fun s => ((readTruth s).map .bool).mapError .value
  | .int => read fun s => ((readWhole s.toList).map .int).mapError .value
  | .float => read fun s => ((readFloat s.toList).map .float).mapError .value
  | .binary => read readBytes
  | .timestamp => read fun s =>
    if isMappingAt nodes id then .error (.value .entriesForTime)
    else ((readTime s).map .time).mapError .value
  | .merge => some (.error .tag)
  | .value => some (.error .tag)
  | .unknown => some (.error .tag)
  | _ => none

/-! ## Merge entries -/

/-- The number of entries that nodes have. -/
def entryCount (nodes : Array Node) : Nat :=
  nodes.foldl
    (fun count n =>
      match n.content with
      | .mapping es => count + es.length
      | _ => count)
    0

/-- The first merge entry of a mapping, and its other entries. -/
def takeMerge? (nodes : Array Node) (id : NodeId) : Option (NodeId × List (NodeId × NodeId)) :=
  let isMerge (e : NodeId × NodeId) : Bool := tagAt nodes e.1 = .merge
  let es := entriesAt nodes id
  match es.find? isMerge with
  | some e => some (e.2, es.eraseP isMerge)
  | none => none

/-- Keys with the tag `value` become texts. -/
def nameValues (nodes : Array Node) (es : List (NodeId × NodeId)) : Array Node :=
  es.foldl
    (fun acc e =>
      if tagAt acc e.1 = .value then acc.setIfInBounds e.1 ⟨.str, (nodeAt acc e.1).content⟩
      else acc)
    nodes

/-- The nodes with the merge entries of a mapping replaced by the entries that they bring in, before
its own. Every step takes a merge entry away, so as many steps as there are entries are enough. -/
def flatten : (fuel : Nat) → NodeId → (brought : List (NodeId × NodeId)) → Array Node →
    Except Fault (Array Node)
  | 0, _, _, nodes => .ok nodes
  | fuel + 1, id, brought, nodes =>
    match takeMerge? nodes id with
    | none =>
      let es := entriesAt nodes id
      .ok (setEntries (nameValues nodes es) id (brought ++ es))
    | some (source, rest) =>
      let nodes := setEntries nodes id rest
      match (nodeAt nodes source).content with
      | .mapping _ => do
        let nodes ← flatten fuel source [] nodes
        flatten fuel id (brought ++ entriesAt nodes source) nodes
      | .sequence items => do
        let (nodes, parts) ← items.foldlM
          (fun (acc : Array Node × List (List (NodeId × NodeId))) item =>
            if isMappingAt acc.1 item then
              (flatten fuel item [] acc.1).map fun nodes => (nodes, entriesAt nodes item :: acc.2)
            else .error .tag)
          (nodes, [])
        flatten fuel id (brought ++ parts.flatten) nodes
      | .scalar _ => .error .tag

/-! ## Visiting -/

/-- Visits a node, unless it has been before. -/
def visit (id : NodeId) : Visitor Unit := do
  let v ← get
  if v.seen.getD id true then return
  match leafOf? v.nodes id with
  | some (.error e) => throw e
  | some (.ok d) =>
    set { v with
      seen := v.seen.setIfInBounds id true
      leaves := v.leaves.setIfInBounds id (some d) }
  | none => set { v with seen := v.seen.setIfInBounds id true, waiting := id :: v.waiting }

/-- Visits the keys and values of a mapping, its merge entries replaced first. A collection is no
key. -/
def visitEntries (id : NodeId) : Visitor Unit := do
  let v ← get
  if !isMappingAt v.nodes id then throw .tag
  let nodes ← flatten (entryCount v.nodes + 1) id [] v.nodes
  set { v with nodes := nodes }
  for e in entriesAt nodes id do
    visit e.1
    if ((← get).leaves.getD e.1 none).isNone then throw .tag
    visit e.2

/-- Visits what a sequence of single entries holds. -/
def visitPairs (items : List NodeId) : Visitor Unit := do
  for item in items do
    match entriesAt (← get).nodes item with
    | [e] =>
      visit e.1
      visit e.2
    | _ => throw .tag

/-- Visits what a collection holds. -/
def expand (id : NodeId) : Visitor Unit := do
  let n := nodeAt (← get).nodes id
  match n.tag, n.content with
  | .map, _ => visitEntries id
  | .set, _ => visitEntries id
  | .seq, .sequence items => items.forM visit
  | .omap, .sequence items => visitPairs items
  | .pairs, .sequence items => visitPairs items
  | _, _ => throw .tag

/-- Visits everything below the nodes that wait, `fuel` rounds at most. -/
def visitAll : (fuel : Nat) → Visitor Unit
  | 0 => return
  | fuel + 1 => do
    let ids := (← get).waiting.reverse
    if ids.isEmpty then return
    modify fun v => { v with waiting := [] }
    ids.forM expand
    visitAll fuel

/-! ## Putting together -/

/-- The value of a node when those of the nodes in it are known. -/
def assemble (v : Visit) (values : Array Document) (id : NodeId) : Document :=
  let value (i : NodeId) : Document := values.getD i .null
  let n := nodeAt v.nodes id
  match v.leaves.getD id none, n.tag, n.content with
  | some d, _, _ => d
  | none, .set, .mapping es =>
    .set ((Members.distinctBy Document.sameKey (es.map fun e => (value e.1, ()))).map Prod.fst)
  | none, _, .mapping es => Document.ofPairs (es.map fun e => (value e.1, value e.2))
  | none, .seq, .sequence items => .list (items.map value)
  | none, _, .sequence items =>
    .list (items.flatMap fun i =>
      (entriesAt v.nodes i).map fun e => .list [value e.1, value e.2])
  | none, _, .scalar _ => .null

/-- How often a collection that lies in itself is followed. -/
def rounds : Nat := 4

/-- The values of all nodes, `count` times round. Before the first time a collection is empty. -/
def valuesFrom (v : Visit) (order : List NodeId) : (count : Nat) → Array Document
  | 0 => v.nodes.map fun n =>
    match n.content with
    | .mapping _ => .mapping []
    | .sequence _ => .list []
    | .scalar _ => .null
  | count + 1 =>
    order.foldl (fun values id => values.setIfInBounds id (assemble v values id))
      (valuesFrom v order count)

/-- The value that a graph of nodes spells. -/
def Graph.value (g : Graph) : Except Fault Document :=
  let size := g.nodes.size
  let first : Visit := ⟨g.nodes, Array.replicate size none, Array.replicate size false, []⟩
  let all : Visitor Unit := do
    visit g.root
    visitAll (size + 1)
  match all.run first with
  | .ok (_, v) => .ok ((valuesFrom v g.order rounds).getD g.root .null)
  | .error e => .error e

/-- The document that a text spells; a text without one is null. -/
def read (text : String) : Except Fault Document :=
  match graphOf text.toList with
  | .ok (some g) => g.value
  | .ok none => .ok .null
  | .error e => .error e

end MailRules.Yaml
