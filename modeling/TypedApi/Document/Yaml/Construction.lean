import TypedApi.Document.Yaml.Node
/-!
Values for nodes.

A node gets one value, however often it is referred to. Scalars are read at
once. A collection is made empty and filled later, those made first being
filled first, so that it may stand inside of itself; which of two faults in a
text is found depends on that order. Filling makes the values of the parts.

A mapping that is filled first takes over the fields of others under its merge
keys: they come before its own fields, and of several mappings taken over the
first comes last. A mapping may stand where a scalar belongs if it has a
default value, which then counts.
-/

set_option autoImplicit false

namespace TypedApi.Document.Yaml

/-- A value as far as it is made. The parts of a collection are given by the numbers of their
nodes. -/
inductive Cell where
  | leaf (d : Document)
  | array (items : List NodeId)
  | pairs (items : List (NodeId × NodeId))
  | collection (members : List Document)
  | object (fields : List (Document × NodeId))
deriving Repr, Inhabited

/-- What is known in the middle of making values. -/
structure Workshop where
  nodes : Array Node
  /-- The value of each node, as far as there is one. -/
  cells : Array (Option Cell)
  /-- The collections that are still to be filled, the first first. -/
  pending : List NodeId := []
deriving Inhabited

/-- A step of making values. -/
abbrev Construct := StateT Workshop (Except Fault)

namespace Construct

/-- The node with a number. -/
def nodeAt (id : NodeId) : Construct Node := do
  return (← get).nodes.getD id ⟨.unknown, .scalar ""⟩

/-- The entries of a node; only a mapping has any. -/
def entriesOf (id : NodeId) : Construct (List (NodeId × NodeId)) := do
  match (← nodeAt id).content with
  | .mapping entries => return entries
  | _ => return []

/-- Give a node other entries. -/
def setEntries (id : NodeId) (entries : List (NodeId × NodeId)) : Construct Unit :=
  modify fun w => { w with nodes := w.nodes.modify id fun n => { n with content := .mapping entries } }

/-- Set the value of a node. -/
def setCell (id : NodeId) (cell : Cell) : Construct Unit :=
  modify fun w => { w with cells := w.cells.setIfInBounds id (some cell) }

/-- An answer that is missing because the text is not in the format. -/
def orUnreadable {α : Type} : Option α → Construct α
  | some a => pure a
  | none => throw .unreadable

/-! ## Scalars -/

/-- The text of a scalar, or that of the default value of a mapping. A default value may be a
mapping in turn; the fuel is the count of nodes, so it runs out only if a mapping is its own
default value. -/
def scalarText : Nat → NodeId → Construct String
  | 0, _ => throw .malformed
  | fuel + 1, id => do
    match (← nodeAt id).content with
    | .scalar s => return s
    | .sequence _ => throw .unreadable
    | .mapping entries =>
      let nodes := (← get).nodes
      match entries.find? fun e => (nodes.getD e.1 default).tag = .default with
      | some e => scalarText fuel e.2
      | none => throw .unreadable

/-- The value of a node whose tag is one of scalars. A moment is read from the node itself, so it
has no default value. -/
def scalar (id : NodeId) (n : Node) : Construct Document := do
  let s ← scalarText ((← get).nodes.size + 1) id
  match n.tag, n.content with
  | .moment, .mapping _ => throw .malformed
  | tag, _ => scalarValue tag s

/-! ## Making -/

/-- The empty collection for a tag, none for the tag of a scalar. -/
def emptyCell? : Tag → Option Cell
  | .sequence => some (.array [])
  | .mapping => some (.object [])
  | .pairs => some (.pairs [])
  | .collection => some (.collection [])
  | _ => none

/-- Whether a tag has values at all. -/
def isUsable : Tag → Bool
  | .merge | .default | .unknown => false
  | _ => true

/-- The value of a node, made if it is not there. A collection is left to be filled. -/
def make (id : NodeId) : Construct Cell := do
  match (← get).cells.getD id none with
  | some cell => return cell
  | none =>
    let n ← nodeAt id
    if !isUsable n.tag then throw .unreadable
    match emptyCell? n.tag with
    | some cell =>
      setCell id cell
      modify fun w => { w with pending := w.pending ++ [id] }
      return cell
    | none =>
      let cell := Cell.leaf (← scalar id n)
      setCell id cell
      return cell

/-- The key that a node stands for; a collection cannot be a key. -/
def key (id : NodeId) : Construct Document := do
  match ← make id with
  | .leaf d => return d
  | _ => throw .unreadable

/-! ## Merging -/

/-- Take a key for the default value of a mapping as the text that it is. -/
def demote (id : NodeId) : Construct Unit :=
  modify fun w => { w with nodes := w.nodes.modify id fun n =>
    if n.tag = .default then { n with tag := .text } else n }

/-- The mappings that the value of a merge key gives. -/
def sources (id : NodeId) : Construct (List NodeId) := do
  match (← nodeAt id).content with
  | .mapping _ => return [id]
  | .sequence items =>
    return items
  | .scalar _ => throw .unreadable

mutual
/-- Replace the merge keys of a mapping, from an entry on, by the fields of the mappings that they
name; `taken` holds the entries taken over so far. Every step that spends fuel either goes on by
an entry or has removed a merge key. -/
def flattenFrom (id : NodeId) : Nat → Nat → List (NodeId × NodeId) → Construct Unit
  | 0, _, _ => throw .malformed
  | fuel + 1, index, taken => do
    let entries ← entriesOf id
    match entries[index]? with
    | none => if !taken.isEmpty then setEntries id (taken ++ entries)
    | some (k, v) =>
      match (← nodeAt k).tag with
      | .merge =>
        setEntries id (entries.eraseIdx index)
        let more ← merged fuel (← sources v)
        flattenFrom id fuel index (taken ++ more)
      | _ =>
        demote k
        flattenFrom id fuel (index + 1) taken
termination_by structural fuel => fuel

/-- The entries of several mappings, those of the last first. -/
def merged : Nat → List NodeId → Construct (List (NodeId × NodeId))
  | 0, _ => throw .malformed
  | _ + 1, [] => return []
  | fuel + 1, id :: rest => do
    match (← nodeAt id).content with
    | .mapping _ =>
      flattenFrom id fuel 0 []
      let first ← entriesOf id
      return (← merged fuel rest) ++ first
    | _ => throw .unreadable
termination_by structural fuel => fuel
end

/-- How many steps the merge keys of a text can take: taking over fields from mappings that took
over theirs at most doubles their count each time. -/
def mergeFuel : Construct Nat := do
  let parts := (← get).nodes.foldl (fun n node =>
    match node.content with
    | .mapping entries => n + entries.length + 1
    | .sequence items => n + items.length + 1
    | .scalar _ => n + 1) 1
  return Nat.pow 2 (min parts 60)

/-- The entries of a mapping with its merge keys replaced. -/
def flatEntries (id : NodeId) : Construct (List (NodeId × NodeId)) := do
  match (← nodeAt id).content with
  | .mapping _ =>
    flattenFrom id (← mergeFuel) 0 []
    entriesOf id
  | _ => throw .unreadable

/-! ## Filling -/

/-- Store a field: in place on a known key, at the end on a new one. -/
def putEntry (fields : List (Document × NodeId)) (k : Document) (v : NodeId) :
    List (Document × NodeId) :=
  match fields with
  | [] => [(k, v)]
  | (k', v') :: rest => if k'.sameKey k then (k', v) :: rest else (k', v') :: putEntry rest k v

/-- The fields for the entries of a mapping. -/
def fields (id : NodeId) : Construct (List (Document × NodeId)) := do
  (← flatEntries id).foldlM (fun acc (k, v) => do
    let d ← key k
    let _ ← make v
    return putEntry acc d v) []

/-- The pair that a mapping with one entry stands for. -/
def pairOf (id : NodeId) : Construct (NodeId × NodeId) := do
  match (← nodeAt id).content with
  | .mapping [(k, v)] =>
    let _ ← make k
    let _ ← make v
    return (k, v)
  | _ => throw .unreadable

/-- Fill the collection of a node with its parts. -/
def fill (id : NodeId) : Construct Unit := do
  let n ← nodeAt id
  match n.tag, n.content with
  | .sequence, .sequence items =>
    items.forM fun i => discard (make i)
    setCell id (.array items)
  | .mapping, .mapping _ => setCell id (.object (← fields id))
  | .pairs, .sequence items => setCell id (.pairs (← items.mapM pairOf))
  | .collection, .mapping _ => setCell id (.collection ((← fields id).map Prod.fst))
  | _, _ => throw .unreadable

/-- Fill all collections that are left. Every node is filled once at most, so the count of nodes
is fuel enough. -/
def fillAll : Nat → Construct Unit
  | 0 => return ()
  | fuel + 1 => do
    match (← get).pending with
    | [] => return ()
    | id :: rest =>
      modify fun w => { w with pending := rest }
      fill id
      fillAll fuel

end Construct

/-- The value of a node as a document; `around` holds the collections that it stands inside of,
the innermost first. -/
def Cell.document (cells : Array (Option Cell)) (around : List NodeId) :
    Nat → NodeId → Document
  | 0, _ => .null
  | fuel + 1, id =>
    let inside := Cell.document cells (id :: around) fuel
    match cells.getD id none, around.contains id with
    | some (.leaf d), _ => d
    | some (.object _), true => .loop true
    | some _, true => .loop false
    | some (.array items), false => .array (items.map inside)
    | some (.pairs items), false => .array (items.map fun p => .pair (inside p.1) (inside p.2))
    | some (.collection members), false => .collection members
    | some (.object fields), false => .object (fields.map fun p => (p.1, inside p.2))
    | none, _ => .null

/-- The document of a graph of nodes. -/
def NodeGraph.document (g : NodeGraph) : Except Fault Document := do
  let count := g.nodes.size
  let construct : Construct Unit := do
    let _ ← Construct.make g.root
    Construct.fillAll (count + 1)
  let (_, w) ← construct.run { nodes := g.nodes, cells := Array.replicate count none }
  return Cell.document w.cells [] (count + 1) g.root

/-! # Reading documents

A text is cut into tokens, these spell nodes, and the nodes have values.
-/

/-- The document of a text, null if there is none. -/
def read (text : String) : Except Fault Document := do
  match ← NodeGraph.ofScanned (Token.scan text) with
  | some graph => graph.document
  | none => return .null

end TypedApi.Document.Yaml
