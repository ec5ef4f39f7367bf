import TypedApi.Document.Yaml.Scalar
import TypedApi.Document.Yaml.Token
/-!
Nodes: what a list of tokens spells.

A node is a scalar, a sequence or a mapping, each with a tag. An anchor names
a node, and a reference to the name stands for the same node again; the anchor
must come first and its name may be used once. A reference may stand inside of
the node that it names, so the nodes of a text form a graph and not a tree:
each has its number, and the parts of a node are given by their numbers.
-/

set_option autoImplicit false

namespace TypedApi.Document.Yaml

/-- The number of a node, in the order in which the nodes of a text begin. -/
abbrev NodeId := Nat

/-- What a node holds. -/
inductive Content where
  | scalar (content : String)
  | sequence (items : List NodeId)
  | mapping (entries : List (NodeId × NodeId))
deriving Repr, Inhabited

/-- A node. -/
structure Node where
  tag : Tag
  content : Content
deriving Repr, Inhabited

/-- The nodes of a text, each at its number, and the one that all others belong to. -/
structure NodeGraph where
  nodes : Array Node
  root : NodeId
deriving Repr, Inhabited

/-- What is known in the middle of a list of tokens. -/
structure Composer where
  tokens : List Token
  /-- Why there are no more tokens, if that is not the end of the text. -/
  fault : Option Fault := none
  /-- The handles that a document has declared. -/
  declared : List String := []
  handles : List (String × String) := knownHandles
  anchors : List (String × NodeId) := []
  nodes : Array Node := #[]
deriving Inhabited

/-- A step of reading nodes. -/
abbrev Compose := StateT Composer (Except Fault)

namespace Compose

/-- The next token. -/
def peek : Compose (Option Token) := do
  let s ← get
  match s.tokens, s.fault with
  | t :: _, _ => return some t
  | [], some fault => throw fault
  | [], none => return none

/-- Go on by one token. -/
def skip : Compose Unit :=
  modify fun s => { s with tokens := s.tokens.tail }

/-- Whether the next token is this one; if so, go on over it. -/
def accept (t : Token) : Compose Bool := do
  if (← peek) = some t then
    skip
    return true
  else return false

/-- Go on over a token that must come next. -/
def expect (t : Token) : Compose Unit := do
  if !(← accept t) then throw .unreadable

/-- Whether the next token is one of these. -/
def nextIn (ts : List Token) : Compose Bool := do
  match ← peek with
  | some t => return ts.contains t
  | none => return false

/-- Add a node. -/
def add (tag : Tag) (content : Content) : Compose NodeId := do
  let s ← get
  set { s with nodes := s.nodes.push ⟨tag, content⟩ }
  return s.nodes.size

/-- Add a node for what is left out. -/
def absent : Compose NodeId :=
  add .null (.scalar "")

/-- Give a node its parts. -/
def fill (id : NodeId) (content : Content) : Compose NodeId := do
  modify fun s => { s with nodes := s.nodes.modify id fun n => { n with content := content } }
  return id

/-! ## Properties -/

/-- The anchor and the tag before a node, in either order. -/
def properties : Compose (Option String × Option WrittenTag) := do
  match ← peek with
  | some (.anchor name) =>
    skip
    match ← peek with
    | some (.tag t) =>
      skip
      return (some name, some t)
    | _ => return (some name, none)
  | some (.tag t) =>
    skip
    match ← peek with
    | some (.anchor name) =>
      skip
      return (some name, some t)
    | _ => return (none, some t)
  | _ => return (none, none)

/-- The address of a tag. -/
def addressOf (t : WrittenTag) : Compose String := do
  match t.handle with
  | none => return t.suffix
  | some h =>
    match (← get).handles.find? fun p => p.1 = h with
    | some p => return p.2 ++ t.suffix
    | none => throw .unreadable

/-- The address of a tag, none if there is no tag. -/
def addressOf? : Option WrittenTag → Compose (Option String)
  | none => return none
  | some t => return some (← addressOf t)

/-- The tag of a collection. -/
def collectionTag (usual : Tag) : Option String → Tag
  | none => usual
  | some "!" => usual
  | some address => Tag.ofAddress address

/-- The tag of a scalar. Without one the text decides if it is plain; the lone exclamation mark
leaves it to the text in any case. -/
def scalarTag (content : String) (plain : Bool) : Option String → Tag
  | none => if plain then Tag.ofPlain content else .text
  | some "!" => Tag.ofPlain content
  | some address => Tag.ofAddress address

/-- Name the node that comes next. -/
def anchorNext : Option String → Compose Unit
  | none => return ()
  | some name => do
    if (← get).anchors.any fun p => p.1 = name then throw .unreadable
    modify fun s => { s with anchors := (name, s.nodes.size) :: s.anchors }

/-- The node that an anchor names. -/
def named (name : String) : Compose NodeId := do
  match (← get).anchors.find? fun p => p.1 = name with
  | some (_, id) => return id
  | none => throw .unreadable

/-- How a node begins after its properties. -/
inductive Start where
  | scalar (tag : Tag) (content : String)
  | flowSequence (tag : Tag)
  | flowMapping (tag : Tag)
  | bareSequence (tag : Tag)
  | blockSequence (tag : Tag)
  | blockMapping (tag : Tag)

/-- Go on over the beginning of a node after its properties; a node with properties may be left
out. -/
def kind (block indentless : Bool) (address : Option String) (hasProperties : Bool) :
    Compose Start := do
  let sequenceTag := collectionTag .sequence address
  let mappingTag := collectionTag .mapping address
  match ← peek with
  | some (.scalar s plain) =>
    skip
    return .scalar (scalarTag s plain address) s
  | some .flowSequenceStart =>
    skip
    return .flowSequence sequenceTag
  | some .flowMappingStart =>
    skip
    return .flowMapping mappingTag
  | t =>
    if indentless && t = some .blockEntry then return .bareSequence sequenceTag
    else if block && t = some .blockSequenceStart then
      skip
      return .blockSequence sequenceTag
    else if block && t = some .blockMappingStart then
      skip
      return .blockMapping mappingTag
    else if hasProperties then return .scalar (scalarTag "" true address) ""
    else throw .unreadable

/-! ## Nodes

`block` tells whether block collections may begin here, and `indentless`
whether a sequence may that is not indented further than the key it belongs
to; `room` is how many levels the node may be nested. The fuel is the count of
tokens; every call that spends one either has taken a token or ends. -/

/-- How many levels deep a text may be nested. -/
def maxDepth : Nat := 490

/-- The tokens that follow a block mapping's key or value when that is left out. -/
def mappingMarks : List Token :=
  [.key, .value, .blockEnd]

mutual
/-- A node. -/
def node (room : Nat) (block indentless : Bool) : Nat → Compose NodeId
  | 0 => throw .unreadable
  | fuel + 1 => do
    match room, ← peek with
    | 0, _ => throw .malformed
    | _ + 1, some (.reference name) =>
      skip
      named name
    | room + 1, _ =>
      let (anchor, tag) ← properties
      let address ← addressOf? tag
      let start ← kind block indentless address (anchor.isSome || tag.isSome)
      anchorNext anchor
      match start with
      | .scalar tag s => add tag (.scalar s)
      | .flowSequence tag =>
        let id ← add tag (.sequence [])
        fill id (.sequence (← flowItems room true fuel))
      | .flowMapping tag =>
        let id ← add tag (.mapping [])
        fill id (.mapping (← flowEntries room true fuel))
      | .bareSequence tag =>
        let id ← add tag (.sequence [])
        fill id (.sequence (← bareItems room fuel))
      | .blockSequence tag =>
        let id ← add tag (.sequence [])
        fill id (.sequence (← blockItems room fuel))
      | .blockMapping tag =>
        let id ← add tag (.mapping [])
        fill id (.mapping (← blockEntries room fuel))
termination_by structural fuel => fuel

/-- The items of a block sequence and its end. -/
def blockItems (room : Nat) : Nat → Compose (List NodeId)
  | 0 => throw .unreadable
  | fuel + 1 => do
    if ← accept .blockEntry then
      let item ←
        if ← nextIn [.blockEntry, .blockEnd] then absent else node room true false fuel
      return item :: (← blockItems room fuel)
    else
      expect .blockEnd
      return []
termination_by structural fuel => fuel

/-- The items of a sequence that is not indented. -/
def bareItems (room : Nat) : Nat → Compose (List NodeId)
  | 0 => throw .unreadable
  | fuel + 1 => do
    if ← accept .blockEntry then
      let item ←
        if ← nextIn (.blockEntry :: mappingMarks) then absent else node room true false fuel
      return item :: (← bareItems room fuel)
    else return []
termination_by structural fuel => fuel

/-- The entries of a block mapping and its end. -/
def blockEntries (room : Nat) : Nat → Compose (List (NodeId × NodeId))
  | 0 => throw .unreadable
  | fuel + 1 => do
    if ← nextIn [.blockEnd] then
      skip
      return []
    else
      let key ←
        if ← accept .key then
          if ← nextIn mappingMarks then absent else node room true true fuel
        else throw .unreadable
      let value ←
        if ← accept .value then
          if ← nextIn mappingMarks then absent else node room true true fuel
        else absent
      return (key, value) :: (← blockEntries room fuel)
termination_by structural fuel => fuel

/-- The items of a flow sequence and its end. A key makes an item a mapping with one entry. -/
def flowItems (room : Nat) (first : Bool) : Nat → Compose (List NodeId)
  | 0 => throw .unreadable
  | fuel + 1 => do
    if ← accept .flowSequenceEnd then return []
    if !first then expect .flowEntry
    if ← accept .flowSequenceEnd then return []
    let item ←
      if ← accept .key then do
        let id ← add .mapping (.mapping [])
        let key ←
          if ← nextIn [.value, .flowEntry, .flowSequenceEnd] then absent
          else node (room - 1) false false fuel
        let value ←
          if ← accept .value then
            if ← nextIn [.flowEntry, .flowSequenceEnd] then absent
            else node (room - 1) false false fuel
          else absent
        fill id (.mapping [(key, value)])
      else node room false false fuel
    return item :: (← flowItems room false fuel)
termination_by structural fuel => fuel

/-- The entries of a flow mapping and its end. -/
def flowEntries (room : Nat) (first : Bool) : Nat → Compose (List (NodeId × NodeId))
  | 0 => throw .unreadable
  | fuel + 1 => do
    if ← accept .flowMappingEnd then return []
    if !first then expect .flowEntry
    if ← accept .flowMappingEnd then return []
    let entry ←
      if ← accept .key then
        let key ←
          if ← nextIn [.value, .flowEntry, .flowMappingEnd] then absent
          else node room false false fuel
        let value ←
          if ← accept .value then
            if ← nextIn [.flowEntry, .flowMappingEnd] then absent else node room false false fuel
          else absent
        pure (key, value)
      else do
        let key ← node room false false fuel
        pure (key, ← absent)
    return entry :: (← flowEntries room false fuel)
termination_by structural fuel => fuel

end

/-! ## Documents -/

/-- The directives before a document; a version must be of the first edition, and a handle may be
declared once. -/
def directives (versioned : Bool) : Nat → Compose Unit
  | 0 => throw .unreadable
  | fuel + 1 => do
    match ← peek with
    | some (.versionDirective major) =>
      skip
      if versioned || major ≠ 1 then throw .unreadable
      directives true fuel
    | some (.tagDirective h start) =>
      skip
      if (← get).declared.contains h then throw .unreadable
      modify fun s => { s with declared := h :: s.declared, handles := (h, start) :: s.handles }
      directives versioned fuel
    | some .otherDirective =>
      skip
      directives versioned fuel
    | _ => return ()

/-- Go on over marks that end a document. -/
def skipEnds : Compose Unit :=
  modify fun s => { s with tokens := s.tokens.dropWhile (· = .documentEnd) }

/-- Whether the next token is a directive or the beginning of a document. -/
def atHead : Compose Bool := do
  match ← peek with
  | some (.versionDirective _) | some (.tagDirective ..) | some .otherDirective
  | some .documentStart => return true
  | _ => return false

/-- Whether a document that has begun is empty. -/
def atEmpty : Compose Bool := do
  return (← atHead) || (← nextIn [.documentEnd]) || (← peek).isNone

/-- The root of the only document, none if there is none. -/
def document : Compose (Option NodeId) := do
  let fuel := 4 * (← get).tokens.length + 4
  if (← peek).isNone then return none
  let root ←
    if ← atHead then
      directives false fuel
      expect .documentStart
      if ← atEmpty then absent else node maxDepth true false fuel
    else node maxDepth true false fuel
  skipEnds
  if (← peek).isSome then throw .unreadable
  return some root

end Compose

/-- The nodes that the tokens of a text spell, none if there are no tokens. -/
def NodeGraph.ofScanned (s : Scanned) : Except Fault (Option NodeGraph) := do
  let (root, c) ← Compose.document.run { tokens := s.tokens, fault := s.fault }
  return root.map fun id => ⟨c.nodes, id⟩

end TypedApi.Document.Yaml
