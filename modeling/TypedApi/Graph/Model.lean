import TypedApi.Graph.Item
import TypedApi.Operation.Basic
/-!
Models: the items and operations of one document, with the tables that name
them.

Items are kept in the order in which they were added, and a reference is an
index into them. Two tables lead to indices: `items` from the generated names,
`namedReferences` from the paths of the document. A model is under
construction until it is finished; from then on all its references are
resolved and all its variants named.
-/

set_option autoImplicit false

namespace TypedApi

/-- The items and operations of one document. -/
structure Model where
  definitions : List Item := []
  /-- The index of every item by its generated name, in the order of the items. -/
  items : Table Nat := []
  /-- The index behind every registered path. -/
  namedReferences : Table Int := []
  operations : List Operation := []
  /-- The variants of every shared response by its path. -/
  responseVariants : Table (List Variant) := []
  /-- Whether integers with bounds become bounded kinds. -/
  boundedIntegers : Bool := true
  /-- The item of the header that all operations with several content types share. -/
  acceptHeader : Option Ref := none
  finalized : Bool := false
deriving Repr, Inhabited

namespace Model

/-- The count of items. -/
def size (m : Model) : Nat :=
  m.definitions.length

/-- Whether an index is that of an item. -/
def inRange (m : Model) (index : Int) : Bool :=
  0 ≤ index && index < m.size

/-- The position of an index, a negative one counting from the end. -/
def position? (m : Model) (index : Int) : Option Nat :=
  let i := if index < 0 then index + m.size else index
  if 0 ≤ i && i < m.size then some i.toNat else none

/-- The index behind a reference. The path of a forward reference must be registered; any other
index must be that of an item. -/
def indexOf (m : Model) : Ref → Except Failure Int
  | .forward path =>
    match m.namedReferences.get? path with
    | some index => .ok index
    | none => fail (.unknownReference path)
  | .back index =>
    if m.inRange index then .ok index else fail (.unknownReference (Ref.back index).text)
  | .resolved index =>
    if m.inRange index then .ok index else fail (.unknownReference (Ref.resolved index).text)

/-- The item at an index. -/
def itemAt (m : Model) (index : Int) : Except Failure Item :=
  orMalformed ((m.position? index).bind fun i => m.definitions[i]?)

/-- The item behind a reference. -/
def resolve (m : Model) (r : Ref) : Except Failure Item :=
  match m.indexOf r with
  | .ok index => m.itemAt index
  | .error e => .error e

/-- The generated name of the item behind a reference. -/
def nameOf (m : Model) (r : Ref) : Except Failure String :=
  (m.resolve r).map Item.generatedName

/-- A reference to the item of a registered path. -/
def named (m : Model) (path : String) : Except Failure Ref :=
  match m.namedReferences.get? path with
  | some index => .ok (.back index)
  | none => fail (.unknownReference path)

/-- Whether a generated name is in use. -/
def identExists (m : Model) (name : String) : Bool :=
  m.items.contains name

/-- References to all items, in order. -/
def allRefs (m : Model) : List Ref :=
  (List.range m.size).map fun (i : Nat) => .resolved i

/-- The variants of a shared response. -/
def cachedVariants (m : Model) (path : String) : Except Failure (List Variant) :=
  match m.responseVariants.get? path with
  | some variants => .ok variants
  | none => fail (.unknownReference path)

end Model

end TypedApi
