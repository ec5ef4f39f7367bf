import TypedApi.Document.Coercion
import TypedApi.Graph.Shape
/-!
Items: the named and documented nodes of a model.
-/

set_option autoImplicit false

namespace TypedApi

/-- Options of an item that is emitted as a wrapper with a single field. -/
structure Newtype where
  from_ : Bool := false
  into : Bool := false
  deref : Bool := false
  derefMut : Bool := false
  pub : Bool := false
deriving DecidableEq, Repr, Inhabited

namespace Newtype

/-- Set one option; `none` if the key names none. -/
def setOption? (options : Newtype) (key : String) (value : Bool) : Option Newtype :=
  match key with
  | "from" | "from_" => some { options with from_ := value }
  | "into" => some { options with into := value }
  | "deref" => some { options with deref := value }
  | "deref-mut" | "deref_mut" => some { options with derefMut := value }
  | "pub" => some { options with pub := value }
  | _ => none

/-- Set the options that an object's fields name. -/
def setAll? (options : Newtype) : List (Document × Document) → Option Newtype
  | [] => some options
  | (key, value) :: rest => do
    let next ← options.setOption? (← key.text?) (← value.flag?)
    next.setAll? rest

/-- The options that an extension asks for. True asks for the defaults and an object for changes
to them, as long as it names known options and none of them in both of its spellings. -/
def ofExtension? : Document → Option Newtype
  | .bool true => some {}
  | .object fields =>
    let d := Document.object fields
    if (d.hasField "from" && d.hasField "from_") ||
        (d.hasField "deref-mut" && d.hasField "deref_mut") then none
    else setAll? {} fields
  | _ => none

end Newtype

/-- A node of a model.

The documentation is kept as the document gives it, null for none; a text
unless it was taken over from a place that admits other values. `innerName` is
set only on the alias that adds null to another item, and names that item. -/
structure Item where
  docs : Document := .null
  specName : String := ""
  generatedName : String := ""
  innerName : Option String := none
  newtype : Option Newtype := none
  pubTypedef : Bool := false
  nullable : Bool := false
  shape : Shape := .scalar .any
  contentType : Option String := none
  implHeader : Bool := false
deriving Repr, Inhabited

namespace Item

/-- Whether an item is part of the public interface. -/
def isPublic (item : Item) : Bool :=
  item.newtype.isSome || item.pubTypedef || item.shape.isNominal

/-- Whether an item is emitted as another name for a type. -/
def isTypedef (item : Item) : Bool :=
  item.newtype.isNone && !item.shape.isNominal

variable {ε : Type}

/-- Put every reference of an item through a function that may fail. -/
def mapRefs (f : Ref → Except ε Ref) (item : Item) : Except ε Item := do
  return { item with shape := ← item.shape.mapRefs f }

/-- An item with documentation unless it has some. -/
def orDocs (item : Item) (docs : Document) : Item :=
  if item.docs.isNull then { item with docs := docs } else item

end Item

end TypedApi
