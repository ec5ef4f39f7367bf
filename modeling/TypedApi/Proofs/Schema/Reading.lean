import TypedApi.Proofs.Build.Follows
import TypedApi.Schema.Lowering
/-!
Reading trees off schemas.

The tree of a schema is read off the schema alone, over the reading of the
schemas inside it. Nothing here knows of models, of names or of items: a
reading looks at the schema, at the object that it is a property of, and at
whether integers with bounds are bounded kinds. Where a schema has no tree, the
reading tells the family of the first problem with it.
-/

set_option autoImplicit false

/-! # The trees that schemas denote

A schema denotes a tree whatever model it is lowered into: one node for each
schema that is written out, with what the schema says of itself and with the
trees of the schemas inside it, and a leaf for each reference to a path. Trees
know neither names nor places. `treeOf` reads the tree off a schema, or tells
the family of the problem that keeps the schema from having one.

A model holds a tree as items in post-order: the items of the children come
first, child by child, and the item of the node itself comes last. `Flattens`
says so of a run of items, and `Unfolds` of a reference into a whole model.
-/

namespace TypedApi.Schema

/-! ## Trees -/

/-- What an item says apart from its names and its shape. -/
structure About where
  docs : Document := .null
  newtype : Option Newtype := none
  pubTypedef : Bool := false
  nullable : Bool := false

/-- A field of an object apart from its type. -/
structure Field where
  name : String
  readOnly : Bool
  writeOnly : Bool
  inlineOption : Bool

/-- What is left of a shape without its references. -/
inductive Form where
  | scalar (scalar : Scalar)
  | list
  | set
  /-- A map; it has one child if there is a type for its values, and none otherwise. -/
  | map
  /-- An object, with a child for each of its fields. -/
  | object (fields : List Field)
  | stringEnum (variants : List String) (extensible : Bool)
  /-- A union, with the tag of each of its alternatives if there is one, and a child for each. -/
  | oneOf (discriminant : Option String) (tags : List (Option String))
  | synonym
  | override (readOnly writeOnly : Bool) (title description : Option String)

/-- The tree of a schema. -/
inductive Tree where
  | reference (path : String)
  | node (about : About) (form : Form) (children : List Tree)

/-- What an item says apart from its names and its shape. -/
def aboutOf (item : Item) : About where
  docs := item.docs
  newtype := item.newtype
  pubTypedef := item.pubTypedef
  nullable := item.nullable

/-- What is left of a shape without its references. -/
def formOf : Shape → Form
  | .scalar s => .scalar s
  | .list _ => .list
  | .set _ => .set
  | .map _ => .map
  | .object members => .object (members.map fun p =>
      { name := p.1
        readOnly := p.2.readOnly
        writeOnly := p.2.writeOnly
        inlineOption := p.2.inlineOption })
  | .stringEnum variants extensible => .stringEnum variants extensible
  | .oneOf discriminant variants => .oneOf discriminant (variants.map Variant.mappingName)
  | .synonym _ => .synonym
  | .override readOnly writeOnly title description _ =>
    .override readOnly writeOnly title description

namespace Tree

/-- The tree of a scalar that nothing more is said of. -/
def leaf (s : Scalar) : Tree :=
  .node {} (.scalar s) []

mutual
/-- How many nodes a tree has, leaves that are references aside. -/
def nodes : Tree → Nat
  | .reference _ => 0
  | .node _ _ children => nodesOfAll children + 1

/-- How many nodes some trees have. -/
def nodesOfAll : List Tree → Nat
  | [] => 0
  | tree :: rest => tree.nodes + nodesOfAll rest
end

mutual
/-- Some items that start at a place are the nodes of a tree in post-order, and a reference leads
to the root. Where a path leads is given. -/
def Flattens (leads : String → Ref) (start : Nat) : Tree → List Item → Ref → Prop
  | .reference path, items, r => items = [] ∧ r = leads path
  | .node about form children, items, r =>
    ∃ front item, items = front ++ [item] ∧ aboutOf item = about ∧ formOf item.shape = form ∧
      FlattensAll leads start children front item.shape.refs ∧ r = .back (start + front.length)

/-- Some items that start at a place are the nodes of some trees, tree by tree in post-order, and
some references lead to their roots. -/
def FlattensAll (leads : String → Ref) (start : Nat) : List Tree → List Item → List Ref → Prop
  | [], items, refs => items = [] ∧ refs = []
  | tree :: trees, items, refs =>
    ∃ first rest r rs, items = first ++ rest ∧ refs = r :: rs ∧
      Flattens leads start tree first r ∧ FlattensAll leads (start + first.length) trees rest rs
end

mutual
/-- A reference leads to a tree among the items of a model. -/
def Unfolds (leads : String → Ref) (items : List Item) : Tree → Ref → Prop
  | .reference path, r => r = leads path
  | .node about form children, r =>
    ∃ (i : Nat) (item : Item), r = .back i ∧ items[i]? = some item ∧ aboutOf item = about ∧
      formOf item.shape = form ∧ UnfoldsAll leads items children item.shape.refs

/-- Some references lead to some trees among the items of a model. -/
def UnfoldsAll (leads : String → Ref) (items : List Item) : List Tree → List Ref → Prop
  | [], refs => refs = []
  | tree :: trees, refs =>
    ∃ r rs, refs = r :: rs ∧ Unfolds leads items tree r ∧ UnfoldsAll leads items trees rs
end

variable {leads : String → Ref}

mutual
/-- **As many items as nodes.** The induction is on trees and on lists of trees at once. -/
theorem Flattens.length_eq {start : Nat} {tree : Tree} {items : List Item} {r : Ref}
    (h : Flattens leads start tree items r) : items.length = tree.nodes := by
  cases tree with
  | reference path =>
    obtain ⟨rfl, _⟩ := h
    rfl
  | node about form children =>
    obtain ⟨front, item, rfl, _, _, hchildren, _⟩ := h
    -- the root is the one item that is not a node of a child
    rw [List.length_append, FlattensAll.length_eq hchildren, nodes]
    rfl

theorem FlattensAll.length_eq {start : Nat} {trees : List Tree} {items : List Item}
    {refs : List Ref} (h : FlattensAll leads start trees items refs) :
    items.length = nodesOfAll trees := by
  cases trees with
  | nil =>
    obtain ⟨rfl, _⟩ := h
    rfl
  | cons tree trees =>
    obtain ⟨first, rest, r, rs, rfl, _, htree, htrees⟩ := h
    rw [List.length_append, Flattens.length_eq htree, FlattensAll.length_eq htrees, nodesOfAll]
end

mutual
/-- **A run of items unfolds** wherever it stands in a model: the tree that it flattens is found
again from the reference to its root. -/
theorem Flattens.unfolds {before items : List Item} {tree : Tree} {r : Ref} (after : List Item)
    (h : Flattens leads before.length tree items r) :
    Unfolds leads (before ++ items ++ after) tree r := by
  cases tree with
  | reference path => exact h.2
  | node about form children =>
    obtain ⟨front, item, rfl, habout, hform, hchildren, rfl⟩ := h
    refine ⟨before.length + front.length, item, by simp, ?_, habout, hform, ?_⟩
    · simp
    -- the children stand before the root, which is part of what comes after them
    · have hunfolds := FlattensAll.unfolds (item :: after) hchildren
      simpa using hunfolds

theorem FlattensAll.unfolds {before items : List Item} {trees : List Tree}
    {refs : List Ref} (after : List Item) (h : FlattensAll leads before.length trees items refs) :
    UnfoldsAll leads (before ++ items ++ after) trees refs := by
  cases trees with
  | nil => exact h.2
  | cons tree trees =>
    obtain ⟨first, rest, r, rs, rfl, rfl, htree, htrees⟩ := h
    refine ⟨r, rs, rfl, ?_, ?_⟩
    · have hunfolds := Flattens.unfolds (rest ++ after) htree
      simpa using hunfolds
    -- the later trees start where the first one ends
    · have hstart : before.length + first.length = (before ++ first).length := by simp
      rw [hstart] at htrees
      have hunfolds := FlattensAll.unfolds after htrees
      simpa using hunfolds
end

end Tree

end TypedApi.Schema

/-! # From a schema to its tree -/

namespace TypedApi.Schema

/-- A way to read schemas: the tree of a schema, given its place if it is a property. -/
abbrev Reading := Document → Option Placement → Except ProblemKind Tree

/-! ## The keywords -/

/-- The answer to a question about shapes. -/
def classed {α : Type} (e : Except ShapeProblem α) : Except ProblemKind α :=
  match e with
  | .ok a => .ok a
  | .error _ => .error .shape

/-- An optional text: null for none. -/
def readOptional (d : Document) : Except ProblemKind (Option String) :=
  if d.isNull then .ok none else need d.asText? >>= fun s => .ok (some s)

/-- A text, or null for none. -/
def readText (d : Document) : Except ProblemKind Document :=
  readOptional d >>= fun o => .ok ((o.map Document.text).getD .null)

/-- The object form of a schema. -/
def readObject : Document → Except ProblemKind Document
  | .object fields => .ok (.object fields)
  | .bool true => .ok (.object [])
  | .loop true => .error .malformed
  | _ => .error .schema

/-- Whether a schema is an optional property that is nothing but one reference in an `allOf`. -/
def readSingleton (placement : Option Placement) (schema : Document) : Except ProblemKind Bool :=
  match placement with
  | none => .ok false
  | some p =>
    if !p.declared then .ok false
    else do
      let isRequired ← need ((p.required.orElse (.array [])).mentions? p.property)
      if isRequired then .ok false
      else
        match schema.find? "allOf" with
        | some (.array [entry]) => .ok (entry.hasField "$ref")
        | _ => .ok false

/-- A schema with at most one type, and whether null is admitted besides. -/
def readNullable (schema : Document) : Except ProblemKind (Document × Bool) :=
  let nullable := ((schema.find? "nullable").getD .null).isTrue
  match schema.find? "type" with
  | some (.array types) =>
    let others := types.filter fun t => !t.isText "null"
    match others with
    | [] => .ok (schema.withField "type" (.text "null"), nullable || others.length ≠ types.length)
    | [t] => .ok (schema.withField "type" t, nullable || others.length ≠ types.length)
    | _ => .error .schema
  | _ => .ok (schema, nullable)

/-- A title must be a text. -/
def readTitle (schema : Document) : Except ProblemKind Unit :=
  let title := (schema.find? "title").getD .null
  if title.holds then need title.text? >>= fun _ => .ok () else .ok ()

/-! ## The schemas inside -/

/-- The tree of a schema that may be a reference: the path is a leaf, unless it is the address of a
well-known schema, which is a scalar. -/
def readReferred (read : Reading) (schema : Document) (placement : Option Placement) :
    Except ProblemKind Tree :=
  let reference := referenceOf schema
  if reference.isNull then read schema placement
  else do
    let target ← need reference.text?
    match if WellKnown.isExternal target then WellKnown.find? target else none with
    | some scalar => .ok (.leaf scalar)
    | none => .ok (.reference target)

/-- An array: a list or a set of its elements. Elements without a schema are arbitrary. -/
def readArray (read : Reading) (schema : Document) : Except ProblemKind (Form × List Tree) := do
  let items := (schema.find? "items").getD .null
  let item ← (if items.isNull then .ok (.leaf .any) else readReferred read items none)
  .ok (if ((schema.find? "uniqueItems").getD .null).holds then .set else .list, [item])

/-- The values of a `required` keyword. -/
def readRequired (schema : Document) : Except ProblemKind (List Document) := do
  let names ← need (((schema.find? "required").getD .null).orElse (.array [])).elements?
  if names.all Document.isKey then .ok names else .error .malformed

/-- A property: its name and access, whether it may be left out, and the tree of its schema. -/
def readMember (read : Reading) (schema : Document) (required : List Document)
    (property : Document × Document) : Except ProblemKind (Field × Tree) := do
  let (key, declared) := property
  let inline := declared.isObject && !declared.hasField "$ref"
  let flag := fun keyword => inline && ((declared.find? keyword).getD .null).holds
  let name ← need key.text?
  let tree ← readReferred read declared
    (some ⟨(schema.find? "required").getD .null, name, true⟩)
  .ok ({
    name
    readOnly := flag "readOnly"
    writeOnly := flag "writeOnly"
    inlineOption := !(required.any fun r => r.isText name) }, tree)

/-- The schema for all further fields; the one that admits nothing is none. -/
def furtherFields (schema : Document) : Document :=
  match (schema.find? "additionalProperties").getD .null with
  | .bool false => .null
  | d => d

/-- The properties of an object: one field for each, in order. -/
def readProperties (read : Reading) (schema properties : Document) :
    Except ProblemKind (Form × List Tree) := do
  let required ← readRequired schema
  let fields ← need properties.fields?
  let members ← fields.mapM (readMember read schema required)
  .ok (.object (members.map Prod.fst), members.map Prod.snd)

/-- An object: a map if there is a schema for all further fields, else a field for each property. -/
def readFields (read : Reading) (schema : Document) : Except ProblemKind (Form × List Tree) :=
  let properties := ((schema.find? "properties").getD .null).orElse (.object [])
  if properties.holds && !(furtherFields schema).isNull then .error .shape
  else
    match furtherFields schema with
    | .null => readProperties read schema properties
    | .bool true => .ok (.map, [])
    | .object [] => .ok (.map, [])
    | .object (f :: fs) => do
      let value ← readReferred read (.object (f :: fs)) none
      .ok (.map, [value])
    | _ => .error .shape

/-- The first key of a mapping whose value is the reference. -/
def readMapping (mapping reference : Document) : Except ProblemKind Document := do
  let fields ← need mapping.fields?
  .ok (((fields.find? fun p => p.2.same reference).map Prod.fst).getD .null)

/-- An alternative of a union: its tag if it is a reference, and its tree. -/
def readVariant (read : Reading) (mapping alternative : Document) :
    Except ProblemKind (Option String × Tree) := do
  let reference := referenceOf alternative
  let key ← (if reference.isNull then .ok .null else readMapping mapping reference)
  let tree ← readReferred read alternative none
  let tag ← readOptional key
  .ok (tag, tree)

/-- A union: one alternative for each entry, in order. -/
def readUnion (read : Reading) (schema : Document) : Except ProblemKind (Form × List Tree) := do
  let discriminator := ((schema.find? "discriminator").getD .null).orElse (.object [])
  let discriminant ← need (discriminator.get? "propertyName")
  let mapping ← need (discriminator.get? "mapping")
  let alternatives ← need ((schema.find? "oneOf").getD .null).elements?
  let variants ← alternatives.mapM (readVariant read (mapping.orElse (.object [])))
  let discriminant ← readOptional discriminant
  .ok (.oneOf discriminant (variants.map Prod.fst), variants.map Prod.snd)

/-- An override of the one reference in an `allOf`. -/
def readOverride (read : Reading) (schema : Document) : Except ProblemKind (Form × List Tree) := do
  let entry ←
    (match schema.find? "allOf" with
    | some (.array (e :: _)) => .ok e
    | _ => .error .malformed)
  let target ← readReferred read entry none
  let flag := fun keyword => ((schema.find? keyword).getD .null).holds
  let title ← readOptional ((schema.find? "title").getD .null)
  let description ← readOptional ((schema.find? "description").getD .null)
  .ok (.override (flag "readOnly") (flag "writeOnly") title description, [target])

/-! ## Dispatch -/

/-- A text: an enumeration, or the scalar of its format. -/
def readString (schema : Document) (nullable : Bool) : Except ProblemKind (Form × List Tree) := do
  let enumerated ← classed (enumeration schema nullable)
  match enumerated with
  | some shape => .ok (formOf shape, [])
  | none =>
    let scalar ← need (Scalar.ofFormat? ((schema.find? "format").getD .null))
    .ok (.scalar scalar, [])

/-- A schema that is neither a union nor an override, by its type. -/
def readTyped (bounded : Bool) (read : Reading) (schema : Document) (nullable : Bool) :
    Except ProblemKind (Form × List Tree) :=
  match ((schema.find? "type").getD .null).orElse (inferType schema) with
  | .text "boolean" => .ok (.scalar .bool, [])
  | .text "number" => do
    let scalar ← classed (Scalar.ofNumber schema)
    .ok (.scalar scalar, [])
  | .text "integer" => do
    let reading ← classed (Scalar.ofInteger schema bounded)
    .ok (.scalar reading.scalar, [])
  | .text "string" => readString schema nullable
  | .text "array" => readArray read schema
  | .text "object" => readFields read schema
  | .text "null" => .ok (.scalar .unit, [])
  | .null => .ok (.scalar .any, [])
  | _ => .error .schema

/-- The form of a schema, and the trees of the schemas inside it. -/
def readForm (bounded : Bool) (read : Reading) (schema : Document) (nullable singleton : Bool) :
    Except ProblemKind (Form × List Tree) :=
  if schema.hasField "anyOf" || schema.hasField "not" then .error .schema
  else if schema.hasField "oneOf" then readUnion read schema
  else if schema.hasField "allOf" then
    if singleton then readOverride read schema else .error .schema
  else readTyped bounded read schema nullable

/-- The tree of a schema, given how the schemas inside it are read. A nullable schema is an alias
of the tree that it has without null. -/
def readWith (bounded : Bool) (read : Reading) : Reading :=
  fun schema placement => do
    let object ← readObject schema
    let singleton ← readSingleton (if schema.isObject then placement else none) object
    let (schema, nullable) ← readNullable object
    readTitle schema
    let (form, children) ← readForm bounded read schema nullable singleton
    let docs ← readText ((schema.find? "description").getD .null)
    let newtype := Newtype.ofExtension? ((schema.find? "x-newtype").getD .null)
    let pubTypedef := ((schema.find? "x-pub-typedef").getD .null).isTrue
    let tree := Tree.node { docs, newtype, pubTypedef } form children
    .ok (if nullable then .node { docs, nullable := true } .synonym [tree] else tree)

/-- The tree of a schema that is nested less deep than a bound. -/
def readNested (bounded : Bool) : Nat → Reading
  | 0 => fun _ _ => .error .malformed
  | bound + 1 => readWith bounded (readNested bounded bound)

/-- **The tree that a schema denotes**, or the family of the problem with it. -/
def treeOf (bounded : Bool) : Reading :=
  fun schema placement => readNested bounded (min (schema.depth + 1) maxNesting) schema placement

end TypedApi.Schema
