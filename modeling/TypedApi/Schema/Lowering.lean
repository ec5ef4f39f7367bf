import TypedApi.Graph.Build
import TypedApi.Schema.Bounds
import TypedApi.Schema.Scalar
/-!
Lowering schemas to items.

A schema becomes one item. The schemas inside it (elements of arrays, values
of maps, properties, alternatives) are lowered and added first, so that every
item stands before whatever refers to it; a reference to a path becomes a back
reference when the path is registered already and a forward reference when it
is not.

The lowering of a schema is written over the lowering of the schemas inside
it. `lowerNested` ties the two together for a given depth of nesting, and
`lower` takes the depth of the schema itself, which the schemas inside it
cannot exceed, up to the depth from which on a schema counts as malformed.
-/

set_option autoImplicit false

namespace TypedApi.Schema

open Build

/-- Where a property's schema stands: the `required` keyword of its object, its name, and whether
it is the very schema that the object declares for that name. -/
structure Placement where
  required : Document
  property : String
  declared : Bool := true

/-- A way to lower schemas: the source name, the proposed name, the schema, its place if it is a
property, and the content type that it describes. -/
abbrev Lower := String → String → Document → Option Placement → Document → Build Item

/-! ## References and inline schemas -/

/-- Lower a schema and add the item. -/
def addInlineWith (lower : Lower) (specName generatedName : String) (path : Option String)
    (schema : Document) (placement : Option Placement) (contentType : Document) : Build Ref := do
  addItem (← lower specName generatedName schema placement contentType) path

/-- The path that a schema refers to, if it is a reference; null counts as none. -/
def referenceOf (schema : Document) : Document :=
  (schema.find? "$ref").getD .null

/-- A reference for a schema that may be one itself: a registered path gives a back reference, a
well-known external one its scalar, any other a forward reference. -/
def convertWith (lower : Lower) (specName generatedName : String) (path : Option String)
    (schema : Document) (placement : Option Placement) : Build Ref := do
  let reference := referenceOf schema
  if reference.isNull then addInlineWith lower specName generatedName path schema placement .null
  else
    let target ← require reference.text?
    match (← model).namedReferences.get? target with
    | some index => return .back index
    | none =>
      match if WellKnown.isExternal target then WellKnown.find? target else none with
      | some scalar => addScalar specName generatedName path scalar
      | none => return .forward target

/-! ## The keywords -/

/-- The object form of a schema: true admits everything and stands for the empty object, false
admits nothing and has no item. A schema inside itself would be lowered without end. -/
def schemaObject (specName : String) (schema : Document) : Build Document :=
  match schema with
  | .object fields => return .object fields
  | .bool true => return .object []
  | .bool false => problem (.schema .falseSchema (some specName))
  | .loop true => throw .malformed
  | d => problem (.schema (.notSchema d) (some specName))

/-- Whether a schema is an optional property that is nothing but one reference inside an `allOf`,
which makes it an override of what it refers to. -/
def isSingleton (placement : Option Placement) (schema : Document) : Build Bool := do
  match placement with
  | none => return false
  | some p =>
    if !p.declared then return false
    let required := p.required.orElse (.array [])
    if ← require (required.mentions? p.property) then return false
    match schema.find? "allOf" with
    | some (.array [entry]) => return entry.hasField "$ref"
    | _ => return false

/-- A schema with at most one type, and whether null is admitted besides. A list of types may name
one type and null. -/
def normalize (schema : Document) : Build (Document × Bool) := do
  let nullable := ((schema.find? "nullable").getD .null).isTrue
  match schema.find? "type" with
  | some (.array types) =>
    let others := types.filter fun t => !t.isText "null"
    match others with
    | [] => return (schema.withField "type" (.text "null"), nullable || others.length ≠ types.length)
    | [t] => return (schema.withField "type" t, nullable || others.length ≠ types.length)
    | _ => problem (.schema (.severalTypes others) none)
  | _ => return (schema, nullable)

/-- The members that a schema enumerates, closed or extensible. -/
def enumerated (schema : Document) : Document :=
  ((schema.find? "enum").getD .null).orElse ((schema.find? "x-extensible-enum").getD .null)

/-- The type that a schema without one has by its other keywords. -/
def inferType (schema : Document) : Document :=
  if schema.hasField "properties" || schema.hasField "additionalProperties" then .text "object"
  else if schema.hasField "items" then .text "array"
  else
    match enumerated schema with
    | .array (m :: ms) =>
      if (m :: ms).all fun d => d.isNull || d.text?.isSome then .text "string" else .null
    | _ => .null

/-- The documentation of a schema: what its external documentation says when that is fetched, else
its description. -/
def documentation (specName : String) (schema : Document) : Build Document := do
  let url := (((schema.find? "externalDocs").getD .null).find? "url").getD .null
  match url.holds, (← get).docs with
  | true, some fetcher =>
    return .text (← fetchDocs fetcher (← require url.text?) (some specName))
  | _, _ => return (schema.find? "description").getD .null

/-! ## Texts -/

/-- The texts of an enumeration. Where null is admitted, a member that is null or spells it is
left out. -/
def enumMembers (keyword : String) (nullable : Bool) : Document → Except ShapeProblem (List String)
  | .array values =>
    let kept := if nullable then values.filter fun v => !(v.isNull || v.isText "null") else values
    kept.mapM fun v =>
      match v with
      | .text s => .ok s
      | v => .error (.memberNotText keyword v)
  | _ => .error (.membersNotArray keyword)

/-- The shape of a text schema up to its format: the enumeration, or nothing if the format
decides. -/
def enumeration (schema : Document) (nullable : Bool) : Except ShapeProblem (Option Shape) := do
  let closed := ((schema.find? "enum").getD .null).orElse (.array [])
  let extensible := ((schema.find? "x-extensible-enum").getD .null).orElse (.array [])
  if closed.holds && extensible.holds then throw .closedAndExtensible
  let variants ←
    if extensible.holds then enumMembers "x-extensible-enum" nullable extensible
    else enumMembers "enum" nullable closed
  let format := (schema.find? "format").getD .null
  if format.holds && !variants.isEmpty then throw .formatAndMembers
  if variants.isEmpty then return none else return some (.stringEnum variants extensible.holds)

/-- A problem with a shape, blamed on the item being made. -/
def blame {α : Type} (generatedName : String) (e : Except ShapeProblem α) : Build α :=
  match e with
  | .ok a => pure a
  | .error p =>
    throw ⟨.shape p (some generatedName), some (.problem (.shape p none))⟩

/-- The shape of a text schema. -/
def stringShape (generatedName : String) (schema : Document) (nullable : Bool) : Build Shape := do
  match ← blame generatedName (enumeration schema nullable) with
  | some shape => return shape
  | none => return .scalar (← require (Scalar.ofFormat? ((schema.find? "format").getD .null)))

/-! ## Containers -/

/-- The shape of an array schema. Elements without a schema are arbitrary. -/
def arrayShape (lower : Lower) (specName generatedName : String) (schema : Document) :
    Build Shape := do
  let itemName := generatedName ++ "Item"
  let items := (schema.find? "items").getD .null
  let item ←
    if items.isNull then addScalar specName itemName none .any
    else convertWith lower specName itemName none items none
  if ((schema.find? "uniqueItems").getD .null).holds then return .set item else return .list item

/-- The values of a `required` keyword, which must be scalars. -/
def requiredNames (schema : Document) : Build (List Document) := do
  let names ← require (((schema.find? "required").getD .null).orElse (.array [])).elements?
  if names.all Document.isKey then return names else throw .malformed

/-- The member for one property. The first property of a name keeps the bare name; a later one is
qualified with the name of the object. Access flags are read from inline schemas only. -/
def memberOf (lower : Lower) (generatedName : String) (schema : Document) (required : List Document)
    (property : Document × Document) : Build (String × Member) := do
  let (key, declared) := property
  let inline := declared.isObject && !declared.hasField "$ref"
  let flag := fun keyword => inline && ((declared.find? keyword).getD .null).holds
  let name ← require key.text?
  let bare := Name.upperCamel name
  let qualified := if (← model).identExists bare then generatedName ++ bare else bare
  let ident ← deconflict qualified
  let definition ← convertWith lower name ident none declared
    (some ⟨(schema.find? "required").getD .null, name, true⟩)
  return (name,
    { definition
      readOnly := flag "readOnly"
      writeOnly := flag "writeOnly"
      inlineOption := !(required.any fun r => r.isText name) })

/-- The shape of an object schema: a map if it has a schema for all further fields, else an object
with the properties as members. -/
def objectShape (lower : Lower) (specName generatedName : String) (schema : Document) :
    Build Shape := do
  let properties := ((schema.find? "properties").getD .null).orElse (.object [])
  let additional :=
    match (schema.find? "additionalProperties").getD .null with
    | .bool false => Document.null
    | d => d
  if properties.holds && !additional.isNull then
    problem (.shape .propertiesAndAdditional (some generatedName))
  match additional with
  | .null =>
    let required ← requiredNames schema
    let members ← (← require properties.fields?).mapM (memberOf lower generatedName schema required)
    return .object members
  | .bool true => return .map none
  | .object [] => return .map none
  | .object (f :: fs) =>
    let value ←
      convertWith lower specName (generatedName ++ "Item") none (.object (f :: fs)) none
    return .map (some value)
  | d => problem (.shape (.additionalProperties d) (some generatedName))

/-! ## Unions -/

/-- The first key of a mapping whose value is the reference. -/
def mappingKey (mapping reference : Document) : Build Document := do
  let fields ← require mapping.fields?
  return ((fields.find? fun p => p.2.same reference).map Prod.fst).getD .null

/-- The variant for one alternative. Only references take part in the mapping. -/
def variantOf (lower : Lower) (specName generatedName : String) (mapping alternative : Document) :
    Build Variant := do
  let reference := referenceOf alternative
  let key ← if reference.isNull then pure .null else mappingKey mapping reference
  let definition ← convertWith lower specName generatedName none alternative none
  return { definition, mappingName := ← optionalText key }

/-- The shape of a union. -/
def oneOfShape (lower : Lower) (specName generatedName : String) (schema : Document) :
    Build Shape := do
  let discriminator := ((schema.find? "discriminator").getD .null).orElse (.object [])
  let discriminant ← field discriminator "propertyName"
  let mapping := (← field discriminator "mapping").orElse (.object [])
  let alternatives ← require ((schema.find? "oneOf").getD .null).elements?
  let variants ← alternatives.mapM (variantOf lower specName generatedName mapping)
  return .oneOf (← optionalText discriminant) variants

/-- The shape of an override of the one reference in an `allOf`. -/
def overrideShape (lower : Lower) (specName generatedName : String) (schema : Document) :
    Build Shape := do
  let entry ←
    match schema.find? "allOf" with
    | some (.array (e :: _)) => pure e
    | _ => throw .malformed
  let target ← convertWith lower specName generatedName none entry none
  let flag := fun keyword => ((schema.find? keyword).getD .null).holds
  let title ← optionalText ((schema.find? "title").getD .null)
  let description ← optionalText ((schema.find? "description").getD .null)
  return .override (flag "readOnly") (flag "writeOnly") title description target

/-! ## Dispatch -/

/-- The shape of a schema that is neither a union nor an override, by its type. -/
def typedShape (lower : Lower) (specName generatedName : String) (schema : Document)
    (nullable : Bool) : Build Shape := do
  match ((schema.find? "type").getD .null).orElse (inferType schema) with
  | .text "boolean" => return .scalar .bool
  | .text "number" => return .scalar (← blame generatedName (Scalar.ofNumber schema))
  | .text "integer" =>
    let reading ← blame generatedName (Scalar.ofInteger schema (← model).boundedIntegers)
    if reading.ignoredExclusive then note .ignoredExclusive
    return .scalar reading.scalar
  | .text "string" => stringShape generatedName schema nullable
  | .text "array" => arrayShape lower specName generatedName schema
  | .text "object" => objectShape lower specName generatedName schema
  | .text "null" => return .scalar .unit
  | .null => return .scalar .any
  | d => problem (.schema (.unknownType d) (some specName))

/-- The shape of a schema. -/
def shapeOf (lower : Lower) (specName generatedName : String) (schema : Document)
    (nullable singleton : Bool) : Build Shape := do
  if schema.hasField "anyOf" || schema.hasField "not" then
    problem (.schema .anyOfOrNot (some specName))
  else if schema.hasField "oneOf" then oneOfShape lower specName generatedName schema
  else if schema.hasField "allOf" then
    if singleton then overrideShape lower specName generatedName schema
    else problem (.schema .notSingleton (some specName))
  else typedShape lower specName generatedName schema nullable

/-- The names for a schema: its title gives both when there is one. -/
def titled (specName generatedName : String) (schema : Document) : Build (String × String) := do
  let title := (schema.find? "title").getD .null
  if title.holds then
    let name ← require title.text?
    return (name, ← deconflict (Name.upperCamel name))
  else return (specName, generatedName)

/-- The alias that adds null to an item that has been made: the item is added, and the alias
refers to it. -/
def wrapNullable (item : Item) : Build Item := do
  let inner ← addItem item
  let innerName ← lift ((← model).nameOf inner)
  return {
    docs := item.docs
    specName := item.specName
    generatedName := ← deconflict ("Maybe" ++ innerName)
    innerName := some innerName
    nullable := true
    shape := .synonym inner
    contentType := item.contentType }

/-- Lower a schema, given how the schemas inside it are lowered. The item itself is not added,
except that a nullable schema adds the item without null and gives the alias that admits it. -/
def lowerWith (lower : Lower) : Lower :=
  fun specName generatedName schema placement contentType => do
    let object ← schemaObject specName schema
    let singleton ← isSingleton (if schema.isObject then placement else none) object
    let schema := object
    let (schema, nullable) ← normalize schema
    let (specName, generatedName) ← titled specName generatedName schema
    let shape ← shapeOf lower specName generatedName schema nullable singleton
    let docs ← documentation specName schema
    let docs ← textOrNull docs
    let item : Item := {
      docs
      specName
      generatedName
      newtype := Newtype.ofExtension? ((schema.find? "x-newtype").getD .null)
      pubTypedef := ((schema.find? "x-pub-typedef").getD .null).isTrue
      shape
      contentType := ← optionalText contentType }
    if nullable then wrapNullable item else return item

/-- Lower a schema that is nested less deep than a bound. -/
def lowerNested : Nat → Lower
  | 0 => fun _ _ _ _ _ => throw .malformed
  | bound + 1 => lowerWith (lowerNested bound)

/-- How many schemas may be nested inside each other. -/
def maxNesting : Nat := 195

/-- Lower a schema. -/
def lower : Lower :=
  fun specName generatedName schema placement contentType =>
    lowerNested (min (schema.depth + 1) maxNesting) specName generatedName schema placement
      contentType

/-- Lower a schema and add the item. -/
def addInline (specName generatedName : String) (path : Option String) (schema : Document)
    (placement : Option Placement := none) (contentType : Document := .null) : Build Ref :=
  addInlineWith lower specName generatedName path schema placement contentType

/-- A reference for a schema that may be one itself. -/
def convert (specName generatedName : String) (path : Option String) (schema : Document)
    (placement : Option Placement := none) : Build Ref :=
  convertWith lower specName generatedName path schema placement

end TypedApi.Schema
