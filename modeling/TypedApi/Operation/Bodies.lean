import TypedApi.Operation.Parameters
/-!
Lowering request bodies.

A body with one content type, or with several that share one reference as
their schema, has the type of that schema. With several different ones it
becomes a union without a discriminating field, one variant for each content
type; the variants are told apart by the names of their items.
-/

set_option autoImplicit false

namespace TypedApi.Operation

open Build

/-- The item for the schema of a media type, not added yet. Without a schema it is an arbitrary
value, an external reference is a scalar, and any other reference a public alias. -/
def mediaItem (specName generatedName : String) (schema contentType : Document) : Build Item := do
  let reference := Schema.referenceOf schema
  if schema.isNull then
    return {
      specName
      generatedName
      pubTypedef := true
      contentType := ← optionalText contentType }
  else if reference.isNull then
    Schema.lower specName generatedName schema none contentType
  else
    let path ← require reference.text?
    if WellKnown.isExternal path then
      return {
        specName
        generatedName
        shape := .scalar (WellKnown.scalar path)
        contentType := ← optionalText contentType }
    else
      let target ← Schema.convert specName generatedName none schema
      return {
        specName
        generatedName
        pubTypedef := true
        shape := .synonym target
        contentType := ← optionalText contentType }

/-- The schema of a media type object, null for none. -/
def mediaSchema (media : Document) : Build Document :=
  field (media.orElse (.object [])) "schema"

/-- Whether all media types have the same reference as their schema. -/
def sharesReference (content : List (Document × Document)) : Build Bool := do
  let references ← content.mapM fun p => do
    let reference := Schema.referenceOf (← mediaSchema p.2)
    if reference.isKey then return reference else throw .malformed
  match references with
  | first :: rest => return rest.all (first.same ·) && !first.isNull
  | [] => return false

/-- Whether a body may be left out, noted on an item that does not wrap another for it. -/
def markOptional (required : Bool) (item : Item) : Item :=
  if item.innerName.isNone then { item with nullable := !required } else item

/-- The variant for one content type of a body with several; its item is added. -/
def bodyVariant (required : Bool) (entry : Document × Document) : Build Variant := do
  let specName ← require entry.1.text?
  let name := Name.escape (Name.upperCamel specName)
  let item ← mediaItem specName name (← mediaSchema entry.2) entry.1
  return { definition := ← addItem (markOptional required item) }

/-- The item of a body, not added yet. -/
def bodyItem (specName : String) (required : Bool) (content : List (Document × Document)) :
    Build Item := do
  let generatedName := Name.upperCamel specName
  match content with
  | [] => mediaItem specName generatedName .null .null
  | [(contentType, media)] =>
    mediaItem specName generatedName (← mediaSchema media) contentType
  | (_, media) :: _ =>
    if ← sharesReference content then
      mediaItem specName generatedName (← mediaSchema media) .null
    else
      let variants ← content.mapM (bodyVariant required)
      return { specName, generatedName, shape := .oneOf none variants }

/-- Lower a request body and add its item. -/
def createBody (specName : String) (path : Option String) (body : Document) : Build Ref := do
  let content ← require ((← field body "content").orElse (.object [])).fields?
  let required := ((body.find? "required").getD .null).holds
  let item ← bodyItem specName required content
  let description := (body.find? "description").getD .null
  let documented := if content.length ≤ 1 then item.orDocs description else item
  addItem (markOptional required documented) path

/-- The item of a shared request body. -/
def referredBody (body : Document) : Build Ref := do
  namedBy (← field body "$ref")

end TypedApi.Operation
