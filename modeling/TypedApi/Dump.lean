import TypedApi.Document.Json.Plain
import TypedApi.Graph.Model
/-!
Models as documents, for inspection.

Every part of a model has one form as a document, with all of its fields in a
fixed order and null for what is missing.
-/

set_option autoImplicit false

namespace TypedApi

namespace Document

/-- An object with texts as keys. -/
def record (fields : List (String × Document)) : Document :=
  .object (fields.map fun p => (.text p.1, p.2))

/-- A text, or null for none. -/
def ofText? : Option String → Document
  | some s => .text s
  | none => .null

end Document

open Document (record ofText?)

/-- A reference as a document. -/
def Ref.dump : Ref → Document
  | .resolved index => record [("kind", .text "reference"), ("index", .int index)]
  | .back index => record [("kind", .text "back"), ("index", .int index)]
  | .forward path => record [("kind", .text "forward"), ("path", .text path)]

/-- An optional reference as a document. -/
def Ref.dumpOptional : Option Ref → Document
  | some r => r.dump
  | none => .null

/-- A scalar as a document. -/
def Scalar.dump (s : Scalar) : Document :=
  let bound := fun (b : Option Int) =>
    match b with
    | some n => Document.int n
    | none => Document.null
  record [
    ("kind", .text s.kindName),
    ("minimum", bound (s.range?.bind Prod.fst)),
    ("maximum", bound (s.range?.bind Prod.snd))]

/-- The display name of a variant as a document. -/
def VariantName.dump : VariantName → Document
  | .unnamed => record [("state", .text "unnamed")]
  | .named value => record [("state", .text "named"), ("value", .text value)]

/-- A variant as a document. -/
def Variant.dump (v : Variant) : Document :=
  record [
    ("definition", v.definition.dump),
    ("mapping_name", ofText? v.mappingName),
    ("status_code", ofText? v.statusCode),
    ("name", v.name.dump)]

/-- A member as a document. -/
def Member.dump (m : Member) : Document :=
  record [
    ("definition", m.definition.dump),
    ("read_only", .bool m.readOnly),
    ("write_only", .bool m.writeOnly),
    ("inline_option", .bool m.inlineOption)]

/-- The fields of a shape besides its kind. -/
def Shape.dumpFields : Shape → List (String × Document)
  | .scalar s => [("scalar", s.dump)]
  | .list item => [("item", item.dump)]
  | .set item => [("item", item.dump)]
  | .map value => [("value_type", Ref.dumpOptional value)]
  | .object members => [("members", record (members.mapValues Member.dump))]
  | .stringEnum variants extensible =>
    [("variants", .array (variants.map .text)), ("extensible", .bool extensible)]
  | .oneOf discriminant variants =>
    [("discriminant", ofText? discriminant), ("variants", .array (variants.map Variant.dump))]
  | .synonym target => [("target", target.dump)]
  | .override readOnly writeOnly title description target =>
    [("read_only", .bool readOnly), ("write_only", .bool writeOnly), ("title", ofText? title),
     ("description", ofText? description), ("target", target.dump)]

/-- A shape as a document. -/
def Shape.dump (s : Shape) : Document :=
  record (("kind", .text s.kindName) :: s.dumpFields)

/-- The options of a wrapper as a document. -/
def Newtype.dump (n : Newtype) : Document :=
  record [
    ("from_", .bool n.from_),
    ("into", .bool n.into),
    ("deref", .bool n.deref),
    ("deref_mut", .bool n.derefMut),
    ("pub", .bool n.pub)]

/-- An item as a document. -/
def Item.dump (i : Item) : Document :=
  record [
    ("docs", i.docs),
    ("spec_name", .text i.specName),
    ("generated_name", .text i.generatedName),
    ("inner_name", ofText? i.innerName),
    ("newtype", (i.newtype.map Newtype.dump).getD .null),
    ("pub_typedef", .bool i.pubTypedef),
    ("nullable", .bool i.nullable),
    ("value", i.shape.dump),
    ("content_type", ofText? i.contentType),
    ("impl_header", .bool i.implHeader)]

/-- A parameter as a document. -/
def Parameter.dump (p : Parameter) : Document :=
  record [
    ("generated_name", .text p.generatedName),
    ("spec_name", .text p.specName),
    ("location", .text p.location.text),
    ("required", .bool p.required),
    ("item_ref", p.item.dump)]

/-- An operation as a document. -/
def Operation.dump (o : Operation) : Document :=
  record [
    ("path", .text o.path),
    ("verb", .text o.verb.text),
    ("endpoint_documentation", ofText? o.pathDocs),
    ("operation_documentation", ofText? o.docs),
    ("operation_id", ofText? o.operationId),
    ("path_parameters", Ref.dumpOptional o.pathParameters),
    ("query_parameters", Ref.dumpOptional o.queryParameters),
    ("headers", record (o.headers.mapValues Parameter.dump)),
    ("parameters", .array (o.parameters.map Parameter.dump)),
    ("request_body", Ref.dumpOptional o.requestBody),
    ("response", o.response.dump)]

/-- An item as it can be written in JSON. Its documentation may be a value that cannot. -/
def Item.plain? (i : Item) : Option Document :=
  Document.Json.plain? i.dump

/-- A model as a document. -/
def Model.dump (m : Model) : Document :=
  record [
    ("definitions", .array (m.definitions.map Item.dump)),
    ("items", record (m.items.mapValues fun (n : Nat) => .int n)),
    ("named_references", record (m.namedReferences.mapValues .int)),
    ("endpoints", .array (m.operations.map Operation.dump))]

/-- A model as it can be written in JSON. -/
def Model.plain? (m : Model) : Option Document :=
  Document.Json.plain? m.dump

end TypedApi
