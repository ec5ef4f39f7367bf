import TypedApi.Operation.Signature
/-!
Converting a document.

The shared components come first, in the order schemas, parameters, request
bodies, responses, headers; then every operation; then the model is finished.
The first failure ends the conversion.
-/

set_option autoImplicit false

namespace TypedApi

open Build

/-- Options of a conversion. -/
structure ConversionOptions where
  /-- Whether integers with bounds become bounded kinds. -/
  boundedIntegers : Bool := true
  /-- Whether documentation is part of the rendered source. -/
  emitDocs : Bool := true
  /-- Whether external documentation is fetched. -/
  fetchExternalDocs : Bool := true
deriving DecidableEq, Repr, Inhabited

namespace Conversion

/-- The entries of one section of the components. -/
def section? (components : Document) (key : String) : Build (List (Document × Document)) := do
  require ((← field components key).orElse (.object [])).fields?

/-- Mark an item as part of the public interface. -/
def publish (r : Ref) : Build Unit :=
  modifyItem r fun item => { item with pubTypedef := true }

/-- Add a shared schema. An external reference becomes its scalar and any other an alias. -/
def addSchema (key schema : Document) : Build Ref := do
  let specName ← require key.text?
  let generatedName := Name.upperCamel specName
  let path := "#/components/schemas/" ++ specName
  let reference := Schema.referenceOf schema
  if reference.isNull then Schema.addInline specName generatedName (some path) schema
  else
    let target ← require reference.text?
    if WellKnown.isExternal target then
      let scalar := WellKnown.scalar target
      note (.external target specName scalar)
      addScalar specName generatedName (some path) scalar
    else
      let inner ← Schema.convert specName generatedName none schema
      let docs := (schema.find? "description").getD .null
      let docs ← textOrNull docs
      addItem { docs, specName, generatedName, shape := .synonym inner } (some path)

/-- Add a shared schema that everyone may use. -/
def insertSchema (entry : Document × Document) : Build Unit := do
  publish (← addSchema entry.1 entry.2)

/-- Add a shared parameter. -/
def insertParameter (entry : Document × Document) : Build Unit := do
  let path := "#/components/parameters/" ++ entry.1.display
  publish (← Operation.insertComponentParameter path entry.2)

/-- Add a shared request body; a reference shares the item of the other. -/
def insertBody (entry : Document × Document) : Build Unit := do
  let (key, body) := entry
  let path := "#/components/requestBodies/" ++ key.display
  let _ ← require body.fields?
  match body.find? "$ref" with
  | some reference => registerPath path (← namedBy reference)
  | none =>
    let r ← Operation.createBody (← require key.text?) (some path) body
    publish r
    modifyItem r (·.orDocs ((body.find? "description").getD .null))

/-- Lower a shared response and keep its variants; a reference keeps those of the other. -/
def insertResponse (document : Document) (entry : Document × Document) : Build Unit := do
  let (key, response) := entry
  let path := "#/components/responses/" ++ key.display
  let _ ← require response.fields?
  let variants ←
    match response.find? "$ref" with
    | some reference => Operation.cachedVariantsBy reference
    | none =>
      Operation.createVariants document (Name.upperCamel (← require key.text?)) response
  modifyModel fun m => { m with responseVariants := m.responseVariants.insert path variants }

/-- Add a shared header. -/
def insertHeader (document : Document) (entry : Document × Document) : Build Unit := do
  let _ ← Operation.insertComponentHeader document entry.1 entry.2

/-- Build and finish the model of a document. -/
def build (document : Document) : Build Unit := do
  let components := (← field document "components").orElse (.object [])
  let schemas ← section? components "schemas"
  schemas.forM insertSchema
  note (.lowered schemas.length)
  (← section? components "parameters").forM insertParameter
  (← section? components "requestBodies").forM insertBody
  (← section? components "responses").forM (insertResponse document)
  (← section? components "headers").forM (insertHeader document)
  Operation.insertAll document
  let m ← model
  note (.built m.operations.length m.size)
  finish

/-- The workbench that a conversion starts with. -/
def start (options : ConversionOptions) (docs : Option Docs.Fetcher) : Workbench :=
  { model := { boundedIntegers := options.boundedIntegers }
    docs := if options.fetchExternalDocs then docs else none }

/-- Convert a document: the model or the failure, and the workbench afterwards. -/
def run (document : Document) (options : ConversionOptions) (docs : Option Docs.Fetcher) :
    Except Failure Model × Workbench :=
  let (result, w) := (build document).run.run (start options docs)
  (result.map fun _ => w.model, w)

end Conversion

end TypedApi
