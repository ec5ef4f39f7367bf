import TypedApi.Operation.Parameters
/-!
Lowering the headers of responses.

A shared header is lowered when it is first needed, so a response may refer to
a header that is declared after it. The references between shared headers form
a chain, which is walked to its end first; the headers along it are then made
from the end back to the start.
-/

set_option autoImplicit false

namespace TypedApi.Operation

open Build

/-- What the paths of shared headers begin with. -/
def headersPrefix : String := "#/components/headers/"

/-- The schema of a header, null for none. An empty content map is taken for none. -/
def headerSchema (specName header : Document) : Build Document := do
  let content := (header.find? "content").getD .null
  if content.holds then
    let (_, media) ← lift (singleContent specName content)
    field media "schema"
  else return (header.find? "schema").getD .null

/-- Add the item of a header and mark it as one. A header without a schema carries an arbitrary
value; one whose schema is a reference uses that item if it is required, and an alias that admits
null if not. -/
def createHeader (specName : Document) (path : Option String) (header : Document) : Build Ref := do
  let name ← require specName.text?
  let generatedName ← deconflict (Name.upperCamel name)
  let _ ← require header.fields?
  let schema ← headerSchema specName header
  let description := (header.find? "description").getD .null
  let r ←
    if schema.isNull then addScalar name generatedName path .any
    else
      let isReference ← require (schema.mentions? "$ref")
      if isReference then
        let inner ← referredItem (pure (name, generatedName)) (← field schema "$ref")
        if ((header.find? "required").getD .null).holds then pure inner
        else
          let docs ← textOrNull description
          addItem {
            docs
            specName := name
            generatedName
            nullable := true
            shape := .synonym inner } path
      else
        let r ← Schema.addInline name generatedName path schema
        modifyItem r (·.orDocs description)
        pure r
  match path with
  | some p => registerPath p r
  | none => pure ()
  modifyItem r fun item => { item with implHeader := true }
  return r

/-- The name of a shared header by its path. -/
def headerName? (path : String) : Option String :=
  if headersPrefix.toList.isPrefixOf path.toList then
    some (String.ofList (path.toList.drop headersPrefix.length))
  else none

/-- Add a shared header that is no reference. -/
def createShared (specName : Document) (path : String) (header : Document) : Build Ref := do
  let r ← createHeader specName (some path) header
  modifyItem r fun item => { item with pubTypedef := true }
  return r

/-- The item at the start of a chain of references between shared headers. Each link is registered
once its item is there. -/
def headerAlong : List Document.Link → Build Ref
  | [] => throw .malformed
  | link :: rest => do
    let path := link.reference
    match (← model).namedReferences.get? path with
    | some index => return .back index
    | none =>
      match headerName? path with
      | none => problem (.unknownReference path)
      | some name =>
        if rest.isEmpty then createShared (.text name) path link.target
        else
          let r ← headerAlong rest
          registerPath path r
          return r

/-- The item of a header that is a reference: that of the registered path, or made now. -/
def referredHeader (document : Document) (reference header : Document) : Build Ref := do
  match reference with
  | .text path =>
    match (← model).namedReferences.get? path with
    | some index => return .back index
    | none =>
      if (headerName? path).isNone then problem (.unknownReference path)
      let links ← lift (Document.blameReference path (document.chain header))
      headerAlong links
  | _ => throw .malformed

/-- The item of a header of a response, which may be a reference. -/
def convertHeader (document specName header : Document) : Build Ref := do
  let reference ← field header "$ref"
  if reference.isNull then createHeader specName none header
  else referredHeader document reference header

/-- Add a shared header under its path, unless it is there already. -/
def insertComponentHeader (document specName header : Document) : Build Ref := do
  let path := headersPrefix ++ specName.display
  match (← model).namedReferences.get? path with
  | some index => return .back index
  | none =>
    let isReference ← require (header.mentions? "$ref")
    if isReference then
      let r ← convertHeader document specName header
      registerPath path r
      return r
    else createShared specName path header

end TypedApi.Operation
