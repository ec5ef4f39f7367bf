import TypedApi.Operation.Bodies
import TypedApi.Operation.Responses
/-!
Lowering operations.

The parameters of an operation are sorted by location: those in the path and
in the query become the members of one object each, and headers stay by
themselves. When some status offers several content types and no header for it
is declared, an optional `Accept` header is put in front; its item is shared
by all operations.
-/

set_option autoImplicit false

namespace TypedApi.Operation

open Build

/-- The name of an item made for an operation: after its identifier, or after its method and
path. -/
def specNameFor (operationId : Option String) (suffix : String) (verb : Verb) (path : String) :
    String :=
  match given? operationId with
  | some i => Name.upperCamel i ++ suffix
  | none => Name.upperCamel verb.text ++ Name.upperCamel path ++ suffix

/-- The name of an item made for an operation whose identifier and path are not checked yet. -/
def specNameOf (operationId : Document) (suffix : String) (verb : Verb) (path : Document) :
    Build String := do
  if operationId.holds then return specNameFor (some (← require operationId.text?)) suffix verb ""
  else return specNameFor none suffix verb (← require path.text?)

/-- The parameter for the implicit header; its item is made on first use. -/
def acceptParameter : Build Parameter := do
  let item ←
    match (← model).acceptHeader with
    | some r => pure r
    | none => do
      let r ← addItem {
        specName := "Accept"
        generatedName := "Accept"
        shape := .scalar .acceptHeader
        implHeader := true }
      modifyModel fun m => { m with acceptHeader := some r }
      pure r
  return { generatedName := "accept", specName := "Accept", location := .header, item }

/-- The object with one member for each parameter of a location, unless there is none. -/
def combine (kind specName label : String) (members : Table Member) : Build (Option Ref) := do
  if members.isEmpty then return none
  else
    return some (← addItem {
      docs := .text ("Combination item for " ++ kind ++ " parameters of `" ++ label ++ "`")
      specName
      generatedName := Name.upperCamel specName
      shape := .object members })

/-- The member that stands for a parameter. -/
def parameterMember (p : Parameter) : Member :=
  { definition := p.item, inlineOption := !p.required }

/-- The members for the parameters of a location. -/
def membersAt (location : Location) (parameters : List Parameter) : Table Member :=
  (parameters.filter (·.location = location)).foldl
    (fun t p => t.insert p.specName (parameterMember p)) []

/-- The header parameters by their declared names. -/
def headerTable (parameters : List Parameter) : Table Parameter :=
  (parameters.filter (·.location = .header)).foldl (fun t p => t.insert p.specName p) []

/-- Whether one of the headers is the one for content types. -/
def declaresAccept (headers : Table Parameter) : Bool :=
  headers.keys.any fun name => Text.lowerAscii name = "accept"

/-- Whether some response has several content types, looking no further than the first. -/
def anySeveral (document : Document) (responses : Document) : Build Bool := do
  let fields ← require responses.fields?
  lift (fields.anyM fun p => hasSeveralContentTypes document p.2)

/-- The documentation of an operation: what its external documentation says when that is fetched,
else its description, else its summary. -/
def documentation (operation : Document) : Build Document := do
  let url := (((operation.find? "externalDocs").getD .null).find? "url").getD .null
  match url.holds, (← get).docs with
  | true, some fetcher =>
    let name := ((operation.find? "operationId").getD .null).text?
    return .text (← fetchDocs fetcher (← require url.text?) name)
  | _, _ =>
    return ((operation.find? "description").getD .null).orElse
      ((operation.find? "summary").getD .null)

/-- The item of an operation's request body, if it has one that is kept. -/
def bodyOf (verb : Verb) (path operationId operation : Document) : Build (Option Ref) := do
  let body := (operation.find? "requestBody").getD .null
  if body.isNull || !verb.admitsBody then return none
  else
    let _ ← require body.fields?
    if body.hasField "$ref" then return some (← referredBody body)
    else return some (← createBody (← specNameOf operationId "Request" verb path) none body)

/-- The parameters of an operation, merged with those of its path. -/
def parametersOf (document pathItem operation : Document) : Build (List Parameter) := do
  let entriesOf := fun (d : Document) => do
    require ((← field d "parameters").orElse (.array [])).elements?
  let pathEntries ← entriesOf pathItem
  let ownEntries ← entriesOf operation
  let merged ← lift (mergeParameters document pathEntries ownEntries)
  merged.mapM fun entry => do
    let (param, item) ← convertParameter document entry
    makeParameter param item

/-- Lower an operation, adding every item that it needs. -/
def create (document path : Document) (verb : Verb) (pathItem operation : Document) :
    Build Operation := do
  let operationId ← field operation "operationId"
  let label := if operationId.holds then operationId.display else verb.text ++ " " ++ path.display
  let declared ← parametersOf document pathItem operation
  let responses := ((operation.find? "responses").getD .null).orElse (.object [])
  let declaredHeaders := headerTable declared
  let implicit ←
    if declaresAccept declaredHeaders then pure false else anySeveral document responses
  let accept ← if implicit then (do return [← acceptParameter]) else pure []
  let pathName ← specNameOf operationId "PathParameters" verb path
  let pathParameters ← combine "path" pathName label (membersAt .path declared)
  let queryName ← specNameOf operationId "QueryParameters" verb path
  let queryParameters ← combine "query" queryName label (membersAt .query declared)
  let requestBody ← bodyOf verb path operationId operation
  let response ←
    createResponses document (← specNameOf operationId "Response" verb path) responses
  let pathDocs := (← field pathItem "description").orElse (← field pathItem "summary")
  let docs ← documentation operation
  return {
    path := ← require path.asText?
    verb
    pathDocs := ← optionalText pathDocs
    docs := ← optionalText docs
    operationId := ← optionalText operationId
    pathParameters
    queryParameters
    headers := accept.map (fun p => (p.specName, p)) ++ declaredHeaders
    parameters := accept ++ declared
    requestBody
    response }

/-- The keys of a path that are no operations. -/
def pathKeywords : List String :=
  ["$ref", "summary", "description", "servers", "parameters"]

/-- Lower what stands under one key of a path, and add it if it is an operation. -/
def insertKey (document path pathItem : Document) (entry : Document × Document) : Build Unit := do
  let key ← require entry.1.text?
  if pathKeywords.contains key || "x-".toList.isPrefixOf key.toList then return ()
  else
    let verb ← lift (Verb.parse key)
    let operation ← create document path verb pathItem entry.2
    modifyModel fun m => { m with operations := m.operations ++ [operation] }

/-- Lower the operations of one path. -/
def insertPath (document : Document) (entry : Document × Document) : Build Unit := do
  let pathItem ← lift (document.followOrBlame entry.2)
  (← require pathItem.fields?).forM (insertKey document entry.1 pathItem)

/-- Lower all operations of a document, in order. -/
def insertAll (document : Document) : Build Unit := do
  let paths ← require ((← field document "paths").orElse (.object [])).fields?
  paths.forM (insertPath document)

end TypedApi.Operation
