import TypedApi.Document.Pointer
import TypedApi.Schema.Lowering
/-!
Lowering parameters.

The entries that a path declares for all its operations come first, and an
operation's entry with the same name and location takes the place of an
earlier one. The type of a value comes from the parameter's schema or from the
schema of its only content type. A parameter that may be left out and whose
schema is a reference gets an alias that admits null.
-/

set_option autoImplicit false

namespace TypedApi.Operation

open Build

/-- The declared name of a parameter, empty when it has none. -/
def nameOf (param : Document) : Document :=
  (param.find? "name").getD (.text "")

/-- Where a parameter says its value is sent. -/
def locationOf (param : Document) : Document :=
  (param.find? "in").getD .null

/-- Whether a parameter is required; one in the path always is. -/
def isRequired (param : Document) : Bool :=
  ((param.find? "required").getD .null).holds || (locationOf param).isText "path"

/-- The only content type of a content map, and its media type object. -/
def singleContent (name content : Document) : Except Failure (Document × Document) := do
  let count ← orMalformed content.length?
  if count ≠ 1 then fail (.malformedContent name count)
  match content with
  | .object [(contentType, media)] => return (contentType, media.orElse (.object []))
  | _ => .error .malformed

/-- The content type and the schema of a parameter. -/
def parameterSchema (name param : Document) : Build (Document × Document) := do
  match param.find? "content" with
  | some content =>
    let (contentType, media) ← lift (singleContent name (content.orElse (.object [])))
    return (contentType, (← field media "schema").orElse (.object []))
  | none => return (.null, ((param.find? "schema").getD .null).orElse (.object []))

/-- The source name and the proposed name of an item made for a declared name. -/
def namesFor (name : Document) : Build (String × String) := do
  let specName ← require name.text?
  return (specName, Name.upperCamel specName)

/-- The item that a reference leads to: the scalar of an external one under the names given, or
that of a registered path. -/
def referredItem (names : Build (String × String)) (path : Document) : Build Ref := do
  let path ← require path.text?
  if WellKnown.isExternal path then
    let (specName, generatedName) ← names
    addScalar specName generatedName none (WellKnown.scalar path)
  else named path

/-- Lower a parameter and add its item, registering it under a path if one is given. -/
def insertParameter (path : Option String) (param : Document) : Build Ref := do
  let _ ← require param.fields?
  let name := nameOf param
  let location ← lift (Location.parse name (locationOf param))
  let (contentType, schema) ← parameterSchema name param
  let reference ← field schema "$ref"
  let description := (param.find? "description").getD .null
  let r ←
    if reference.isNull then
      let (specName, generatedName) ← namesFor name
      let r ← Schema.addInline specName generatedName none schema none contentType
      modifyItem r (·.orDocs description)
      pure r
    else
      let target ← referredItem (namesFor name) reference
      if isRequired param then pure target
      else
        let (specName, generatedName) ← namesFor name
        let docs ← textOrNull description
        addItem {
          docs
          specName
          generatedName
          nullable := true
          shape := .synonym target
          contentType := ← optionalText contentType }
  match path with
  | some p => registerPath p r
  | none => pure ()
  if location = .header then modifyItem r fun item => { item with implHeader := true }
  return r

/-- Add an entry of the shared parameters under its path. An entry that is a reference shares the
item of the other. -/
def insertComponentParameter (path : String) (param : Document) : Build Ref := do
  let _ ← require param.fields?
  match param.find? "$ref" with
  | some reference =>
    let r ← namedBy reference
    registerPath path r
    return r
  | none => insertParameter (some path) param

/-- The parameter object and the item of an entry, which may be a reference. -/
def convertParameter (document entry : Document) : Build (Document × Ref) := do
  let _ ← require entry.fields?
  match entry.find? "$ref" with
  | none => return (entry, ← insertParameter none entry)
  | some reference =>
    let param ← lift (document.followOrBlame entry)
    return (param, ← namedBy reference)

/-- The parameter for an object and its item. -/
def makeParameter (param : Document) (item : Ref) : Build Parameter := do
  let _ ← require param.fields?
  let specName ← require (nameOf param).text?
  return {
    generatedName := Name.escape (Name.snake specName)
    specName
    location := ← lift (Location.parse (nameOf param) (locationOf param))
    required := isRequired param
    item }

/-- What tells parameters apart: name and location, read through references. -/
def parameterKey (document entry : Document) : Except Failure (Document × Document) := do
  let param ← document.followOrBlame entry
  let _ ← orMalformed param.fields?
  let key := (nameOf param, (param.find? "in").getD (.text ""))
  if key.1.isKey && key.2.isKey then return key else .error .malformed

/-- Put an entry in the place of an earlier one with the same key, or at the end. -/
def putEntry (key : Document × Document) (entry : Document) :
    List ((Document × Document) × Document) → List ((Document × Document) × Document)
  | [] => [(key, entry)]
  | (k, e) :: rest =>
    if k.1.same key.1 && k.2.same key.2 then (k, entry) :: rest
    else (k, e) :: putEntry key entry rest

/-- The entries of a path and of an operation together. -/
def mergeParameters (document : Document) (pathEntries ownEntries : List Document) :
    Except Failure (List Document) := do
  let merged ← (pathEntries ++ ownEntries).foldlM (fun acc entry => do
    return putEntry (← parameterKey document entry) entry acc) []
  return merged.map Prod.snd

end TypedApi.Operation
