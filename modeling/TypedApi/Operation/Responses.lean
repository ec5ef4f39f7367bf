import TypedApi.Failure
import TypedApi.Operation.Headers
import TypedApi.Text.Digit
/-!
Lowering responses.

All responses of an operation become one union without a discriminating
field. A status contributes one variant for each content type, or a single
empty one. A response with headers of its own is wrapped in an object that
holds them and the payload as `body`. Shared responses are lowered once and
their variants used again by every operation.
-/

set_option autoImplicit false

namespace TypedApi.Operation

/-! # The names of response statuses

A status is a code, a range such as `4XX`, or the word `default`. A code is
named by its standard phrase, a range by its bucket.
-/

/-- The standard phrases of status codes. -/
def phrases : List (Nat × String) :=
  [(100, "Continue"), (101, "Switching Protocols"), (102, "Processing"), (103, "Early Hints"),
   (200, "OK"), (201, "Created"), (202, "Accepted"), (203, "Non-Authoritative Information"),
   (204, "No Content"), (205, "Reset Content"), (206, "Partial Content"), (207, "Multi-Status"),
   (208, "Already Reported"), (226, "IM Used"), (300, "Multiple Choices"),
   (301, "Moved Permanently"), (302, "Found"), (303, "See Other"), (304, "Not Modified"),
   (305, "Use Proxy"), (307, "Temporary Redirect"), (308, "Permanent Redirect"),
   (400, "Bad Request"), (401, "Unauthorized"), (402, "Payment Required"), (403, "Forbidden"),
   (404, "Not Found"), (405, "Method Not Allowed"), (406, "Not Acceptable"),
   (407, "Proxy Authentication Required"), (408, "Request Timeout"), (409, "Conflict"),
   (410, "Gone"), (411, "Length Required"), (412, "Precondition Failed"),
   (413, "Request Entity Too Large"), (414, "Request-URI Too Long"),
   (415, "Unsupported Media Type"), (416, "Requested Range Not Satisfiable"),
   (417, "Expectation Failed"), (418, "I'm a Teapot"), (421, "Misdirected Request"),
   (422, "Unprocessable Entity"), (423, "Locked"), (424, "Failed Dependency"), (425, "Too Early"),
   (426, "Upgrade Required"), (428, "Precondition Required"), (429, "Too Many Requests"),
   (431, "Request Header Fields Too Large"), (451, "Unavailable For Legal Reasons"),
   (500, "Internal Server Error"), (501, "Not Implemented"), (502, "Bad Gateway"),
   (503, "Service Unavailable"), (504, "Gateway Timeout"), (505, "HTTP Version Not Supported"),
   (506, "Variant Also Negotiates"), (507, "Insufficient Storage"), (508, "Loop Detected"),
   (510, "Not Extended"), (511, "Network Authentication Required")]

/-- The name of a status code. -/
def codeName (code : Nat) : String :=
  match phrases.find? fun p => p.1 = code with
  | some p => p.2
  | none => "status code " ++ toString code

/-- The name of the range of status codes with a first digit. -/
def rangeName (digit : Char) : String :=
  match digit with
  | '1' => "informational range"
  | '2' => "success range"
  | '3' => "redirection range"
  | '4' => "client error range"
  | '5' => "server error range"
  | d => "status range " ++ String.ofList [d] ++ "xx"

/-- The digit of a range; one line feed may follow it. -/
def rangeDigit? (cs : List Char) : Option Char :=
  match cs with
  | d :: x :: y :: rest =>
    if '0' ≤ d && d ≤ '9' && x.toUpper = 'X' && y.toUpper = 'X' && (rest = [] || rest = ['\n']) then
      some d
    else none
  | _ => none

/-- The name of a status. A text of digits is a code, and malformed if it spells no number. -/
def statusName (status : String) : Except Failure String :=
  let cs := status.toList
  if status = "default" then .ok "Default"
  else if !cs.isEmpty && cs.all Text.isDigit then
    (orMalformed (Text.natural? cs)).map codeName
  else
    match rangeDigit? cs with
    | some d => .ok (rangeName d)
    | none => fail (.invalidStatus status)

/-! # Responses -/

open Build

/-- Whether a header only repeats the content type. -/
def isContentTypeHeader (name : String) : Bool :=
  Text.lowerAscii name = "content-type"

/-- Add the item of a payload. Without a schema it is empty. -/
def addPayload (specName generatedName : String) (schema contentType docs : Document) :
    Build Ref := do
  if schema.isNull then
    let r ← addScalar specName generatedName none .unit
    modifyItem r fun item => { item with docs := docs }
    return r
  else
    let reference ← field schema "$ref"
    if reference.isNull then
      let r ← Schema.addInline specName generatedName none schema none contentType
      modifyItem r (·.orDocs docs)
      return r
    else
      let path ← require reference.text?
      if WellKnown.isExternal path then
        let r ← addScalar specName generatedName none (WellKnown.scalar path)
        modifyItem r fun item => { item with docs := docs }
        return r
      else Schema.convert specName generatedName none schema

/-- The member for one header of a response. -/
def headerMember (document : Document) (specName : String) (entry : String × Document) :
    Build (String × Member) := do
  let (name, header) := entry
  if name = "body" then problem (.bodyHeader specName)
  let target ← lift (document.followOrBlame header)
  let definition ← convertHeader document (.text name) header
  return (name, { definition, inlineOption := !(← field target "required").holds })

/-- Add the object that carries the headers of a response beside its payload. -/
def wrapWithHeaders (document : Document) (name : String) (headers : List (String × Document))
    (body : Ref) (contentType docs : Document) : Build Ref := do
  let members ← headers.mapM (headerMember document name)
  let docs ← textOrNull docs
  addItem {
    docs
    specName := name
    generatedName := name
    shape := .object (Table.insert members "body" { definition := body })
    contentType := ← optionalText contentType }

/-- The headers of a response, without the one that repeats the content type. -/
def ownHeaders (response : Document) : Build (List (String × Document)) := do
  let fields ← require ((← field response "headers").orElse (.object [])).fields?
  let named ← fields.mapM fun p => do return (← require p.1.text?, p.2)
  return named.filter fun p => !isContentTypeHeader p.1

/-- The content types of a response with their schemas; without any there is one empty entry. -/
def contentEntries (response : Document) : Build (List (Document × Document)) := do
  let content ← require ((← field response "content").orElse (.object [])).fields?
  let entries ← content.mapM fun p => do return (p.1, ← mediaSchemaOf p.2)
  return if entries.isEmpty then [(.null, .null)] else entries
where
  /-- The schema of a media type object, null for none. -/
  mediaSchemaOf (media : Document) : Build Document :=
    field (media.orElse (.object [])) "schema"

/-- The variant for one content type of a response. -/
def responseVariant (document : Document) (itemName : String) (multiple : Bool)
    (headers : List (String × Document)) (docs : Document) (entry : Document × Document) :
    Build Variant := do
  let (contentType, schema) := entry
  let name ←
    if multiple then
      let t ← require contentType.text?
      pure (itemName ++ Name.upperCamel t)
    else pure itemName
  let bodyName := if headers.isEmpty then name else name ++ "Body"
  let payload ← addPayload name bodyName schema contentType docs
  let definition ←
    if headers.isEmpty then pure payload
    else wrapWithHeaders document name headers payload contentType docs
  return { definition, mappingName := if multiple then contentType.text? else none }

/-- Add the items of a response; gives its variants in the order of the content types, tagged by
them when there are several. -/
def createVariants (document : Document) (itemName : String) (response : Document) :
    Build (List Variant) := do
  let headersOf := ownHeaders response
  let content ← require ((← field response "content").orElse (.object [])).fields?
  let headers ← headersOf
  let docs ← field response "description"
  let entries ← contentEntries response
  entries.mapM (responseVariant document itemName (1 < content.length) headers docs)

/-- The statuses of an operation in declared order, the default one moved to the end. -/
def orderedStatuses (responses : List (Document × Document)) : List (String × Document) :=
  let entries := responses.map fun p => (p.1.display, p.2)
  entries.filter (·.1 ≠ "default") ++ entries.filter (·.1 = "default")

/-- Whether a response has two or more content types, read through references. -/
def hasSeveralContentTypes (document response : Document) : Except Failure Bool := do
  let resolved ← document.followOrBlame response
  let content := (← orMalformed (resolved.get? "content")).orElse (.object [])
  return 2 ≤ (← orMalformed content.length?)

/-- The variants of the shared response that a value names. -/
def cachedVariantsBy (path : Document) : Build (List Variant) := do
  match path with
  | .text s => lift ((← model).cachedVariants s)
  | d => if d.isKey then problem (.unknownReference d.display) else throw .malformed

/-- The variants that one status contributes, tagged with its name. -/
def statusVariants (document : Document) (generatedName : String) (entry : String × Document) :
    Build (List Variant) := do
  let (status, response) := entry
  let name ← lift (statusName status)
  let _ ← require response.fields?
  let variants ←
    match response.find? "$ref" with
    | some path => cachedVariantsBy path
    | none => createVariants document (generatedName ++ Name.upperCamel name) response
  return variants.map fun v =>
    { definition := v.definition
      mappingName := some (match v.mappingName with
        | some m => name ++ " " ++ m
        | none => name)
      statusCode := some status }

/-- Add the union of an operation's responses; there is one even when none is declared. -/
def createResponses (document : Document) (specName : String) (responses : Document) :
    Build Ref := do
  let generatedName := Name.upperCamel specName
  let entries := orderedStatuses (← require (responses.orElse (.object [])).fields?)
  let variants ← entries.mapM (statusVariants document generatedName)
  addItem { specName, generatedName, shape := .oneOf none variants.flatten }

end TypedApi.Operation
