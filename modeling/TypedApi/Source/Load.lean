import TypedApi.Document.Json.Reader
import TypedApi.Document.Yaml.Construction
import TypedApi.Failure
import TypedApi.Text.Lower
import TypedApi.Workspace.Basic
/-!
Where documents come from.

A source is a dash for the standard input, an address, or the path of a file.
An address states the format of its text by the content type of its answer,
and a file by its extension.
-/

set_option autoImplicit false

namespace TypedApi.Source

/-! # From the text of a source to its document

Two formats are accepted. A source may say which one its text is in; if it
does not, the text is read as JSON, and as YAML when it is not JSON. Either
way the document has to be an object.
-/

/-- What a source says about the format of its text. -/
inductive Format where
  | json
  | yaml
  | unstated
deriving DecidableEq, Repr, Inhabited

/-- The document if it is an object; `kind` is what it is called if it is not. -/
def objectOr (kind : String) (d : Document) : Except Failure Document :=
  if d.isObject then .ok d else fail (.source (.notObject kind))

/-- The document of a YAML text. A text without any document is empty. -/
def parseYaml (text : String) : Except Failure Document :=
  match Document.Yaml.read text with
  | .ok d => objectOr (if d.isNull then "empty document" else d.kindName) d
  | .error .unreadable => fail (.source .unreadable)
  | .error _ => .error .malformed

/-- The document of a text in the stated format. -/
def parse (text : String) (format : Format) : Except Failure Document :=
  if format = .yaml then parseYaml text
  else
    match Document.Json.read text with
    | .ok d => objectOr d.kindName d
    | .error .unreadable =>
      if format = .json then fail (.source .invalidJson) else parseYaml text
    | .error _ => .error .malformed

/-! # The version that a document declares -/

/-- Whether a version is one of those that are supported. -/
def isSupported (version : String) : Bool :=
  "3.0.".toList.isPrefixOf version.toList || "3.1.".toList.isPrefixOf version.toList

/-- The version of a document, if it is supported. A document of the older kind says so under
another key. -/
def version (document : Document) : Except Failure String := do
  let _ ← orMalformed document.fields?
  match document.find? "swagger" with
  | some v => fail (.source (.swagger v))
  | none =>
    let declared := (document.find? "openapi").getD .null
    if declared.isNull then fail (.source .versionMissing)
    let v := declared.display
    if isSupported v then return v else fail (.source (.versionUnsupported v))

/-! # Sources -/

/-- Whether a text begins with another. -/
def startsWith (s beginning : String) : Bool :=
  beginning.toList.isPrefixOf s.toList

/-- Whether a source is an address. -/
def isAddress (source : String) : Bool :=
  startsWith source "http://" || startsWith source "https://"

/-- Whether a text occurs in another. -/
def mentions (s part : String) : Bool :=
  Document.occursIn part.toList s.toList

/-- The format that a content type states. -/
def formatOfContentType (contentType : String) : Format :=
  if mentions contentType "json" then .json
  else if mentions contentType "yaml" || mentions contentType "yml" then .yaml
  else .unstated

/-- The format that the extension of a path states. -/
def formatOfExtension (extension : String) : Format :=
  match Text.lower extension with
  | ".json" => .json
  | ".yaml" => .yaml
  | ".yml" => .yaml
  | _ => .unstated

/-- The document on the standard input. -/
def fromInput (input : String) : Except Failure Document :=
  if Text.isBlankText input then fail (.source .noInput) else parse input .unstated

/-- The document that an answer to a request holds. -/
def fromAnswer (url : String) : Except Docs.FetchProblem Docs.Response → Except Failure Document
  | .ok response => parse response.content (formatOfContentType response.contentType)
  | .error (.status code) => fail (.source (.status code url))
  | .error (.unreachable reason) => .error ⟨.source (.unreachable url reason), some (.said reason)⟩
  | .error .unusable => fail (.unusableAddress url)

/-- The document in a file. -/
def fromFile (w : Workspace) (source : String) : Except Failure Document := do
  let path := Workspace.Path.ofText source
  if path.hasLongName then fail (.unusablePath source)
  match w.file? path with
  | none => fail (.source (.notFound source))
  | some content =>
    let text ← orMalformed content.read?
    if Text.isBlankText text then fail (.source (.empty source))
    parse text (formatOfExtension path.extension)

/-- The document of a source, and the workspace with the requests that this took and without the
input that was read. -/
def load (w : Workspace) (source : String) : Except Failure Document × Workspace :=
  if source = "-" then (fromInput w.input, { w with input := "" })
  else if isAddress source then
    let (asked, answer) := w.network.fetch source
    (fromAnswer source answer, { w with requests := w.requests ++ asked })
  else (fromFile w source, w)

end TypedApi.Source
