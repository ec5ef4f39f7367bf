import TypedApi.Document.Display
/-!
What can go wrong, by cause.

A `Problem` says what was found and where; `Problem.message` is the only place
where it is put into words, and `Problem.kind` sorts it into the families that
decide the exit code. Four problems stand apart: a broken invariant would be a
fault of this library, a malformed document holds a value of a kind that its
place does not admit, such as a number where an object belongs, and a path or an
address may not be usable as it is meant to be.

A `Failure` is a problem with the one that led to it, if any.
-/

set_option autoImplicit false

namespace TypedApi

/-- A schema that breaks a condition on its shape. -/
inductive ShapeProblem where
  | numberFormat (format : Document)
  | integerFormat (format : Document)
  | boundNotNumber (keyword : String) (value : Document)
  | boundNotIntegral (keyword : String) (value : Document)
  | membersNotArray (keyword : String)
  | memberNotText (keyword : String) (value : Document)
  | closedAndExtensible
  | formatAndMembers
  | propertiesAndAdditional
  | additionalProperties (value : Document)
deriving Repr

/-- A schema for which there is no item. -/
inductive SchemaProblem where
  | falseSchema
  | notSchema (value : Document)
  | severalTypes (types : List Document)
  | anyOfOrNot
  | notSingleton
  | unknownType (type : Document)
  | docsStatus (code : Nat) (url : String)
  | docsUnreachable (url : String) (reason : String)
deriving Repr

/-- A document that cannot be had or read. -/
inductive SourceProblem where
  | externalPointer (reference : String)
  | missingKey (reference segment : String)
  | badIndex (reference segment : String)
  | notNavigable (reference kind : String)
  | circular (reference : String)
  | notObject (kind : String)
  | noInput
  | notFound (path : String)
  | empty (path : String)
  | invalidJson
  | unreadable
  | status (code : Nat) (url : String)
  | unreachable (url : String) (reason : String)
  | swagger (version : Document)
  | versionMissing
  | versionUnsupported (version : String)
deriving Repr

/-- Settings that cannot be used. -/
inductive SettingsProblem where
  | invalidGlobal
  | invalidProject
  | projectNotObject (path : String)
  | invalidFlag (name value : String)
deriving Repr

/-- A cause of failure. -/
inductive Problem where
  | source (problem : SourceProblem)
  | settings (problem : SettingsProblem)
  | unknownReference (reference : String)
  | duplicateName (name : String) (old new : Int)
  | shape (problem : ShapeProblem) (name : Option String)
  | schema (problem : SchemaProblem) (name : Option String)
  | finalized (operation : String)
  | invalidStatus (status : String)
  | bodyHeader (response : String)
  | unknownVerb (verb : String)
  | unsupportedLocation (name : Document) (location : String)
  | malformedContent (name : Document) (count : Nat)
  | notFinalized
  | noAlias (name kind : String)
  | nameConflict (name : String) (old new : Nat)
  | namedTwice (name : String)
  | unnamed
  | malformed
  | unusablePath (path : String)
  | unusableAddress (url : String)
deriving Repr

/-- The families of problems. -/
inductive ProblemKind where
  | source
  | settings
  | unknownReference
  | duplicateName
  | shape
  | schema
  | finalized
  | operation
  | unknownVerb
  | unsupportedLocation
  | malformedContent
  | rendering
  | invariant
  | malformed
  | unusablePath
  | unusableAddress
deriving DecidableEq, Repr

namespace ShapeProblem

/-- The problem in words. -/
def message : ShapeProblem → String
  | .numberFormat format => "unknown format for number: " ++ format.shown
  | .integerFormat format => "unknown format for integer: " ++ format.shown
  | .boundNotNumber keyword value => keyword ++ " must be a number, got " ++ value.shown
  | .boundNotIntegral keyword value =>
    keyword ++ " must be integral for an integer schema, got " ++ value.display
  | .membersNotArray keyword => keyword ++ " must be an array of strings"
  | .memberNotText keyword value => keyword ++ " item must be a string, got " ++ value.shown
  | .closedAndExtensible => "cannot specify both `enum` and `x-extensible-enum`"
  | .formatAndMembers => "cannot specify both format and enumeration"
  | .propertiesAndAdditional => "cannot specify both `properties` and `additionalProperties`"
  | .additionalProperties value => "invalid additionalProperties: " ++ value.shown

end ShapeProblem

namespace SchemaProblem

/-- The problem in words. -/
def message : SchemaProblem → String
  | .falseSchema => "the `false` schema accepts no value"
  | .notSchema value => "expected a schema object or boolean, got " ++ value.shown
  | .severalTypes types =>
    "multiple non-null types are not supported: " ++ (Document.array types).shown
  | .anyOfOrNot => "`anyOf` and `not` schemas are not supported"
  | .notSingleton => "this `allOf` schema did not meet the requirements of a property singleton"
  | .unknownType type => "unknown schema type: " ++ type.shown
  | .docsStatus code url => "HTTP " ++ toString code ++ " fetching documentation from " ++ url
  | .docsUnreachable url reason => "failed to fetch documentation from " ++ url ++ ": " ++ reason

end SchemaProblem

namespace SourceProblem

/-- The problem in words. -/
def message : SourceProblem → String
  | .externalPointer reference =>
    "External $ref not supported here: " ++ reference ++
      ". Only internal references (#/...) are handled."
  | .missingKey reference segment =>
    "Cannot resolve $ref '" ++ reference ++ "': key '" ++ segment ++ "' not found at path"
  | .badIndex reference segment =>
    "Cannot resolve $ref '" ++ reference ++ "': invalid array index '" ++ segment ++ "'"
  | .notNavigable reference kind =>
    "Cannot resolve $ref '" ++ reference ++ "': cannot navigate into " ++ kind
  | .circular reference => "Circular $ref chain through '" ++ reference ++ "'"
  | .notObject kind => "Document must be a JSON/YAML object (got " ++ kind ++ ")"
  | .noInput => "No input received from stdin"
  | .notFound path => "Document not found: " ++ path
  | .empty path => "Document is empty: " ++ path
  | .invalidJson => "Invalid JSON"
  | .unreadable => "Failed to parse document as JSON or YAML"
  | .status code url => "HTTP " ++ toString code ++ " fetching document from " ++ url
  | .unreachable url reason => "Failed to fetch document from " ++ url ++ ": " ++ reason
  | .swagger version =>
    "Swagger " ++ version.display ++
      " is not supported. Only OpenAPI 3.0.x and 3.1.x are supported. " ++
      "Consider converting with https://converter.swagger.io"
  | .versionMissing => "Missing 'openapi' field. Is this an OpenAPI 3.x document?"
  | .versionUnsupported version =>
    "Unsupported OpenAPI version: " ++ version ++ ". Only OpenAPI 3.0.x and 3.1.x are supported."

end SourceProblem

namespace SettingsProblem

/-- The problem in words. -/
def message : SettingsProblem → String
  | .invalidGlobal => "Invalid global config"
  | .invalidProject => "Invalid project config"
  | .projectNotObject path => "Invalid project config at " ++ path ++ ": expected a JSON object"
  | .invalidFlag name value => "Invalid boolean value for " ++ name ++ ": " ++ Text.shown value

end SettingsProblem

namespace ProblemKind

/-- The exit code of a family; those that stand apart have none of their own. -/
def exitCode? : ProblemKind → Option Nat
  | .settings => some 1
  | .source => some 7
  | .unknownReference | .duplicateName | .shape | .schema | .finalized => some 8
  | .operation | .unknownVerb | .unsupportedLocation | .malformedContent => some 9
  | .rendering => some 11
  | .invariant | .malformed | .unusablePath | .unusableAddress => none

end ProblemKind

namespace Problem

/-- A message that names what it is about, unless the name is missing or empty. -/
def about (name : Option String) (message : String) : String :=
  match name with
  | none => message
  | some "" => message
  | some n => n ++ ": " ++ message

/-- The problem in words. -/
def message : Problem → String
  | .source p => p.message
  | .settings p => p.message
  | .unknownReference reference => "unknown reference: " ++ reference
  | .duplicateName name old new =>
    "duplicate item name: " ++ name ++ " (old index " ++ toString old ++ ", new index " ++
      toString new ++ ")"
  | .shape p name => about name p.message
  | .schema p name => about name p.message
  | .finalized operation => "cannot " ++ operation ++ ": model is already finalized"
  | .invalidStatus status => "invalid response status: " ++ Text.shown status
  | .bodyHeader response => response ++ ": response header may not be named 'body'"
  | .unknownVerb verb => "unknown http verb: " ++ verb
  | .unsupportedLocation name location =>
    "parameter " ++ name.shown ++ ": unsupported parameter location " ++ Text.shown location
  | .malformedContent name count =>
    name.display ++ ": malformed content type: must contain exactly one value, found " ++
      toString count
  | .notFinalized => "cannot render a model that has not been finalized"
  | .noAlias name kind => name ++ " has no alias form (" ++ kind ++ ")"
  | .nameConflict name old new =>
    "item name conflict despite deconfliction: old " ++ toString old ++ ", new " ++ toString new ++
      ", name " ++ Text.shown name
  | .namedTwice name => "variant " ++ Text.shown name ++ " was named twice"
  | .unnamed => "variant display name requested before finalization"
  | .malformed => "malformed document"
  | .unusablePath path => "cannot use the path " ++ Text.shown path
  | .unusableAddress url => "cannot use the address " ++ Text.shown url

/-- The family of a problem. -/
def kind : Problem → ProblemKind
  | .source _ => .source
  | .settings _ => .settings
  | .unknownReference _ => .unknownReference
  | .duplicateName .. => .duplicateName
  | .shape .. => .shape
  | .schema .. => .schema
  | .finalized _ => .finalized
  | .invalidStatus _ | .bodyHeader _ => .operation
  | .unknownVerb _ => .unknownVerb
  | .unsupportedLocation .. => .unsupportedLocation
  | .malformedContent .. => .malformedContent
  | .notFinalized | .noAlias .. => .rendering
  | .nameConflict .. | .namedTwice _ | .unnamed => .invariant
  | .malformed => .malformed
  | .unusablePath _ => .unusablePath
  | .unusableAddress _ => .unusableAddress

end Problem

/-- What led to a problem: another problem, or something said elsewhere. -/
inductive Cause where
  | problem (p : Problem)
  | said (message : String)
deriving Repr

/-- The cause in words. -/
def Cause.message : Cause → String
  | .problem p => p.message
  | .said m => m

/-- A problem with what led to it. -/
structure Failure where
  problem : Problem
  cause : Option Cause := none
deriving Repr

/-- The failure of a malformed document. -/
def Failure.malformed : Failure := ⟨.malformed, none⟩

/-- An answer that is missing because the document is malformed. -/
def orMalformed {α : Type} : Option α → Except Failure α
  | some a => .ok a
  | none => .error .malformed

/-- A failure without a further cause. -/
def fail {α : Type} (problem : Problem) : Except Failure α :=
  .error ⟨problem, none⟩

end TypedApi
