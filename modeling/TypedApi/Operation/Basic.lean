import TypedApi.Failure
import TypedApi.Graph.Shape
import TypedApi.Name.Words
import TypedApi.Table
import TypedApi.Text.Upper
/-!
Operations: one typed signature for each path and method.
-/

set_option autoImplicit false

namespace TypedApi

/-! # Parameters of operations, and where their values are sent -/

/-- Where a parameter's value is sent. -/
inductive Location where
  | path
  | query
  | header
deriving DecidableEq, Repr, Inhabited

namespace Location

/-- The word for a location. -/
def text : Location → String
  | .path => "path"
  | .query => "query"
  | .header => "header"

/-- The location that a parameter declares. Cookies are known but not supported. -/
def parse (name location : Document) : Except Failure Location :=
  if location.isText "path" then .ok .path
  else if location.isText "query" then .ok .query
  else if location.isText "header" then .ok .header
  else if location.isText "cookie" then fail (.unsupportedLocation name "cookie")
  else
    .error ⟨.unsupportedLocation name location.display,
      some (.said (location.shown ++ " is not a valid ParameterLocation"))⟩

end Location

/-- A parameter of an operation: its argument name, its declared name, and the item of its
value. -/
structure Parameter where
  generatedName : String
  specName : String
  location : Location
  required : Bool := false
  item : Ref
deriving DecidableEq, Repr, Inhabited

variable {ε : Type}

/-- Put the reference of a parameter through a function that may fail. -/
def Parameter.mapRefs (f : Ref → Except ε Ref) (p : Parameter) : Except ε Parameter := do
  return { p with item := ← f p.item }

/-! # The methods that a path can offer operations under -/

/-- A method. -/
inductive Verb where
  | get
  | put
  | post
  | delete
  | options
  | head
  | patch
  | trace
deriving DecidableEq, Repr, Inhabited

namespace Verb

/-- A method as it is sent. -/
def text : Verb → String
  | .get => "GET"
  | .put => "PUT"
  | .post => "POST"
  | .delete => "DELETE"
  | .options => "OPTIONS"
  | .head => "HEAD"
  | .patch => "PATCH"
  | .trace => "TRACE"

/-- All methods. -/
def all : List Verb :=
  [.get, .put, .post, .delete, .options, .head, .patch, .trace]

/-- The method that a key of a path names, in any letter case. -/
def parse (name : String) : Except Failure Verb :=
  let word := Text.upper name
  match all.find? fun v => v.text = word with
  | some v => .ok v
  | none =>
    .error ⟨.unknownVerb name, some (.said (Text.shown word ++ " is not a valid Verb"))⟩

/-- Whether a body declared for the method is kept. -/
def admitsBody : Verb → Bool
  | .get | .head | .delete | .trace => false
  | _ => true

end Verb

/-! # Operations -/

/-- An operation.

The path and query parameters are the members of one object item each; the
headers are kept one by one under their declared names. `parameters` holds all
of them in declared order. -/
structure Operation where
  path : String
  verb : Verb
  pathDocs : Option String := none
  docs : Option String := none
  operationId : Option String := none
  pathParameters : Option Ref := none
  queryParameters : Option Ref := none
  headers : Table Parameter := []
  parameters : List Parameter := []
  requestBody : Option Ref := none
  response : Ref
deriving Repr, Inhabited

namespace Operation

/-- A text unless it is missing or empty. -/
def given? : Option String → Option String
  | some "" => none
  | other => other

/-- The declared identifier, else the method and the path. -/
def label (o : Operation) : String :=
  (given? o.operationId).getD (o.verb.text ++ " " ++ o.path)

/-- The name of the generated method. -/
def functionName (o : Operation) : String :=
  Name.snake o.label

/-- The documentation of the generated method: that of the operation before that of the path as
the more specific, then the method, the path and the identifier. -/
def docString (o : Operation) : String :=
  let texts := [o.docs, o.pathDocs].filterMap given?
  let about := if texts.isEmpty then [] else ["\n\n".intercalate texts]
  let signature := ["`" ++ o.verb.text ++ " " ++ o.path ++ "`"]
  let identifier := (given? o.operationId).toList.map fun i => "Operation ID: `" ++ i ++ "`"
  "\n\n".intercalate (about ++ signature ++ identifier)

/-- Put an optional reference through a function that may fail. -/
def mapOptional (f : Ref → Except ε Ref) : Option Ref → Except ε (Option Ref)
  | none => .ok none
  | some r => return some (← f r)

/-- Put every reference of an operation through a function that may fail. -/
def mapRefs (f : Ref → Except ε Ref) (o : Operation) : Except ε Operation := do
  let pathParameters ← mapOptional f o.pathParameters
  let queryParameters ← mapOptional f o.queryParameters
  let headers ← o.headers.mapM fun p => do return (p.1, ← p.2.mapRefs f)
  let parameters ← o.parameters.mapM (Parameter.mapRefs f)
  let requestBody ← mapOptional f o.requestBody
  let response ← f o.response
  return { o with pathParameters, queryParameters, headers, parameters, requestBody, response }

/-- Every reference of an operation. -/
def refs (o : Operation) : List Ref :=
  o.pathParameters.toList ++ o.queryParameters.toList ++ o.headers.map (·.2.item) ++
    o.parameters.map (·.item) ++ o.requestBody.toList ++ [o.response]

end Operation

end TypedApi
