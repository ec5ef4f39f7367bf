import TypedApi.Bindings.Definition
/-!
Methods of the generated interface.

Every operation becomes one method. Its arguments are given by name; those
that a call may leave out come last and start as none.
-/

set_option autoImplicit false

namespace TypedApi.Bindings

/-- An argument of a method. -/
structure Argument where
  name : String
  type : TypeExpr
  required : Bool
deriving Repr, Inhabited

/-- A method. -/
structure Method where
  name : String
  arguments : List Argument
  returns : TypeExpr
  docs : Option String
deriving Repr, Inhabited

/-- An argument before it has a name of its own: the name proposed, the item, and whether a call
must give it. -/
structure Request where
  name : String
  item : Ref
  required : Bool
deriving Repr, Inhabited

/-- Whether a call must give the query: when some field of it is required. -/
def queryRequired (m : Model) (query : Ref) : Except Failure Bool := do
  match (← m.resolve query).shape with
  | .object members => return members.any fun p => !p.2.inlineOption
  | _ => return false

/-- The arguments that an operation asks for, in order: path, query, body, then the headers. -/
def requests (m : Model) (o : Operation) : Except Failure (List Request) := do
  let path := o.pathParameters.toList.map fun r => Request.mk "path" r true
  let query ← o.queryParameters.toList.mapM fun r => do
    return Request.mk "query" r (← queryRequired m r)
  let body ← o.requestBody.toList.mapM fun r => do
    return Request.mk "body" r !(← m.resolve r).nullable
  let headers := o.headers.map fun p => Request.mk p.2.generatedName p.2.item p.2.required
  return path ++ query ++ body ++ headers

/-- Give each argument a name of its own, given the names taken before. -/
def argumentsFrom (m : Model) (taken : List String) : List Request → Except Failure (List Argument)
  | [] => .ok []
  | r :: rest => do
    let name := Name.deconflict r.name taken
    let type ← TypeExpr.ofRef m none r.item
    return ⟨name, type, r.required⟩ :: (← argumentsFrom m (name :: taken) rest)

/-- The arguments of an operation's method, those that may be left out last. -/
def argumentsOf (m : Model) (o : Operation) : Except Failure (List Argument) := do
  let arguments ← argumentsFrom m ["self"] (← requests m o)
  return arguments.filter (·.required) ++ arguments.filter (!·.required)

/-- The method for an operation, given the names of the methods before it. -/
def methodOf (m : Model) (emitDocs : Bool) (taken : List String) (o : Operation) :
    Except Failure Method := do
  let arguments ← argumentsOf m o
  return {
    name := Name.deconflict (Name.escape (orIfEmpty o.functionName "operation")) taken
    arguments
    returns := ← TypeExpr.ofRef m none o.response
    docs := if emitDocs then docLiteral? o.docString 8 else none }

/-- The methods for operations, given the names of the methods before them. -/
def methodsFrom (m : Model) (emitDocs : Bool) (taken : List String) :
    List Operation → Except Failure (List Method)
  | [] => .ok []
  | o :: rest => do
    let method ← methodOf m emitDocs taken o
    return method :: (← methodsFrom m emitDocs (method.name :: taken) rest)

/-- An argument as it is written. -/
def Argument.text (a : Argument) : String :=
  if a.required then a.name ++ ": " ++ a.type.text
  else a.name ++ ": " ++ a.type.optional.text ++ " = None"

/-- The head of a method. -/
def Method.head (d : Method) : String :=
  let arguments :=
    if d.arguments.isEmpty then "" else ", *, " ++ ", ".intercalate (d.arguments.map Argument.text)
  "    def " ++ d.name ++ "(self" ++ arguments ++ ") -> " ++ d.returns.text ++ ":"

/-- The lines of a method. -/
def Method.lines (d : Method) : List String :=
  d.head :: d.docs.toList ++ ["        ..."]

end TypedApi.Bindings
