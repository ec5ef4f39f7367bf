import TypedApi.Bindings.Docs
import TypedApi.Bindings.TypeExpr
/-!
Definitions of a generated module.

Every item of a finished model becomes one definition: another name for a
type, a wrapper with a single value, a record, an enumeration of texts, or a
union. The names of fields and of members are made here; within one definition
they are distinct.
-/

set_option autoImplicit false

namespace TypedApi

namespace Bindings

/-- A field of a record. One whose name differs from the property's is read and written under that. -/
structure Field where
  name : String
  type : TypeExpr
  optional : Bool := false
  inputName : Option String := none
deriving Repr, Inhabited

/-- An alternative of a union as it is listed above it. -/
structure Alternative where
  name : String
  tag : Option String
  type : TypeExpr
deriving Repr, Inhabited

/-- What a definition holds besides its name. -/
inductive Body where
  | synonym (comments : List String) (type : TypeExpr)
  | wrapper (docs : Option String) (type : TypeExpr)
  | record (docs : Option String) (fields : List Field)
  /-- Members with their texts; `other` is the member that catches all other texts. -/
  | enumeration (docs : Option String) (members : Table String) (other : Option String)
  | union (comments : List String) (discriminant : Option String)
      (alternatives : List Alternative) (type : TypeExpr)
deriving Repr, Inhabited

/-- A definition. -/
structure Definition where
  name : String
  body : Body
deriving Repr, Inhabited

/-! ## Documentation -/

/-- The documentation literal for the documentation of an item. An item may carry a value there
that is no text; then there is no literal for it, unless it is blank. -/
def docLiteral (emitDocs : Bool) (indent : Nat) (docs : Document) :
    Except Failure (Option String) :=
  if emitDocs && docs.holds then
    match docs with
    | .text s => .ok (docLiteral? s indent)
    | .bytes bs => if (stripBytes bs).isEmpty then .ok none else .error .malformed
    | _ => .error .malformed
  else .ok none

/-- The comment lines for the documentation of an item: of a text, or of bytes. -/
def comments (emitDocs : Bool) (docs : Document) : Except Failure (List String) :=
  if emitDocs && docs.holds then
    match docs with
    | .text s => .ok (commentLines s)
    | .bytes bs => .ok (byteCommentLines bs)
    | _ => .error .malformed
  else .ok []

/-! ## Names -/

/-- A text unless it is empty. -/
def orIfEmpty (text fallback : String) : String :=
  if text = "" then fallback else text

/-- Whether a text begins with another. -/
def startsWith (s start : String) : Bool :=
  start.toList.isPrefixOf s.toList

/-- The names that fields of a record would hide. -/
def recordAttributes : List String :=
  ["construct", "copy", "dict", "json", "schema", "schema_json", "validate"]

/-- The name proposed for the field of a property: it begins with no underscore, nor with the
prefix that records keep for themselves, and hides nothing. -/
def fieldName (property : String) : String :=
  let name := Name.escape (orIfEmpty (Name.snake property) "field")
  let shaped :=
    if startsWith name "_" then "field" ++ name
    else if startsWith name "model_" then name ++ "_"
    else name
  if recordAttributes.contains shaped then shaped ++ "_" else shaped

/-- The name proposed for the member of a text. -/
def memberName (variant : String) : String :=
  Name.escape (orIfEmpty (Name.upperCamel variant) "Empty")

/-! ## Definitions -/

/-- The fields for the members of an object, given the names taken before. -/
def fieldsFrom (m : Model) (taken : List String) : Table Member → Except Failure (List Field)
  | [] => .ok []
  | (property, member) :: rest => do
    let name := Name.deconflict (fieldName property) taken
    let type ← TypeExpr.ofRef m none member.definition
    let field : Field := {
      name
      type := if member.inlineOption then type.optional else type
      optional := member.inlineOption
      inputName := if name = property then none else some property }
    return field :: (← fieldsFrom m (name :: taken) rest)

/-- The members for the texts of an enumeration, given the names taken before. -/
def membersFrom (taken : List String) : List String → Table String
  | [] => []
  | variant :: rest =>
    let name := Name.deconflict (memberName variant) taken
    (name, variant) :: membersFrom (name :: taken) rest

/-- The alternative for a variant, with the type that the union at a position writes for it. -/
def alternativeOf (m : Model) (position : Nat) (v : Variant) :
    Except Failure (Alternative × TypeExpr) := do
  let name ← v.displayName
  let written ← TypeExpr.ofRef m (some position) v.definition
  let label ← TypeExpr.ofRef m none v.definition
  return (⟨name, v.mappingName, label⟩, written)

/-- The type that is any one of several. -/
def anyOneOf : List TypeExpr → TypeExpr
  | [] => .builtin "Any"
  | [e] => e
  | es => .applied "Union" es

/-- The body for an item at a position. -/
def bodyOf (m : Model) (emitDocs : Bool) (position : Nat) (item : Item) : Except Failure Body := do
  if item.newtype.isSome then
    let type ← TypeExpr.ofItem m position item
    return .wrapper (← docLiteral emitDocs 4 item.docs) (if item.nullable then type.optional else type)
  else
    match item.shape with
    | .object members =>
      let fields ← fieldsFrom m [] members
      return .record (← docLiteral emitDocs 4 item.docs) fields
    | .stringEnum variants _ =>
      let other := item.shape.otherVariant?
      return .enumeration (← docLiteral emitDocs 4 item.docs) (membersFrom other.toList variants) other
    | .oneOf discriminant variants =>
      let alternatives ← variants.mapM (alternativeOf m position)
      let type := anyOneOf (alternatives.map Prod.snd)
      return .union (← comments emitDocs item.docs) discriminant (alternatives.map Prod.fst)
        (if item.nullable && item.innerName.isNone then type.optional else type)
    | _ =>
      let type ← TypeExpr.ofItem m position item
      return .synonym (← comments emitDocs item.docs)
        (if item.nullable && !type.isOptional then type.optional else type)

/-- The definition for an item at a position. -/
def definitionOf (m : Model) (emitDocs : Bool) (position : Nat) (item : Item) :
    Except Failure Definition :=
  (bodyOf m emitDocs position item).map (⟨item.generatedName, ·⟩)

/-! ## Text -/

/-- The initial value that a field is given, if any. -/
def Field.initial? (f : Field) : Option String :=
  let arguments := (if f.optional then ["default=None"] else []) ++
    f.inputName.toList.map fun a => "alias=" ++ Text.doubleQuoted a
  if arguments.isEmpty then none else some ("Field(" ++ ", ".intercalate arguments ++ ")")

/-- A field as it is written. -/
def Field.line (f : Field) : String :=
  "    " ++ f.name ++ ": " ++ f.type.text ++ (f.initial?.map (" = " ++ ·)).getD ""

/-- An alternative as it is listed. -/
def Alternative.line (a : Alternative) : String :=
  match Operation.given? a.tag with
  | some tag => "#   " ++ a.name ++ " (" ++ tag ++ "): " ++ a.type.text
  | none => "#   " ++ a.name ++ ": " ++ a.type.text

/-- The lines of the member that catches all other texts. -/
def otherLines (name other : String) : List String :=
  ["    " ++ other ++ " = " ++ Text.doubleQuoted other,
   "",
   "    @classmethod",
   "    def _missing_(cls, value: object) -> " ++ name ++ ":",
   "        return cls." ++ other]

/-- The lines of an enumeration under its head. -/
def enumerationLines (name : String) (docs : Option String) (members : Table String)
    (other : Option String) : List String :=
  let isEmpty := members.isEmpty && other.isNone
  let head :=
    match docs with
    | some d => if isEmpty then [d] else [d, ""]
    | none => if isEmpty then ["    pass"] else []
  head ++ members.map (fun p => "    " ++ p.1 ++ " = " ++ Text.doubleQuoted p.2) ++
    (other.map (otherLines name)).getD []

/-- The lines above a union. -/
def unionHead (comments : List String) (discriminant : Option String)
    (alternatives : List Alternative) : List String :=
  comments ++
    (Operation.given? discriminant).toList.map (fun d => "# Tagged by the \"" ++ d ++ "\" property.") ++
    alternatives.map Alternative.line

/-- The lines of a definition. -/
def Definition.lines (d : Definition) : List String :=
  match d.body with
  | .synonym comments type => comments ++ [d.name ++ " = " ++ type.text]
  | .wrapper docs type =>
    ["class " ++ d.name ++ "(RootModel[" ++ type.text ++ "]):", docs.getD "    pass"]
  | .record docs fields =>
    ["class " ++ d.name ++ "(BaseModel):"] ++ (docs.map fun t => [t, ""]).getD [] ++
      ["    model_config = ConfigDict(populate_by_name=True)"] ++
      (if fields.isEmpty then [] else "" :: fields.map Field.line)
  | .enumeration docs members other =>
    ("class " ++ d.name ++ "(str, Enum):") :: enumerationLines d.name docs members other
  | .union comments discriminant alternatives type =>
    unionHead comments discriminant alternatives ++ [d.name ++ " = " ++ type.text]

end Bindings

end TypedApi
