import TypedApi.Failure
import TypedApi.Name.Words
import TypedApi.Schema.Scalar
import TypedApi.Table
/-!
Shapes: the forms that an item can take.

Shapes own none of the items they are made of. They hold references, listed in
order by `refs`; `mapRefs` puts every reference through a function that may
fail, and keeps all else.
-/

set_option autoImplicit false

namespace TypedApi

/-! # References between items

While a model is being built, a reference is the index of an item that is
already there (`back`) or the path of one that may come later (`forward`). In
a finished model every reference is `resolved`. Because items refer to each
other by index, recursive schemas need no special care.
-/

/-- A reference to an item. -/
inductive Ref where
  | resolved (index : Int)
  | back (index : Int)
  | forward (path : String)
deriving DecidableEq, Repr, Inhabited

namespace Ref

/-- A reference as messages show it. -/
def text : Ref → String
  | .resolved index => "#" ++ toString index
  | .back index => "back(" ++ toString index ++ ")"
  | .forward path => "forward(" ++ path ++ ")"

/-- Whether a reference is one that a finished model may hold. -/
def isResolved : Ref → Bool
  | .resolved _ => true
  | _ => false

end Ref

/-! # The alternatives of a union

A variant gets its display name once, when the model it belongs to is
finished. The name comes from the tag that the document gives it, else from
the item it refers to, else from its position.
-/

/-- Whether a variant has its display name yet. -/
inductive VariantName where
  | unnamed
  | named (value : String)
deriving DecidableEq, Repr, Inhabited

/-- One alternative: the type of its payload, the tag from a discriminator or from a response, and
for responses the status key. -/
structure Variant where
  definition : Ref
  mappingName : Option String := none
  statusCode : Option String := none
  name : VariantName := .unnamed
deriving DecidableEq, Repr, Inhabited

namespace Variant

/-- The part of a text after its last slash. -/
def afterLastSlash (s : String) : String :=
  String.ofList (s.toList.reverse.takeWhile (· ≠ '/')).reverse

/-- The base of a display name that the tag gives: all of it for a response, else the part after
the last slash. -/
def taggedBase? (v : Variant) : Option String :=
  match v.mappingName, v.statusCode with
  | some m, some _ => some m
  | some m, none => some (afterLastSlash m)
  | none, _ => none

/-- The name of a variant by its position, with at least two digits. -/
def positional (index : Nat) : String :=
  "Variant" ++ (if index < 10 then "0" else "") ++ toString index

/-- The display name made from its base, at a position. -/
def nameFrom (index : Nat) (base : Option String) : String :=
  let name := Name.upperCamel (base.getD "")
  Name.escape (if name = "" then positional index else name)

/-- Compute and store the display name. `nameOf` gives the name of the item behind a reference. A
variant is named only once. -/
def assignName (v : Variant) (index : Nat) (nameOf : Ref → Except Failure (Option String)) :
    Except Failure Variant :=
  match v.name with
  | .named value => fail (.namedTwice value)
  | .unnamed =>
    match v.taggedBase? with
    | some base => .ok { v with name := .named (nameFrom index (some base)) }
    | none =>
      match nameOf v.definition with
      | .ok base => .ok { v with name := .named (nameFrom index base) }
      | .error e => .error e

/-- The display name, once there is one. -/
def displayName (v : Variant) : Except Failure String :=
  match v.name with
  | .named value => .ok value
  | .unnamed => fail .unnamed

end Variant

/-! # Shapes -/

/-- A field of an object: its type, who may send it, and whether it may be left out here although
its type need not admit null. -/
structure Member where
  definition : Ref
  readOnly : Bool := false
  writeOnly : Bool := false
  inlineOption : Bool := false
deriving DecidableEq, Repr, Inhabited

/-- The form of an item. -/
inductive Shape where
  | scalar (scalar : Scalar)
  | list (item : Ref)
  | set (item : Ref)
  /-- A map from texts; without a value type the values are arbitrary. -/
  | map (value : Option Ref)
  | object (members : Table Member)
  /-- A list of texts; an extensible one admits others besides. -/
  | stringEnum (variants : List String) (extensible : Bool)
  /-- A union, told apart by the discriminating field if there is one. -/
  | oneOf (discriminant : Option String) (variants : List Variant)
  | synonym (target : Ref)
  /-- Another item with its own documentation and access flags. -/
  | override (readOnly writeOnly : Bool) (title description : Option String) (target : Ref)
deriving DecidableEq, Repr, Inhabited

namespace Shape

/-- The name of a shape's kind. -/
def kindName : Shape → String
  | .scalar _ => "scalar"
  | .list _ => "list"
  | .set _ => "set"
  | .map _ => "map"
  | .object _ => "object"
  | .stringEnum .. => "string_enum"
  | .oneOf .. => "one_of"
  | .synonym _ => "ref"
  | .override .. => "property_override"

/-- The references of a shape, in order. -/
def refs : Shape → List Ref
  | .scalar _ => []
  | .list item => [item]
  | .set item => [item]
  | .map value => value.toList
  | .object members => members.map fun p => p.2.definition
  | .stringEnum .. => []
  | .oneOf _ variants => variants.map Variant.definition
  | .synonym target => [target]
  | .override _ _ _ _ target => [target]

variable {ε : Type}

/-- Put the reference of every field through a function. -/
def mapMembers (f : Ref → Except ε Ref) (members : Table Member) : Except ε (Table Member) :=
  members.mapM fun p => do return (p.1, { p.2 with definition := ← f p.2.definition })

/-- Put the reference of every alternative through a function. -/
def mapVariants (f : Ref → Except ε Ref) (variants : List Variant) : Except ε (List Variant) :=
  variants.mapM fun v => do return { v with definition := ← f v.definition }

/-- Put every reference through a function that may fail. -/
def mapRefs (f : Ref → Except ε Ref) : Shape → Except ε Shape
  | .scalar s => .ok (.scalar s)
  | .list item => return .list (← f item)
  | .set item => return .set (← f item)
  | .map none => .ok (.map none)
  | .map (some value) => return .map (some (← f value))
  | .object members => return .object (← mapMembers f members)
  | .stringEnum variants extensible => .ok (.stringEnum variants extensible)
  | .oneOf discriminant variants => return .oneOf discriminant (← mapVariants f variants)
  | .synonym target => return .synonym (← f target)
  | .override readOnly writeOnly title description target =>
    return .override readOnly writeOnly title description (← f target)

/-- Whether a shape defines a type of its own rather than another name for one. -/
def isNominal : Shape → Bool
  | .object _ | .stringEnum .. | .oneOf .. => true
  | _ => false

/-- The first of `Other`, `Other_`, `Other__`, … that avoids a list of names. -/
def freeOther (avoid : List String) (candidate : String) : Nat → String
  | 0 => candidate
  | fuel + 1 => if avoid.contains candidate then freeOther avoid (candidate ++ "_") fuel else candidate

/-- The name of the catch-all of an extensible list of texts, distinct from the texts and from the
names made of them. -/
def otherVariant? : Shape → Option String
  | .stringEnum variants true =>
    let avoid := variants ++ variants.map Name.upperCamel
    some (freeOther avoid "Other" avoid.length)
  | _ => none

end Shape

end TypedApi
