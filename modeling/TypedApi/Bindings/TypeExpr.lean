import TypedApi.Graph.Model
/-!
Type expressions of generated code.

An expression keeps apart the names that every module has (`builtin`), the
names of definitions (`defined`) and those in quotes (`quoted`). Expressions
at the top level of a module are evaluated in order when it is loaded, so
there a definition that does not stand earlier may only be quoted.
-/

set_option autoImplicit false

namespace TypedApi

/-- A type expression. -/
inductive TypeExpr where
  | builtin (name : String)
  | defined (name : String)
  | quoted (name : String)
  /-- An integer from one bound to another, both included. -/
  | within (low high : Option Int)
  | applied (head : String) (arguments : List TypeExpr)
deriving Repr, Inhabited

namespace TypeExpr

mutual
/-- An expression as it is written. -/
def text : TypeExpr → String
  | .builtin name => name
  | .defined name => name
  | .quoted name => Text.doubleQuoted name
  | .within low high =>
    "Annotated[int, Field(ge=" ++ Scalar.endText low ++ ", le=" ++ Scalar.endText high ++ ")]"
  | .applied head arguments => head ++ "[" ++ ", ".intercalate (texts arguments) ++ "]"

/-- Expressions as they are written. -/
def texts : List TypeExpr → List String
  | [] => []
  | e :: rest => e.text :: texts rest
end

/-- An expression that admits null besides. -/
def optional (e : TypeExpr) : TypeExpr :=
  .applied "Optional" [e]

/-- Whether an expression is written as one that admits null. -/
def isOptional (e : TypeExpr) : Bool :=
  "Optional[".toList.isPrefixOf e.text.toList

/-- A map from texts. -/
def mapTo (value : TypeExpr) : TypeExpr :=
  .applied "dict" [.builtin "str", value]

/-- The type of a scalar. -/
def ofScalar : Scalar → TypeExpr
  | .unit => .builtin "None"
  | .bool => .builtin "bool"
  | .f32 | .f64 => .builtin "float"
  | .i32 | .i64 => .builtin "int"
  | .u32 => .within (some 0) (some 4294967295)
  | .u64 => .within (some 0) (some 18446744073709551615)
  | .boundedI32 low high | .boundedI64 low high => .within low high
  | .string | .mime | .acceptHeader => .builtin "str"
  | .binary | .bytes => .builtin "bytes"
  | .date => .builtin "date"
  | .dateTime => .builtin "datetime"
  | .ipAddr => .applied "Union" [.builtin "IPv4Address", .builtin "IPv6Address"]
  | .ipv4Addr => .builtin "IPv4Address"
  | .ipv6Addr => .builtin "IPv6Address"
  | .uuid => .builtin "UUID"
  | .apiProblem => mapTo (.builtin "Any")
  | .any => .builtin "Any"

/-- The type behind a reference. With a position given, an item that does not stand before it is
quoted. -/
def ofRef (m : Model) (position : Option Nat) (r : Ref) : Except Failure TypeExpr := do
  let index ← m.indexOf r
  let item ← m.itemAt index
  match position with
  | some p => return if (p : Int) ≤ index then .quoted item.generatedName else .defined item.generatedName
  | none => return .defined item.generatedName

/-- The type of an item that is no class of its own; the others have none. -/
def ofItem (m : Model) (position : Nat) (item : Item) : Except Failure TypeExpr :=
  match item.shape with
  | .scalar s => .ok (ofScalar s)
  | .list r => return .applied "List" [← ofRef m (some position) r]
  | .set r => return .applied "FrozenSet" [← ofRef m (some position) r]
  | .map none => .ok (mapTo (.builtin "Any"))
  | .map (some r) => return mapTo (← ofRef m (some position) r)
  | .synonym r => ofRef m (some position) r
  | .override _ _ _ _ r => ofRef m (some position) r
  | shape => fail (.noAlias item.generatedName shape.kindName)

end TypeExpr

end TypedApi
