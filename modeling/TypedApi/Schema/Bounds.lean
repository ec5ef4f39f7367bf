import TypedApi.Schema.Scalar
/-!
Bounds of integer schemas.

A schema may bound an integer from both sides, each side by an inclusive
keyword together with a Boolean flag that makes it exclusive, or by an
exclusive keyword that is the bound itself. A declared minimum of zero without
a maximum selects the unsigned kind of the width; any other bound selects the
bounded kind, whose missing or unrepresentable sides are the ends of the width
and whose exclusive sides are moved one step inward.
-/

set_option autoImplicit false

namespace TypedApi

/-- The two widths of integers. -/
inductive IntegerWidth where
  | w32
  | w64
deriving DecidableEq, Repr

namespace IntegerWidth

/-- The least signed integer of a width. -/
def low : IntegerWidth → Int
  | .w32 => -2147483648
  | .w64 => -9223372036854775808

/-- The greatest signed integer of a width. -/
def high : IntegerWidth → Int
  | .w32 => 2147483647
  | .w64 => 9223372036854775807

/-- The signed kind of a width. -/
def signed : IntegerWidth → Scalar
  | .w32 => .i32
  | .w64 => .i64

/-- The unsigned kind of a width. -/
def unsigned : IntegerWidth → Scalar
  | .w32 => .u32
  | .w64 => .u64

/-- The kind of a width with a range that is open at neither end. -/
def bounded : IntegerWidth → Int → Int → Scalar
  | .w32, low, high => .boundedI32 (some low) (some high)
  | .w64, low, high => .boundedI64 (some low) (some high)

/-- The width that a format names: `int32`, or `int64` which is also the width of an open one. -/
def ofFormat (format : Document) : Except ShapeProblem IntegerWidth :=
  if format.isText "int32" then .ok .w32
  else if Scalar.formatIsOpen format || format.isText "int64" then .ok .w64
  else .error (.integerFormat format)

end IntegerWidth

/-- One side of a range: the bound, if any, and whether it is exclusive. -/
structure Bound where
  value : Option Int
  exclusive : Bool
deriving DecidableEq, Repr

namespace Bound

/-- The integer that a keyword holds; absent is fine, a fraction is not. -/
def integer (keyword : String) : Document → Except ShapeProblem (Option Int)
  | .null => .ok none
  | .int n => .ok (some n)
  | .float x =>
    match x.toInt? with
    | some n => .ok (some n)
    | none => .error (.boundNotIntegral keyword (.float x))
  | d => .error (.boundNotNumber keyword d)

/-- One side of a schema's range. A Boolean exclusive keyword qualifies the inclusive one; any
other replaces it. -/
def read (schema : Document) (inclusive exclusive : String) : Except ShapeProblem Bound := do
  let bound ← integer inclusive ((schema.find? inclusive).getD .null)
  match schema.find? exclusive with
  | none => return ⟨bound, false⟩
  | some (.bool b) => return ⟨bound, b⟩
  | some d => return ⟨← integer exclusive d, true⟩

/-- A bound kept inside a width: itself when the width has it, else the end given. -/
def within (width : IntegerWidth) (bound : Option Int) (fallback : Int) : Int :=
  match bound with
  | some b => if width.low ≤ b && b ≤ width.high then b else fallback
  | none => fallback

end Bound

/-- What an integer schema comes to; `ignoredExclusive` tells that the unsigned kind was selected
in spite of an exclusive minimum. -/
structure IntegerReading where
  scalar : Scalar
  ignoredExclusive : Bool := false
deriving DecidableEq, Repr

namespace Scalar

/-- The scalar for a width and two bounds. -/
def ofBounds (width : IntegerWidth) (minimum maximum : Bound) (bounded : Bool) : IntegerReading :=
  if minimum.value = some 0 && maximum.value = none then
    ⟨width.unsigned, minimum.exclusive⟩
  else if bounded && (minimum.value.isSome || maximum.value.isSome) then
    let lower := Bound.within width minimum.value width.low
    let upper := Bound.within width maximum.value width.high
    ⟨width.bounded (if minimum.exclusive then lower + 1 else lower)
      (if maximum.exclusive then upper - 1 else upper), false⟩
  else ⟨width.signed, false⟩

/-- The scalar of an integer schema. Without `bounded` only the unsigned kind looks at bounds. -/
def ofInteger (schema : Document) (bounded : Bool) : Except ShapeProblem IntegerReading := do
  let width ← IntegerWidth.ofFormat ((schema.find? "format").getD .null)
  let minimum ← Bound.read schema "minimum" "exclusiveMinimum"
  let maximum ← Bound.read schema "maximum" "exclusiveMaximum"
  return ofBounds width minimum maximum bounded

end Scalar

end TypedApi
