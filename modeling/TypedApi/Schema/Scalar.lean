import TypedApi.Failure
import TypedApi.Text.Case
import TypedApi.Text.Digit
/-!
Scalars: the primitive types at the leaves of a model.

Two kinds of integer carry an inclusive range, of which an end may be open;
every other kind is a plain tag. The tables at the end say which kinds can be compared, copied and hashed.
-/

set_option autoImplicit false

namespace TypedApi

/-- A primitive type, with its range if it has one. -/
inductive Scalar where
  | unit
  | bool
  | f32
  | f64
  | i32
  | i64
  | u32
  | u64
  | boundedI32 (minimum maximum : Option Int)
  | boundedI64 (minimum maximum : Option Int)
  | string
  | binary
  | bytes
  | date
  | dateTime
  | ipAddr
  | ipv4Addr
  | ipv6Addr
  | uuid
  | mime
  | acceptHeader
  | apiProblem
  | any
deriving DecidableEq, Repr, Inhabited

namespace Scalar

/-- The name of a scalar's kind. -/
def kindName : Scalar → String
  | .unit => "unit"
  | .bool => "bool"
  | .f32 => "f32"
  | .f64 => "f64"
  | .i32 => "i32"
  | .i64 => "i64"
  | .u32 => "u32"
  | .u64 => "u64"
  | .boundedI32 .. => "bounded_i32"
  | .boundedI64 .. => "bounded_i64"
  | .string => "string"
  | .binary => "binary"
  | .bytes => "bytes"
  | .date => "date"
  | .dateTime => "date_time"
  | .ipAddr => "ip_addr"
  | .ipv4Addr => "ipv4_addr"
  | .ipv6Addr => "ipv6_addr"
  | .uuid => "uuid"
  | .mime => "mime"
  | .acceptHeader => "accept_header"
  | .apiProblem => "api_problem"
  | .any => "any"

/-- The range of a scalar that has one. -/
def range? : Scalar → Option (Option Int × Option Int)
  | .boundedI32 low high => some (low, high)
  | .boundedI64 low high => some (low, high)
  | _ => none

/-- An end of a range as it is written. -/
def endText : Option Int → String
  | some n => toString n
  | none => "None"

/-- A scalar in messages: its kind, with its range. -/
def text (s : Scalar) : String :=
  match s.range? with
  | some (low, high) => s.kindName ++ "(" ++ endText low ++ ", " ++ endText high ++ ")"
  | none => s.kindName

/-- Whether values can be compared: floating-point and untyped ones cannot. -/
def hasEq : Scalar → Bool
  | .f32 | .f64 | .any => false
  | _ => true

/-- Whether values have a fixed size and are copied freely. -/
def hasCopy : Scalar → Bool
  | .string | .binary | .bytes | .mime | .acceptHeader | .apiProblem | .any => false
  | _ => true

/-- Whether values can be hashed. -/
def hasHash : Scalar → Bool
  | .f32 | .f64 | .any | .apiProblem => false
  | _ => true

/-! ## Numbers -/

/-- Whether a format is left open: absent or empty. -/
def formatIsOpen (format : Document) : Bool :=
  format.isNull || format.isText ""

/-- The scalar of a number schema: single precision for `float`, double for `double` and when the
format is open. -/
def ofNumber (schema : Document) : Except ShapeProblem Scalar :=
  let format := (schema.get? "format").getD .null
  if format.isText "float" then .ok .f32
  else if formatIsOpen format || format.isText "double" then .ok .f64
  else .error (.numberFormat format)

/-! ## Strings -/

/-- The formats of the specification, matched exactly. -/
def standardFormat? : String → Option Scalar
  | "binary" => some .binary
  | "byte" => some .bytes
  | "date" => some .date
  | "date-time" => some .dateTime
  | "password" => some .string
  | _ => none

/-- Widely used further formats, matched in any letter case. -/
def extendedFormat? : String → Option Scalar
  | "base64" => some .bytes
  | "ip" => some .ipAddr
  | "ipv4" => some .ipv4Addr
  | "ipv6" => some .ipv6Addr
  | "mime" => some .mime
  | "content-type" => some .mime
  | "accept-header" => some .acceptHeader
  | "uuid" => some .uuid
  | _ => none

/-- The scalar of a string format; an unknown format is a plain string. -/
def ofStringFormat (format : String) : Scalar :=
  match standardFormat? format with
  | some s => s
  | none => (extendedFormat? (Text.lowerAscii format)).getD .string

/-- The scalar of a string schema's `format` keyword; bytes name no known format, and any other
value that is given must be a text. -/
def ofFormat? (format : Document) : Option Scalar :=
  if format.holds then
    match format with
    | .bytes _ => some .string
    | d => d.text?.map ofStringFormat
  else some .string

end Scalar

end TypedApi

namespace TypedApi.WellKnown

/-! # External references with a meaning of their own

A reference that does not start with a number sign leads out of the document.
Such references are not followed, but the published schema of problem reports
is known by its addresses; every other one stands for an arbitrary value.
-/

/-- Whether a reference leads out of the document. -/
def isExternal (reference : String) : Bool :=
  !("#".toList.isPrefixOf reference.toList)

/-- The address of the problem schema. -/
def problemAddress : String :=
  "https://opensource.zalando.com/problem/schema.yaml#/Problem"

/-- What the address of a numbered edition of the problem schema has before its number. -/
def editionStart : List Char :=
  "https://opensource.zalando.com/restful-api-guidelines/models/problem-1.0.".toList

/-- What the address of a numbered edition of the problem schema has after its number. -/
def editionEnd : List Char :=
  ".yaml#/Problem".toList

/-- Whether a reference is the address of a numbered edition; one line feed may follow it. -/
def isEdition (reference : String) : Bool :=
  let cs := reference.toList
  editionStart.isPrefixOf cs &&
    let rest := cs.drop editionStart.length
    let number := rest.takeWhile Text.isDecimal
    let tail := rest.dropWhile Text.isDecimal
    !number.isEmpty && (tail = editionEnd || tail = editionEnd ++ ['\n'])

/-- The scalar of a well-known external reference. -/
def find? (reference : String) : Option Scalar :=
  if reference = problemAddress || isEdition reference then some .apiProblem else none

/-- The scalar that an external reference stands for. -/
def scalar (reference : String) : Scalar :=
  (find? reference).getD .any

end TypedApi.WellKnown
