import TypedApi.Decimal.Shortest
import TypedApi.Document.Coercion
/-!
Documents as they can be written in JSON.

JSON has texts, numbers, Booleans, null, arrays, and objects with texts as
keys. `plain?` turns all else into these: moments into their standard form,
bytes into the text that they spell, pairs and collections into arrays, and
numbers that have no digits into null. Keys become texts. Two keys of an object
may become the same one; then the value of the later stands at the place of the
earlier. Bytes that spell no text, and a value inside of itself, have no such
form.
-/

set_option autoImplicit false

namespace TypedApi.Document.Json

/-- Whether a number has digits. -/
def hasDigits : Binary64 → Bool
  | .finite .. => true
  | _ => false

/-- The text that a key becomes. -/
def plainKey? : Document → Option String
  | .null => some "None"
  | .bool b => some (if b then "true" else "false")
  | .float x => some (if hasDigits x then Layout.shown.text x else "None")
  | .moment m => some m.standardText
  | .int n => some (toString n)
  | d => d.asText?

mutual
/-- A value as it can be written in JSON. -/
def plain? : Document → Option Document
  | .float x => some (if hasDigits x then .float x else .null)
  | .moment m => some (.text m.standardText)
  | .bytes bs => ((Document.bytes bs).asText?).map .text
  | .array items => (plainItems? items).map .array
  | .pair a b => do return .array [← plain? a, ← plain? b]
  | .collection members => (plainItems? members).map .array
  | .object fields => (plainFields? fields).map .ofFields
  | .loop _ => none
  | d => some d

/-- The elements of an array as they can be written in JSON. -/
def plainItems? : List Document → Option (List Document)
  | [] => some []
  | d :: rest => do return (← plain? d) :: (← plainItems? rest)

/-- The fields of an object as they can be written in JSON. -/
def plainFields? : List (Document × Document) → Option (List (Document × Document))
  | [] => some []
  | (k, v) :: rest => do return (.text (← plainKey? k), ← plain? v) :: (← plainFields? rest)
end

end TypedApi.Document.Json
