import TypedApi.Decimal.Shortest
import TypedApi.Document.Display
/-!
Writing documents as indented JSON text.

Each element and each field stands on a line of its own, two more spaces in
than what holds it; an array or object without any is written `[]` or as a
pair of braces. Keys are texts in JSON, so scalar keys of other kinds are
written as the text of their value; a moment cannot be a key, nor can bytes. As
values these, and collections, are written as the texts that messages have for
them, and a pair as an array of two.

Texts come in two forms: `write?` keeps the characters of all scripts and
`writeAscii?` escapes all that is not ASCII.
-/

set_option autoImplicit false

namespace TypedApi.Document.Json

/-- The text of a key that is not a text itself. -/
def keyText? : Document → Option String
  | .text s => some s
  | .null => some "null"
  | .bool b => some (if b then "true" else "false")
  | .int n => some (toString n)
  | .float x => some (Layout.json.text x)
  | _ => none

/-- A new line and the indentation of a level. -/
def newline (level : Nat) : String :=
  "\n" ++ "".pushn ' ' (2 * level)

mutual
/-- A value at a level of nesting, its texts written by `quote`; `none` if a key cannot be written
or a value stands inside of itself. -/
def render (quote : String → String) (level : Nat) : Document → Option String
  | .null => some "null"
  | .bool b => some (if b then "true" else "false")
  | .int n => some (toString n)
  | .float x => some (Layout.json.text x)
  | .text s => some (quote s)
  | .bytes bs => some (quote (Document.bytes bs).display)
  | .moment m => some (quote m.text)
  | .collection members => some (quote (Document.collection members).display)
  | .array [] => some "[]"
  | .array items => do
    let parts ← renderItems quote (level + 1) items
    return "[" ++ newline (level + 1) ++ ("," ++ newline (level + 1)).intercalate parts ++
      newline level ++ "]"
  | .pair a b => do
    let first ← render quote (level + 1) a
    let second ← render quote (level + 1) b
    return "[" ++ newline (level + 1) ++ first ++ "," ++ newline (level + 1) ++ second ++
      newline level ++ "]"
  | .object [] => some "\x7b\x7d"
  | .object fields => do
    let parts ← renderFields quote (level + 1) fields
    return "\x7b" ++ newline (level + 1) ++ ("," ++ newline (level + 1)).intercalate parts ++
      newline level ++ "\x7d"
  | .loop _ => none

/-- The elements of an array. -/
def renderItems (quote : String → String) (level : Nat) : List Document → Option (List String)
  | [] => some []
  | d :: rest => do
    let first ← render quote level d
    let others ← renderItems quote level rest
    return first :: others

/-- The fields of an object. -/
def renderFields (quote : String → String) (level : Nat) : List (Document × Document) → Option (List String)
  | [] => some []
  | (k, v) :: rest => do
    let key ← keyText? k
    let value ← render quote level v
    let others ← renderFields quote level rest
    return (quote key ++ ": " ++ value) :: others
end

/-- A document as indented JSON text. -/
def write? (d : Document) : Option String :=
  render Text.jsonQuoted 0 d

/-- A document as indented JSON text in ASCII. -/
def writeAscii? (d : Document) : Option String :=
  render Text.doubleQuoted 0 d

end TypedApi.Document.Json
