import TypedApi.Decimal.Shortest
import TypedApi.Document.Basic
import TypedApi.Text.Quoted
/-!
Documents in messages.

`display` is a value as part of a sentence: a text as it is, all else as it is
shown. `shown` puts texts in quotes and writes arrays and objects out in full,
with dots where one of them stands inside of itself.
-/

set_option autoImplicit false

namespace TypedApi

namespace Document

/-- The name of the kind of a value. -/
def kindName : Document → String
  | .null => "NoneType"
  | .bool _ => "bool"
  | .int _ => "int"
  | .float _ => "float"
  | .text _ => "str"
  | .bytes _ => "bytes"
  | .moment m => if m.time.isSome then "datetime" else "date"
  | .array _ => "list"
  | .pair .. => "tuple"
  | .collection _ => "set"
  | .object _ => "dict"
  | .loop inObject => if inObject then "dict" else "list"

mutual
/-- A value as messages show it. -/
def shown : Document → String
  | .null => "None"
  | .bool b => if b then "True" else "False"
  | .int n => toString n
  | .float x => Layout.shown.text x
  | .text s => Text.shown s
  | .bytes bs => Text.shownBytes bs
  | .moment m => m.shown
  | .array items => "[" ++ ", ".intercalate (shownItems items) ++ "]"
  | .pair a b => "(" ++ a.shown ++ ", " ++ b.shown ++ ")"
  | .collection [] => "set()"
  | .collection members => "\x7b" ++ ", ".intercalate (shownItems members) ++ "\x7d"
  | .object fields => "\x7b" ++ ", ".intercalate (shownFields fields) ++ "\x7d"
  | .loop inObject => if inObject then "\x7b...\x7d" else "[...]"

/-- The elements of an array, each as messages show it. -/
def shownItems : List Document → List String
  | [] => []
  | d :: rest => d.shown :: shownItems rest

/-- The fields of an object, each as messages show it. -/
def shownFields : List (Document × Document) → List String
  | [] => []
  | (k, v) :: rest => (k.shown ++ ": " ++ v.shown) :: shownFields rest
end

/-- A value as part of a sentence. -/
def display : Document → String
  | .text s => s
  | .moment m => m.text
  | d => d.shown

end Document

end TypedApi
