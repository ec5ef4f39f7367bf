import TypedApi.Decimal.Binary64
import TypedApi.Document.Moment
/-!
Documents: the values that a description of an interface is made of.

The type covers what both accepted formats can hold. Objects keep the order of
their fields, and their keys may be any scalar, since one of the formats
writes keys without quotes. Moments, bytes, pairs and sets come from that
format as well. A value of it may also stand inside of itself; a document is
finite, so a loop is cut where it closes, and nothing can be read there.

A keyword counts as given when its value `holds`: null, false, zero and what
is empty do not. Reading a field of something that is not an object, or going
through something that has no elements, has no answer; the readers below
return `none` there, and callers turn that into the fault of a malformed
document.
-/

set_option autoImplicit false

namespace TypedApi

/-- A value of a document. -/
inductive Document where
  | null
  | bool (b : Bool)
  | int (n : Int)
  | float (x : Binary64)
  | text (s : String)
  | bytes (bs : List UInt8)
  | moment (m : Moment)
  | array (items : List Document)
  | pair (first second : Document)
  /-- Scalars without repetition, in the order in which they were first written. -/
  | collection (members : List Document)
  | object (fields : List (Document × Document))
  /-- The place where an array or an object stands inside of itself. -/
  | loop (inObject : Bool)
deriving Repr, Inhabited

/-- Why a text gives no document: it is not in the format, it spells a value that does not exist
or cannot be held, such as a date in a thirteenth month, or it is nested deeper than can be read. -/
inductive Fault where
  | unreadable
  | malformed
  | tooDeep
deriving DecidableEq, Repr, Inhabited

namespace Document

/-! ## Equality -/

/-- The number that a value counts as in comparisons: the Booleans are one and zero. -/
def integer? : Document → Option Int
  | .bool b => some (if b then 1 else 0)
  | .int n => some n
  | .float x => if x.isZero then some 0 else x.toInt?
  | _ => none

mutual
/-- Whether two values are equal. Numbers are compared as numbers, whatever way they are written. -/
def same : Document → Document → Bool
  | .null, .null => true
  | .text a, .text b => a = b
  | .bytes a, .bytes b => a = b
  | .moment a, .moment b => a.same b
  | .array a, .array b => sameItems a b
  | .pair a b, .pair c d => same a c && same b d
  | .collection a, .collection b => a.length = b.length && sameMembers a b
  | .object a, .object b => a.length = b.length && sameFields a b
  | .float a, .float b => a.equal b
  | a, b =>
    match a.integer?, b.integer? with
    | some m, some n => m = n
    | _, _ => false

/-- Whether two arrays are equal. -/
def sameItems : List Document → List Document → Bool
  | [], [] => true
  | a :: as, b :: bs => same a b && sameItems as bs
  | _, _ => false

/-- Whether every member of the first collection is a member of the second. -/
def sameMembers : List Document → List Document → Bool
  | [], _ => true
  | a :: as, others => others.any (fun b => same a b) && sameMembers as others

/-- Whether every field of the first object is a field of the second. -/
def sameFields : List (Document × Document) → List (Document × Document) → Bool
  | [], _ => true
  | (k, v) :: rest, others => others.any (fun p => same k p.1 && same v p.2) && sameFields rest others
end

/-! ## Reading -/

/-- Whether a keyword with this value counts as given. -/
def holds : Document → Bool
  | .null => false
  | .bool b => b
  | .int n => n ≠ 0
  | .float x => !x.isZero
  | .text s => s ≠ ""
  | .bytes bs => !bs.isEmpty
  | .moment _ => true
  | .array items => !items.isEmpty
  | .pair .. => true
  | .collection members => !members.isEmpty
  | .object fields => !fields.isEmpty
  | .loop _ => true

/-- Whether a value is null. -/
def isNull : Document → Bool
  | .null => true
  | _ => false

/-- Whether a value is an object. -/
def isObject : Document → Bool
  | .object _ => true
  | _ => false

/-- Whether a value can be a key: a scalar can, and a pair of such values. -/
def isKey : Document → Bool
  | .array _ => false
  | .collection _ => false
  | .object _ => false
  | .loop _ => false
  | .pair a b => a.isKey && b.isKey
  | _ => true

/-- Whether a value is this text. -/
def isText (d : Document) (s : String) : Bool :=
  match d with
  | .text t => t = s
  | _ => false

/-- Whether a value is the Boolean true, and not merely something that holds. -/
def isTrue : Document → Bool
  | .bool true => true
  | _ => false

/-- The text of a text. -/
def text? : Document → Option String
  | .text s => some s
  | _ => none

/-- Look up a text key among fields. -/
def lookup? (key : String) : List (Document × Document) → Option Document
  | [] => none
  | (k, v) :: rest => if k.isText key then some v else lookup? key rest

/-- The value of a field; null when the object lacks it, `none` when there is no object. -/
def get? (d : Document) (key : String) : Option Document :=
  match d with
  | .object fields => some ((lookup? key fields).getD .null)
  | _ => none

/-- The value of a field of an object, `none` when it is missing. -/
def find? (d : Document) (key : String) : Option Document :=
  match d with
  | .object fields => lookup? key fields
  | _ => none

/-- Whether an object has a field. -/
def hasField (d : Document) (key : String) : Bool :=
  (d.find? key).isSome

/-- The fields of an object. -/
def fields? : Document → Option (List (Document × Document))
  | .object fields => some fields
  | _ => none

/-- The elements of an array, a pair or a collection, the keys of an object, the characters of a
text, the numbers of bytes. -/
def elements? : Document → Option (List Document)
  | .array items => some items
  | .pair a b => some [a, b]
  | .collection members => some members
  | .object fields => some (fields.map Prod.fst)
  | .text s => some (s.toList.map fun c => .text (String.ofList [c]))
  | .bytes bs => some (bs.map fun b => .int b.toNat)
  | _ => none

/-- The count of elements. -/
def length? (d : Document) : Option Nat :=
  d.elements?.map List.length

/-- Whether a run of characters occurs in another. -/
def occursIn (part : List Char) : List Char → Bool
  | [] => part.isEmpty
  | c :: rest => part.isPrefixOf (c :: rest) || occursIn part rest

/-- Whether a text is a key of an object, an element of an array, a pair or a collection, or a part
of a text. -/
def mentions? (d : Document) (key : String) : Option Bool :=
  match d with
  | .object _ => some (d.hasField key)
  | .array items => some (items.any fun i => i.isText key)
  | .pair a b => some (a.isText key || b.isText key)
  | .collection members => some (members.any fun i => i.isText key)
  | .text s => some (occursIn key.toList s.toList)
  | _ => none

/-- The value if it holds, else the other. -/
def orElse (d other : Document) : Document :=
  if d.holds then d else other

/-! ## Building -/

/-- Whether two scalars are one key. The value that is no number is one key, although it equals
nothing. -/
def sameKey (a b : Document) : Bool :=
  match a, b with
  | .float .nan, .float .nan => true
  | a, b => a.same b

/-- Store a field: in place on a known key, at the end on a new one. -/
def putField (fields : List (Document × Document)) (key value : Document) :
    List (Document × Document) :=
  match fields with
  | [] => [(key, value)]
  | (k, v) :: rest =>
    if k.sameKey key then (k, value) :: rest else (k, v) :: putField rest key value

/-- The object with these fields, the last value of a repeated key standing at its first place. -/
def ofFields (fields : List (Document × Document)) : Document :=
  .object (fields.foldl (fun acc p => putField acc p.1 p.2) [])

/-- The value with a text field replaced or added. -/
def withField (d : Document) (key : String) (value : Document) : Document :=
  match d with
  | .object fields => .object (putField fields (.text key) value)
  | d => d

/-! ## Measures -/

mutual
/-- How deep arrays, pairs and objects are nested. -/
def depth : Document → Nat
  | .array items => depthOfItems items + 1
  | .pair a b => max a.depth b.depth + 1
  | .object fields => depthOfFields fields + 1
  | _ => 0

/-- The greatest depth of an element. -/
def depthOfItems : List Document → Nat
  | [] => 0
  | d :: rest => max d.depth (depthOfItems rest)

/-- The greatest depth of a field's value. -/
def depthOfFields : List (Document × Document) → Nat
  | [] => 0
  | (_, d) :: rest => max d.depth (depthOfFields rest)
end

mutual
/-- How many fields there are in a document at all depths. -/
def fieldCount : Document → Nat
  | .array items => fieldCountOfItems items
  | .pair a b => a.fieldCount + b.fieldCount
  | .object fields => fieldCountOfFields fields
  | _ => 0

/-- The fields within the elements of an array. -/
def fieldCountOfItems : List Document → Nat
  | [] => 0
  | d :: rest => d.fieldCount + fieldCountOfItems rest

/-- The fields of an object and those within their values. -/
def fieldCountOfFields : List (Document × Document) → Nat
  | [] => 0
  | (_, d) :: rest => d.fieldCount + fieldCountOfFields rest + 1
end

end Document

end TypedApi
