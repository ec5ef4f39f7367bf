import TypedApi.Document.Json.Reader
import TypedApi.Document.Yaml.Cursor
/-!
Tags: what a node says about its kind.

A written tag is a handle with a suffix, or an address in angle brackets. The
handle stands for the beginning of an address; two handles are known from the
start and a document may declare more. Of the addresses only those of the core
kinds mean something here.
-/

set_option autoImplicit false

namespace TypedApi.Document.Yaml

/-- A kind of node. -/
inductive Tag where
  | null
  | bool
  | int
  | float
  | text
  | bytes
  | moment
  | sequence
  | mapping
  /-- A sequence of pairs, each written as a mapping with one entry. -/
  | pairs
  /-- A mapping of which only the keys count. -/
  | collection
  /-- The key under which a mapping takes over the fields of others. -/
  | merge
  /-- The key that stands for a default value. -/
  | default
  | unknown
deriving DecidableEq, Repr, Inhabited

/-- A tag as it is written; without a handle the suffix is the whole address. -/
structure WrittenTag where
  handle : Option String
  suffix : String
deriving DecidableEq, Repr, Inhabited

/-- What the addresses of the core kinds begin with. -/
def coreAddress : String := "tag:yaml.org,2002:"

/-- The kinds by the last part of their addresses. -/
def coreTags : List (String × Tag) :=
  [("null", .null), ("bool", .bool), ("int", .int), ("float", .float), ("str", .text),
   ("binary", .bytes), ("timestamp", .moment), ("seq", .sequence), ("map", .mapping),
   ("omap", .pairs), ("pairs", .pairs), ("set", .collection), ("merge", .merge),
   ("value", .default)]

/-- The kind at an address. -/
def Tag.ofAddress (address : String) : Tag :=
  match coreTags.find? fun p => coreAddress ++ p.1 = address with
  | some p => p.2
  | none => .unknown

/-- The handles that are known from the start. -/
def knownHandles : List (String × String) :=
  [("!", "!"), ("!!", coreAddress)]

/-! ## Reading tags -/

/-- Whether a character can be part of a name. -/
def isNameChar (c : Char) : Bool :=
  c.isAlphanum || c = '-' || c = '_'

/-- Whether a character can be part of an address; a percent sign begins an escape there. -/
def isAddressChar (c : Char) : Bool :=
  c.isAlphanum || "-;/?:@&=+$,_.!~*'()[]".toList.contains c

/-- The bytes of a run of escapes and the place after it. -/
def escapedBytes : Nat → Cursor → Except Fault (List UInt8 × Cursor)
  | 0, c => .ok ([], c)
  | fuel + 1, c =>
    match c.rest with
    | '%' :: a :: b :: _ =>
      match Json.hexValue? a, Json.hexValue? b with
      | some m, some n => do
        let (octets, after) ← escapedBytes fuel (c.skip 3)
        return (UInt8.ofNat (m * 16 + n) :: octets, after)
      | _, _ => .error .unreadable
    | '%' :: _ => .error .unreadable
    | _ => .ok ([], c)

/-- An address from here on; `read` is what came before. -/
def addressFrom : Nat → List Char → Cursor → Except Fault (List Char × Cursor)
  | 0, read, c => .ok (read, c)
  | fuel + 1, read, c =>
    match c.peek with
    | some '%' => do
      let (octets, after) ← escapedBytes (c.rest.length + 1) c
      match String.fromUTF8? ⟨octets.toArray⟩ with
      | some s => addressFrom fuel (read ++ s.toList) after
      | none => .error .unreadable
    | some ch =>
      if isAddressChar ch then
        let (run, after) := c.span isAddressChar
        addressFrom fuel (read ++ run) after
      else .ok (read, c)
    | none => .ok (read, c)

/-- An address, which is not empty. -/
def address (c : Cursor) : Except Fault (String × Cursor) := do
  let (chars, after) ← addressFrom (c.rest.length + 1) [] c
  if chars.isEmpty then throw .unreadable
  return (String.ofList chars, after)

/-- A handle: an exclamation mark, or a name between two of them. -/
def handle (c : Cursor) : Except Fault (String × Cursor) :=
  if c.peek ≠ some '!' then .error .unreadable
  else if c.peekAt 1 = some ' ' then .ok ("!", c.step)
  else
    let (name, after) := c.step.span isNameChar
    if after.peek = some '!' then .ok (String.ofList ('!' :: name ++ ['!']), after.step)
    else .error .unreadable

/-- A tag; the cursor is at its exclamation mark. -/
def writtenTag (c : Cursor) : Except Fault (WrittenTag × Cursor) := do
  let (tag, c) ←
    if c.peekAt 1 = some '<' then do
      let (suffix, after) ← address (c.skip 2)
      if after.peek = some '>' then pure (WrittenTag.mk none suffix, after.step)
      else throw .unreadable
    else if isGap (c.peekAt 1) then pure (WrittenTag.mk none "!", c.step)
    else do
      let word := c.step.rest.takeWhile fun ch => !isSpaceOrEnd (some ch)
      let (h, after) ← if word.contains '!' then handle c else pure ("!", c.step)
      let (suffix, after) ← address after
      pure (WrittenTag.mk (some h) suffix, after)
  if isSpaceOrEnd c.peek then return (tag, c) else throw .unreadable

end TypedApi.Document.Yaml
