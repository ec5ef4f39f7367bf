import TypedApi.Failure
import TypedApi.Text.Digit
/-!
Following references inside a document.

A reference within a document is a number sign and a path of segments, each
after a slash; in a segment `~1` stands for a slash and `~0` for a tilde. A
segment is a key of an object or a numeral that counts into an array, from the
end if it is negative.

A value that is a reference itself leads on. `chain` lists the links of such a
walk. A walk that meets a reference twice would never end, and fails; one that
does not can take no more steps than there are fields in the document.
-/

set_option autoImplicit false

namespace TypedApi.Document

/-- Replace `~` with the given digit after it by a character. -/
def replaceEscape (digit character : Char) : List Char → List Char
  | [] => []
  | '~' :: c :: rest =>
    if c = digit then character :: replaceEscape digit character rest
    else '~' :: replaceEscape digit character (c :: rest)
  | c :: rest => c :: replaceEscape digit character rest

/-- The text that a segment stands for. -/
def unescapeSegment (cs : List Char) : List Char :=
  replaceEscape '0' '~' (replaceEscape '1' '/' cs)

/-- The segment that stands for a text. -/
def escapeSegment (cs : List Char) : List Char :=
  cs.flatMap fun c => if c = '~' then ['~', '0'] else if c = '/' then ['~', '1'] else [c]

/-- The element of an array at an index, a negative one counting from the end. -/
def elementAt? (items : List Document) (index : Int) : Option Document :=
  let i := if index < 0 then index + items.length else index
  if i < 0 then none else items[i.toNat]?

/-- One step of a path. -/
def stepInto (reference : String) (current : Document) (segment : String) :
    Except Failure Document :=
  match current with
  | .object fields =>
    match lookup? segment fields with
    | some d => .ok d
    | none => fail (.source (.missingKey reference segment))
  | .array items =>
    match (Text.integer? segment).bind (elementAt? items) with
    | some d => .ok d
    | none => fail (.source (.badIndex reference segment))
  | d => fail (.source (.notNavigable reference d.kindName))

/-- The segments of a reference within the document. -/
def segments? (reference : String) : Option (List String) :=
  match reference.toList with
  | '#' :: '/' :: rest =>
    some ((Text.splitAt '/' rest).map fun s => String.ofList (unescapeSegment s))
  | _ => none

/-- The value at a reference. -/
def resolve (document : Document) (reference : String) : Except Failure Document :=
  match segments? reference with
  | some segments => segments.foldlM (stepInto reference) document
  | none => fail (.source (.externalPointer reference))

/-- A link of a walk: a reference and the value there. -/
structure Link where
  reference : String
  target : Document
deriving Repr

/-- The links of a walk from a value on, given the references met before. The fuel bounds the
count of links. -/
def chainFrom (document : Document) : Nat → List String → Document → Except Failure (List Link)
  | 0, _, _ => .ok []
  | fuel + 1, seen, value =>
    match value.find? "$ref" with
    | none => .ok []
    | some (.text reference) =>
      if seen.contains reference then fail (.source (.circular reference))
      else
        match document.resolve reference with
        | .error e => .error e
        | .ok target =>
          match chainFrom document fuel (reference :: seen) target with
          | .error e => .error e
          | .ok links => .ok (⟨reference, target⟩ :: links)
    | some _ => .error .malformed

/-- The links of a walk from a value on. -/
def chain (document value : Document) : Except Failure (List Link) :=
  chainFrom document (document.fieldCount + 2) [] value

/-- The value at the end of a walk; a value that is no reference is that itself. -/
def follow (document value : Document) : Except Failure Document :=
  (chain document value).map fun links => (links.getLast?.map Link.target).getD value

/-- Whether a failure says that a reference leads nowhere, rather than that a value is malformed. -/
def isSourceFailure (f : Failure) : Bool :=
  f.problem.kind = .source

/-- The reference that a value is, empty if it is none. -/
def referenceText (value : Document) : String :=
  ((value.find? "$ref").bind text?).getD ""

/-- A failure to follow a reference, blamed on the reference. -/
def blameReference {α : Type} (reference : String) (e : Except Failure α) : Except Failure α :=
  match e with
  | .ok a => .ok a
  | .error f =>
    if isSourceFailure f then .error ⟨.unknownReference reference, some (.problem f.problem)⟩
    else .error f

/-- The value at the end of a walk, a walk that leads nowhere being blamed on the reference it
began with. -/
def followOrBlame (document value : Document) : Except Failure Document :=
  blameReference (referenceText value) (follow document value)

end TypedApi.Document
