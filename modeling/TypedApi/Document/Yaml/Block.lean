import TypedApi.Document.Yaml.Cursor
/-!
Block scalars: texts set off by their indentation.

A literal one keeps its line breaks. A folded one turns the break between two
lines into a space, unless one of them begins with a blank or there are empty
lines between them. What is kept of the breaks at the end is said by the head
of the scalar: by default the last break of the text, with a minus nothing,
with a plus all.
-/

set_option autoImplicit false

namespace TypedApi.Document.Yaml

/-- What is kept of the line breaks at the end. -/
inductive Chomping where
  | clip
  | strip
  | keep
deriving DecidableEq, Repr

/-- A mark that says what is kept. -/
def chomping? : Char → Option Chomping
  | '+' => some .keep
  | '-' => some .strip
  | _ => none

/-- A digit that gives the indentation. -/
def indentation? (c : Char) : Option Nat :=
  if '0' ≤ c && c ≤ '9' then some (c.toNat - 48) else none

/-- The head of a block scalar after its first character: what is kept, and the indentation if it
is given. The two may come in either order. -/
def blockHead (c : Cursor) : Except Fault (Chomping × Option Nat × Cursor) :=
  let (kept, c) :=
    match c.peek.bind chomping? with
    | some k => (some k, c.step)
    | none => (none, c)
  let (width, c) :=
    match c.peek.bind indentation? with
    | some n => (some n, c.step)
    | none => (none, c)
  let (kept, c) :=
    match kept, width, c.peek.bind chomping? with
    | none, some _, some k => (some k, c.step)
    | kept, _, _ => (kept, c)
  if width = some 0 || !isSpaceOrEnd c.peek then .error .unreadable
  else .ok (kept.getD .clip, width, c)

/-- The empty lines before the text of a block scalar, and the greatest column reached in them or
before the text. -/
def leadingBreaks : Nat → Nat → Cursor → List Char × Nat × Cursor
  | 0, widest, c => ([], widest, c)
  | fuel + 1, widest, c =>
    if c.peek = some ' ' then leadingBreaks fuel (max widest c.step.column) c.step
    else
      match c.lineBreak? with
      | some (b, next) =>
        let (breaks, widest, after) := leadingBreaks fuel widest next
        (b :: breaks, widest, after)
      | none => ([], widest, c)

/-- Go on over spaces up to a column. -/
def skipIndent (indent : Nat) (c : Cursor) : Cursor :=
  c.skip (((c.rest.takeWhile (· = ' ')).length).min (indent - c.column))

/-- The line breaks from here on, with the indentation of the lines between them dropped. -/
def blockBreaks (indent : Nat) : Nat → Cursor → List Char × Cursor
  | 0, c => ([], c)
  | fuel + 1, c =>
    let c := skipIndent indent c
    match c.lineBreak? with
    | none => ([], c)
    | some (b, next) =>
      let (breaks, after) := blockBreaks indent fuel next
      (b :: breaks, after)

/-- Whether a line begins with a blank. -/
def startsBlank (c : Cursor) : Bool :=
  c.peek = some ' ' || c.peek = some '\t'

/-- The text of a block scalar as it was read: the text up to its last line, the break after that,
and the breaks of the empty lines that follow. -/
structure BlockReading where
  text : List Char
  lastBreak : List Char
  breaks : List Char
  cursor : Cursor

/-- The lines of a block scalar from here on. -/
def blockLines (folded : Bool) (indent : Nat) :
    Nat → List Char → List Char → List Char → Cursor → BlockReading
  | 0, chars, last, breaks, c => ⟨chars, last, breaks, c⟩
  | fuel + 1, chars, last, breaks, c =>
    if c.column ≠ indent || c.peek.isNone then ⟨chars, last, breaks, c⟩
    else
      let flush := !startsBlank c
      let (line, c) := c.span (!isBreak ·)
      let chars := chars ++ breaks ++ line
      let (last, next) :=
        match c.lineBreak? with
        | some (b, next) => ([b], next)
        | none => ([], c)
      let (breaks, next) := blockBreaks indent (next.rest.length + 1) next
      if next.column ≠ indent || next.peek.isNone then ⟨chars, last, breaks, next⟩
      else if folded && last = ['\n'] && flush && !startsBlank next then
        blockLines folded indent fuel (chars ++ if breaks.isEmpty then [' '] else []) last breaks next
      else blockLines folded indent fuel (chars ++ last) last breaks next

/-- A block scalar inside of something that is indented so far; the cursor is at its first
character. -/
def blockScalar (folded : Bool) (parent : Int) (c : Cursor) : Except Fault (String × Cursor) := do
  let (kept, width, c) ← blockHead c.step
  let c ← c.skipIgnored
  let least := (parent + 1).toNat.max 1
  let (breaks, indent, c) :=
    match width with
    | none =>
      let (breaks, widest, c) := leadingBreaks (c.rest.length + 1) 0 c
      (breaks, least.max widest, c)
    | some n =>
      let indent := least + n - 1
      let (breaks, c) := blockBreaks indent (c.rest.length + 1) c
      (breaks, indent, c)
  let reading := blockLines folded indent (c.rest.length + 1) [] [] breaks c
  let ending :=
    match kept with
    | .strip => []
    | .clip => reading.lastBreak
    | .keep => reading.lastBreak ++ reading.breaks
  return (String.ofList (reading.text ++ ending), reading.cursor)

end TypedApi.Document.Yaml
