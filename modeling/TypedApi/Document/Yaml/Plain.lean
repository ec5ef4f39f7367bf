import TypedApi.Document.Yaml.Cursor
/-!
Plain scalars: texts without quotes.

A plain scalar runs on until something that cannot be part of it: a colon with
a gap behind it, a comment, or the punctuation of a flow collection inside of
one. It may go on over lines that are indented further than what holds it; its
breaks fold as those of quoted scalars do.
-/

set_option autoImplicit false

namespace TypedApi.Document.Yaml

/-- The characters that delimit flow collections and their elements. -/
def isFlowMark (c : Char) : Bool :=
  c = ',' || c = '[' || c = ']' || c = '{' || c = '}'

/-- Whether a colon before this character ends a plain scalar. -/
def endsKey (inFlow : Bool) (next : Option Char) : Bool :=
  isGap next || (inFlow && next.any isFlowMark)

/-- The longest part of a plain scalar without blanks. -/
def plainRun (inFlow : Bool) : List Char → List Char
  | [] => []
  | c :: rest =>
    if isGap (some c) || (c = ':' && endsKey inFlow rest.head?) ||
        (inFlow && (isFlowMark c || c = '?')) then []
    else c :: plainRun inFlow rest

/-- The line breaks from here on, with the spaces before and after them dropped; `none` if a
document ends at one of them. -/
def plainBreaks : Nat → Cursor → Option (List Char) × Cursor
  | 0, c => (some [], c)
  | fuel + 1, c =>
    let c := c.skipWhile (· = ' ')
    match c.lineBreak? with
    | none => (some [], c)
    | some (b, next) =>
      if next.atSeparator then (none, next)
      else
        match plainBreaks fuel next with
        | (some breaks, after) => (some (b :: breaks), after)
        | (none, after) => (none, after)

/-- What lies between two parts of a plain scalar: the characters it stands for, none if the
scalar is over; and whether there is a line break in it. -/
def plainGap (c : Cursor) : List Char × Bool × Cursor :=
  let (blanks, c) := c.span (· = ' ')
  match c.lineBreak? with
  | none => (blanks, false, c)
  | some (b, next) =>
    if next.atSeparator then ([], true, next)
    else
      match plainBreaks next.rest.length next with
      | (none, after) => ([], true, after)
      | (some breaks, after) =>
        let folded := if b ≠ '\n' then [b] else if breaks.isEmpty then [' '] else []
        (folded ++ breaks, true, after)

/-- A plain scalar as it was read. -/
structure PlainReading where
  text : List Char
  /-- Whether it was followed by a line break. -/
  broken : Bool
  cursor : Cursor

/-- The rest of a plain scalar after `chars`, with the gap before it. -/
def plainFrom (inFlow : Bool) (indent : Int) :
    Nat → List Char → List Char → Bool → Cursor → PlainReading
  | 0, chars, _, broken, c => ⟨chars, broken, c⟩
  | fuel + 1, chars, gap, broken, c =>
    let run := if c.peek = some '#' then [] else plainRun inFlow c.rest
    if run.isEmpty then ⟨chars, broken, c⟩
    else
      let chars := chars ++ gap ++ run
      let (gap, broken, next) := plainGap (c.skip run.length)
      if gap.isEmpty || next.peek = some '#' || (!inFlow && next.column < indent) then
        ⟨chars, broken, next⟩
      else plainFrom inFlow indent fuel chars gap broken next

/-- A plain scalar that may go on over lines indented at least as far as given. -/
def plainScalar (inFlow : Bool) (indent : Int) (c : Cursor) : PlainReading :=
  plainFrom inFlow indent (c.rest.length + 1) [] [] false c

/-- Whether a plain scalar can begin here. -/
def startsPlain (inFlow : Bool) (c : Cursor) : Bool :=
  match c.peek with
  | none => false
  | some ch =>
    !(isGap (some ch) || "-?:,[]\x7b\x7d#&*!|>'\"%@\x60".toList.contains ch) ||
      (!isGap (c.peekAt 1) && (ch = '-' || (!inFlow && (ch = '?' || ch = ':'))))

end TypedApi.Document.Yaml
