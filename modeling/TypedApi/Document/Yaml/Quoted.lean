import TypedApi.Document.Json.Reader
import TypedApi.Document.Yaml.Cursor
/-!
Quoted scalars.

Between single quotes only a doubled quote is special; between double quotes a
backslash begins an escape. In both a line break folds: one alone becomes a
space, and of several all but the first are kept. Blanks around a break are
dropped.
-/

set_option autoImplicit false

namespace TypedApi.Document.Yaml

/-- The character that a letter stands for after a backslash. -/
def letterEscape? : Char → Option Char
  | '0' => some '\x00'
  | 'a' => some '\x07'
  | 'b' => some '\x08'
  | 't' => some '\t'
  | '\t' => some '\t'
  | 'n' => some '\n'
  | 'v' => some '\x0b'
  | 'f' => some '\x0c'
  | 'r' => some '\r'
  | 'e' => some '\x1b'
  | ' ' => some ' '
  | '"' => some '"'
  | '\\' => some '\\'
  | '/' => some '/'
  | 'N' => some '\x85'
  | '_' => some '\xa0'
  | 'L' => some '\u2028'
  | 'P' => some '\u2029'
  | _ => none

/-- How many hexadecimal digits follow a letter after a backslash. -/
def codeLength? : Char → Option Nat
  | 'x' => some 2
  | 'u' => some 4
  | 'U' => some 8
  | _ => none

/-- The character that hexadecimal digits stand for. -/
def codeChar? (digits : List Char) : Except Fault Char :=
  match digits.mapM Json.hexValue? with
  | none => .error .unreadable
  | some values =>
    let code := values.foldl (fun n d => n * 16 + d) 0
    if code ≤ 0x10ffff then .ok (Text.unitChar code) else .error .malformed

/-- The line breaks from here on, with the blanks around them dropped. -/
def quotedBreaks : Nat → Cursor → Except Fault (List Char × Cursor)
  | 0, c => .ok ([], c)
  | fuel + 1, c =>
    if c.atSeparator then .error .unreadable
    else
      let c := c.skipWhile fun ch => ch = ' ' || ch = '\t'
      match c.lineBreak? with
      | none => .ok ([], c)
      | some (b, next) => do
        let (breaks, after) ← quotedBreaks fuel next
        return (b :: breaks, after)

/-- What blanks and breaks inside a quoted scalar stand for. -/
def quotedGap (c : Cursor) : Except Fault (List Char × Cursor) :=
  let (blanks, c) := c.span fun ch => ch = ' ' || ch = '\t'
  match c.lineBreak? with
  | none => if c.peek.isNone then .error .unreadable else .ok (blanks, c)
  | some (b, next) => do
    let (breaks, after) ← quotedBreaks next.rest.length next
    let folded := if b ≠ '\n' then [b] else if breaks.isEmpty then [' '] else []
    return (folded ++ breaks, after)

/-- What an escape stands for; the cursor is after its backslash. -/
def quotedEscape (c : Cursor) : Except Fault (List Char × Cursor) :=
  match c.peek with
  | none => .error .unreadable
  | some letter =>
    match letterEscape? letter, codeLength? letter with
    | some ch, _ => .ok ([ch], c.step)
    | none, some n => do
      let digits := c.step.rest.take n
      if digits.length < n then .error .unreadable
      else return ([← codeChar? digits], c.step.skip n)
    | none, none =>
      match c.lineBreak? with
      | some (_, next) => quotedBreaks next.rest.length next
      | none => .error .unreadable

/-- The rest of a quoted scalar; `read` is what came before, reversed. -/
def quotedFrom (double : Bool) : Nat → List Char → Cursor → Except Fault (String × Cursor)
  | 0, _, _ => .error .unreadable
  | fuel + 1, read, c =>
    match c.rest with
    | [] => .error .unreadable
    | ch :: rest =>
      if ch = (if double then '"' else '\'') then
        if !double && rest.head? = some '\'' then quotedFrom double fuel ('\'' :: read) (c.skip 2)
        else .ok (String.ofList read.reverse, c.step)
      else if double && ch = '\\' then do
        let (chars, next) ← quotedEscape c.step
        quotedFrom double fuel (chars.reverse ++ read) next
      else if ch = ' ' || ch = '\t' || isBreak ch then do
        let (chars, next) ← quotedGap c
        quotedFrom double fuel (chars.reverse ++ read) next
      else quotedFrom double fuel (ch :: read) c.step

/-- A quoted scalar; the cursor is at its opening quote. -/
def quotedScalar (double : Bool) (c : Cursor) : Except Fault (String × Cursor) :=
  quotedFrom double (c.rest.length + 1) [] c.step

end TypedApi.Document.Yaml
