import TypedApi.Text.Blank
import TypedApi.Text.Quoted
/-!
Documentation in generated code.

A documentation text stands either in a string literal between triple quotes,
right under the head of what it documents, or in comment lines above it. Blank
texts are left out, and blank characters around a text are dropped. Bytes can
stand in comment lines too, each line shown as bytes are.
-/

set_option autoImplicit false

namespace TypedApi.Bindings

/-- Spaces up to an indentation. -/
def pad (indent : Nat) : List Char :=
  List.replicate indent ' '

/-- Three quotes, which open and close a documentation literal. -/
def tripleQuote : List Char :=
  ['"', '"', '"']

/-- Put a backslash before every quote of a run of three. -/
def guardQuotes : List Char → List Char
  | [] => []
  | '"' :: '"' :: '"' :: rest => '\\' :: '"' :: '\\' :: '"' :: '\\' :: '"' :: guardQuotes rest
  | c :: rest => c :: guardQuotes rest

/-- A text with every backslash doubled. -/
def doubleBackslashes (cs : List Char) : List Char :=
  cs.flatMap fun c => if c = '\\' then ['\\', '\\'] else [c]

/-- The characters of a documentation literal for a text without blank ends. -/
def literalBody (cs : List Char) : List Char :=
  guardQuotes (doubleBackslashes cs)

/-- A line with a backslash before its last character if that is a quote. -/
def guardLast (line : List Char) : List Char :=
  match line.reverse with
  | '"' :: rest => rest.reverse ++ ['\\', '"']
  | _ => line

/-- A later line of a documentation literal; a blank one is empty. -/
def laterLine (indent : Nat) (line : List Char) : List Char :=
  if line.all Text.isBlank then [] else pad indent ++ line

/-- The lines of a documentation literal. A text of one line closes on it, a longer one on a line
of its own. -/
def literalLines (indent : Nat) : List (List Char) → List (List Char)
  | [] => []
  | [line] => [pad indent ++ tripleQuote ++ guardLast line ++ tripleQuote]
  | line :: rest =>
    (pad indent ++ tripleQuote ++ line) :: rest.map (laterLine indent) ++ [pad indent ++ tripleQuote]

/-- A text as a documentation literal at an indentation; none for a blank text. -/
def docLiteral? (text : String) (indent : Nat) : Option String :=
  let stripped := Text.stripChars text.toList
  if stripped.isEmpty then none
  else
    some (String.ofList
      (List.intercalate ['\n'] (literalLines indent (Text.lines (literalBody stripped)))))

/-- A text as comment lines; none for a blank text. -/
def commentLines (text : String) : List String :=
  (Text.lines (Text.stripChars text.toList)).map fun line =>
    String.ofList (Text.stripRight ('#' :: ' ' :: line))

/-! ## Bytes -/

/-- Whether a byte is that of a blank ASCII character. -/
def isBlankByte (b : UInt8) : Bool :=
  b = 0x20 || (0x9 ≤ b && b ≤ 0xd)

/-- Bytes without the blank ones at both ends. -/
def stripBytes (bs : List UInt8) : List UInt8 :=
  ((bs.dropWhile isBlankByte).reverse.dropWhile isBlankByte).reverse

/-- The lines of bytes: `current` is the line begun so far, reversed. Only line feeds and carriage
returns end lines here. -/
def byteLinesFrom (current : List UInt8) : List UInt8 → List (List UInt8)
  | [] => if current.isEmpty then [] else [current.reverse]
  | 0x0d :: 0x0a :: rest => current.reverse :: byteLinesFrom [] rest
  | b :: rest =>
    if b = 0x0a || b = 0x0d then current.reverse :: byteLinesFrom [] rest
    else byteLinesFrom (b :: current) rest

/-- Bytes as comment lines; none for blank bytes. -/
def byteCommentLines (bs : List UInt8) : List String :=
  (byteLinesFrom [] (stripBytes bs)).map fun line => "# " ++ Text.shownBytes line

end TypedApi.Bindings
