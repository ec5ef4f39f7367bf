import TypedApi.Text.Half
import TypedApi.Text.Printable
/-!
Quoted texts.

Three written forms of a text. `doubleQuoted` stands between double quotes and
is plain ASCII: everything outside the printable ASCII characters is written
by its UTF-16 units. `jsonQuoted` differs from it in keeping all characters
above the control characters. `shown` is the form used in messages: single
quotes, or double quotes where that saves an escape, with printable characters
of all scripts kept. `shownBytes` is that form for bytes.
-/

set_option autoImplicit false

namespace TypedApi.Text

/-- Exactly `width` lower-case hexadecimal digits of a number, the most significant first. -/
def hex : Nat → Nat → List Char
  | 0, _ => []
  | width + 1, n => hex width (n / 16) ++ [Nat.digitChar (n % 16)]

/-- The UTF-16 units of a character; the stand-in for half a pair is the one unit it stands for. -/
def units16 (c : Char) : List Nat :=
  if c.toNat < 0x10000 then [c.toNat]
  else if let some u := halfUnit? c then [u]
  else
    let n := c.toNat - 0x10000
    [0xd800 + n / 0x400, 0xdc00 + n % 0x400]

/-- The escape of a character that has a letter of its own, in the two double-quoted forms. -/
def letterEscape? : Char → Option (List Char)
  | '"' => some ['\\', '"']
  | '\\' => some ['\\', '\\']
  | '\n' => some ['\\', 'n']
  | '\r' => some ['\\', 'r']
  | '\t' => some ['\\', 't']
  | '\x08' => some ['\\', 'b']
  | '\x0c' => some ['\\', 'f']
  | _ => none

/-- One character between double quotes, in ASCII. -/
def escapeAscii (c : Char) : List Char :=
  match letterEscape? c with
  | some e => e
  | none =>
    if 0x20 ≤ c.toNat && c.toNat ≤ 0x7e then [c]
    else (units16 c).flatMap fun u => '\\' :: 'u' :: hex 4 u

/-- A text between double quotes, in ASCII. -/
def doubleQuoted (s : String) : String :=
  String.ofList ('"' :: (s.toList.flatMap escapeAscii ++ ['"']))

/-- One character between double quotes, keeping all but the control characters. -/
def escapeControl (c : Char) : List Char :=
  match letterEscape? c with
  | some e => e
  | none => if c.toNat < 0x20 then '\\' :: 'u' :: hex 4 c.toNat else [c]

/-- A text between double quotes, keeping all but the control characters. -/
def jsonQuoted (s : String) : String :=
  String.ofList ('"' :: (s.toList.flatMap escapeControl ++ ['"']))

/-- One character of a shown text between the given quotes. -/
def escapeShown (quote c : Char) : List Char :=
  if c = quote || c = '\\' then ['\\', c]
  else if c = '\n' then ['\\', 'n']
  else if c = '\r' then ['\\', 'r']
  else if c = '\t' then ['\\', 't']
  else if isPrintable c then [c]
  else if let some u := halfUnit? c then '\\' :: 'u' :: hex 4 u
  else if c.toNat < 0x100 then '\\' :: 'x' :: hex 2 c.toNat
  else if c.toNat < 0x10000 then '\\' :: 'u' :: hex 4 c.toNat
  else '\\' :: 'U' :: hex 8 c.toNat

/-- The quote around shown characters: double exactly when there are single quotes among them and
no double ones. -/
def shownQuote (cs : List Char) : Char :=
  if cs.contains '\'' && !cs.contains '"' then '"' else '\''

/-- A text as messages show it. -/
def shown (s : String) : String :=
  let quote := shownQuote s.toList
  String.ofList (quote :: (s.toList.flatMap (escapeShown quote) ++ [quote]))

/-- One of some shown bytes between the given quotes: those of printable ASCII characters as these
characters, all others by their number. -/
def escapeByte (quote : Char) (b : UInt8) : List Char :=
  if b < 0x80 then escapeShown quote (Char.ofNat b.toNat) else '\\' :: 'x' :: hex 2 b.toNat

/-- Bytes as messages show them. -/
def shownBytes (bs : List UInt8) : String :=
  let quote := shownQuote (bs.map fun b => Char.ofNat b.toNat)
  String.ofList ('b' :: quote :: (bs.flatMap (escapeByte quote) ++ [quote]))

end TypedApi.Text
