import TypedApi.Text.Blank
import TypedApi.Text.Utf8
/-!
Charsets of responses.

A response is sent as bytes, and the type of its content may name the charset in
which they are to be read. Bytes that have no character there are read as the
replacement character. A charset that is not named or not known is UTF-8.
-/

set_option autoImplicit false

namespace TypedApi.Docs

/-- The charsets that bytes are read in. -/
inductive Charset where
  | utf8
  | markedUtf8
  | ascii
  | latin1
  | windows1252
deriving DecidableEq, Repr

namespace Charset

/-- A name of a charset in the form in which names are compared: without case, and with one
underscore for each run of other signs. -/
def nameForm : List Char → List Char
  | [] => []
  | c :: rest =>
    if c.isAlphanum || c = '.' then c.toLower :: nameForm rest
    else
      match nameForm rest with
      | '_' :: form => '_' :: form
      | form => '_' :: form

/-- The charset of a name. -/
def ofName? (name : List Char) : Option Charset :=
  match String.ofList (nameForm name) with
  | "utf_8" | "utf8" | "utf" | "u8" | "utf8_ucs2" | "utf8_ucs4" | "cp65001" => some .utf8
  | "utf_8_sig" => some .markedUtf8
  | "ascii" | "us_ascii" | "us" | "646" | "cp367" | "csascii" | "ibm367" | "iso646_us" | "iso_ir_6"
  | "ansi_x3.4_1968" | "ansi_x3_4_1968" | "ansi_x3.4_1986" | "iso_646.irv_1991" => some .ascii
  | "latin_1" | "latin1" | "latin" | "l1" | "8859" | "iso8859" | "iso8859_1" | "iso_8859_1"
  | "iso_8859_1_1987" | "iso_ir_100" | "cp819" | "ibm819" | "csisolatin1" => some .latin1
  | "cp1252" | "windows_1252" | "1252" => some .windows1252
  | _ => none

/-- The code points of the bytes from 0x80 to 0x9f in the charset of Windows. -/
def windowsRow : List Nat :=
  [0x20ac, 0xfffd, 0x201a, 0x192, 0x201e, 0x2026, 0x2020, 0x2021, 0x2c6, 0x2030, 0x160, 0x2039,
   0x152, 0xfffd, 0x17d, 0xfffd, 0xfffd, 0x2018, 0x2019, 0x201c, 0x201d, 0x2022, 0x2013, 0x2014,
   0x2dc, 0x2122, 0x161, 0x203a, 0x153, 0xfffd, 0x17e, 0x178]

/-- The character of a byte in the charset of Windows. -/
def windowsChar (b : UInt8) : Char :=
  if 0x80 ≤ b && b < 0xa0 then Char.ofNat (windowsRow.getD (b.toNat - 0x80) 0xfffd)
  else Char.ofNat b.toNat

/-- The text that bytes spell in a charset. -/
def read : Charset → List UInt8 → List Char
  | .utf8, bs => Text.ofBytes bs
  | .markedUtf8, bs => Text.ofBytes (if [0xef, 0xbb, 0xbf].isPrefixOf bs then bs.drop 3 else bs)
  | .ascii, bs => bs.map fun b => if b < 0x80 then Char.ofNat b.toNat else Text.replacement
  | .latin1, bs => bs.map fun b => Char.ofNat b.toNat
  | .windows1252, bs => bs.map windowsChar

/-! ## Types of content -/

/-- The pieces of a type of content: a semicolon between two of them counts only outside quotes.
`quoted` tells whether the text begins inside. -/
def pieces (quoted : Bool) : List Char → List (List Char)
  | [] => [[]]
  | ';' :: rest =>
    if quoted then
      match pieces quoted rest with
      | piece :: others => (';' :: piece) :: others
      | [] => [[';']]
    else [] :: pieces quoted rest
  | c :: rest =>
    match pieces (quoted != (c = '"')) rest with
    | piece :: others => (c :: piece) :: others
    | [] => [[c]]

/-- A value without the quotes around it. -/
def unquoted (cs : List Char) : List Char :=
  if 1 < cs.length && cs.head? = some '"' && cs.getLast? = some '"' then (cs.drop 1).dropLast else cs

/-- The value of a piece that sets a parameter, or `none` if it sets another one or none. -/
def valueOf? (parameter : String) (piece : List Char) : Option (List Char) :=
  let name := Text.stripChars (piece.takeWhile (· ≠ '='))
  let value := Text.stripChars ((piece.dropWhile (· ≠ '=')).drop 1)
  if String.ofList (name.map Char.toLower) = parameter then some (unquoted value) else none

/-- The charset that a type of content names. -/
def ofContentType (contentType : String) : Charset :=
  (((pieces false contentType.toList).findSome? (valueOf? "charset")).bind ofName?).getD .utf8

end Charset

end TypedApi.Docs
