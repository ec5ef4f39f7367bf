import TypedApi.Document.Basic
import TypedApi.Text.Case
import TypedApi.Text.Digit
/-!
Reading a value as one of a wanted type.

Options and settings are written by hand, so a flag may be a Boolean, one or
zero, or a word for it, and a count may be written as a text. A text may come
as the bytes of one. What a value spells is decided here and nowhere else;
`none` means that it spells nothing of the type.
-/

set_option autoImplicit false

namespace TypedApi.Document

/-- The text that a value spells: a text spells itself, and bytes may spell one in UTF-8. -/
def asText? : Document → Option String
  | .text s => some s
  | .bytes bs => String.fromUTF8? ⟨bs.toArray⟩
  | _ => none

/-- The words for false. -/
def falseWords : List String :=
  ["0", "off", "f", "false", "n", "no"]

/-- The words for true. -/
def trueWords : List String :=
  ["1", "on", "t", "true", "y", "yes"]

/-- The Boolean that a word spells, in any letter case. -/
def flagWord? (s : String) : Option Bool :=
  let word := Text.lowerAscii s
  if falseWords.contains word then some false
  else if trueWords.contains word then some true
  else none

/-- The Boolean that a value spells: a Boolean, one or zero, or one of the usual words. -/
def flag? : Document → Option Bool
  | .bool b => some b
  | .int 0 => some false
  | .int 1 => some true
  | .float x => if x.toInt? = some 0 then some false else if x.toInt? = some 1 then some true else none
  | d => d.asText?.bind flagWord?

/-- A numeral without a decimal point that has only zeros after it, or nothing. -/
def dropZeroFraction (cs : List Char) : List Char :=
  let whole := cs.takeWhile (· ≠ '.')
  if (cs.drop (whole.length + 1)).all (· = '0') then whole else cs

/-- The natural number that ASCII digits spell, with single underscores between them. -/
def asciiNatural? (cs : List Char) : Option Nat :=
  if cs.all fun c => c.isDigit || c = '_' then Text.natural? cs else none

/-- The integer that a text spells: an ASCII numeral with a sign or without, a fraction of zeros
and blank characters at both ends being admitted. -/
def integerText? (s : String) : Option Int :=
  match dropZeroFraction (Text.trimMargin s.toList) with
  | '-' :: cs => (asciiNatural? cs).map fun n => -(n : Int)
  | '+' :: cs => (asciiNatural? cs).map fun n => (n : Int)
  | cs => (asciiNatural? cs).map fun n => (n : Int)

/-- The integer that a value spells. A number with a fraction spells none, and neither does a
floating-point number beyond the range of 64 bits. -/
def count? : Document → Option Int
  | .bool b => some (if b then 1 else 0)
  | .int n => some n
  | .float x =>
    match x.toInt? with
    | some n => if n.natAbs < Nat.pow 2 63 then some n else none
    | none => none
  | d => d.asText?.bind integerText?

end TypedApi.Document
