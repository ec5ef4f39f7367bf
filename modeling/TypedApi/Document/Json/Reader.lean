import TypedApi.Document.Basic
import TypedApi.Text.Digit
import TypedApi.Text.Half
/-!
Reading JSON text.

The grammar is the standard one with three further words for the numbers that
have no digits: `NaN`, `Infinity` and `-Infinity`. A number with a fraction or
an exponent is a float, any other an integer. Control characters must be
escaped inside texts. Of a key that comes twice the last value counts and the
first place.

Each reader takes the rest of the text and returns what it read with what is
left. A reader never goes on past the point where the text stops being JSON,
so `unreadable` means that the text is not JSON. It is `malformed` if it has an
integer with too many digits before the first such point, and `tooDeep` if it is
nested too deep there. The fuel is more than twice the length of the text: of
two steps that spend some, one at least has taken a character.
-/

set_option autoImplicit false

namespace TypedApi.Document.Json

/-- What a reader makes of a text: a value and the rest. -/
abbrev Reading (α : Type) := Except Fault (α × List Char)

/-- An answer that is missing because the text is not JSON. -/
def orUnreadable {α : Type} : Option α → Except Fault α
  | some a => .ok a
  | none => .error .unreadable

/-- Whether a character separates tokens. -/
def isSpace (c : Char) : Bool :=
  c = ' ' || c = '\t' || c = '\n' || c = '\r'

/-- Skip space. -/
def skipSpace (cs : List Char) : List Char :=
  cs.dropWhile isSpace

/-! ## Texts -/

/-- The value of a hexadecimal digit. -/
def hexValue? (c : Char) : Option Nat :=
  if '0' ≤ c && c ≤ '9' then some (c.toNat - 48)
  else if 'a' ≤ c && c ≤ 'f' then some (c.toNat - 87)
  else if 'A' ≤ c && c ≤ 'F' then some (c.toNat - 55)
  else none

/-- Four hexadecimal digits. -/
def unit? : List Char → Option (Nat × List Char)
  | a :: b :: c :: d :: rest => do
    let n := (((← hexValue? a) * 16 + (← hexValue? b)) * 16 + (← hexValue? c)) * 16 + (← hexValue? d)
    return (n, rest)
  | _ => none

/-- The character that an escape with units stands for; `cs` begins after its letter. -/
def unitEscape? (cs : List Char) : Option (Char × List Char) := do
  let (first, rest) ← unit? cs
  match Text.isLead first, rest with
  | true, '\\' :: 'u' :: more =>
    match unit? more with
    | some (second, rest') =>
      if Text.isTrail second then
        return (Char.ofNat (0x10000 + (first - 0xd800) * 0x400 + (second - 0xdc00)), rest')
      else return (Text.unitChar first, rest)
    | none => none
  | _, _ => return (Text.unitChar first, rest)

/-- The character that a letter stands for after a backslash. -/
def letterEscape? : Char → Option Char
  | '"' => some '"'
  | '\\' => some '\\'
  | '/' => some '/'
  | 'b' => some '\x08'
  | 'f' => some '\x0c'
  | 'n' => some '\n'
  | 'r' => some '\r'
  | 't' => some '\t'
  | _ => none

/-- The rest of a text after its opening quote; `read` is what came before, reversed. -/
def quotedFrom (read : List Char) : Nat → List Char → Option (String × List Char)
  | _, [] => none
  | 0, _ => none
  | fuel + 1, c :: rest =>
    if c = '"' then some (String.ofList read.reverse, rest)
    else if c = '\\' then
      match rest with
      | 'u' :: more => do
        let (e, rest') ← unitEscape? more
        quotedFrom (e :: read) fuel rest'
      | letter :: more => do
        let e ← letterEscape? letter
        quotedFrom (e :: read) fuel more
      | [] => none
    else if c.toNat < 0x20 then none
    else quotedFrom (c :: read) fuel rest

/-- The rest of a text after its opening quote. -/
def quoted (cs : List Char) : Reading String :=
  orUnreadable (quotedFrom [] (cs.length + 1) cs)

/-! ## Numbers -/

/-- Whether a character is one of the ten digits. -/
def isDigit (c : Char) : Bool :=
  '0' ≤ c && c ≤ '9'

/-- The number that ten-valued digits spell. -/
def digitsValue (cs : List Char) : Nat :=
  cs.foldl (fun n c => n * 10 + (c.toNat - 48)) 0

/-- The digits at the start of a text, and the rest. -/
def spanDigits (cs : List Char) : List Char × List Char :=
  (cs.takeWhile isDigit, cs.dropWhile isDigit)

/-- A fraction, if one begins here: its digits and the rest. -/
def fraction? : List Char → Option (List Char × List Char)
  | '.' :: rest =>
    match spanDigits rest with
    | ([], _) => none
    | (ds, rest') => some (ds, rest')
  | _ => none

/-- An exponent, if one begins here. -/
def exponent? : List Char → Option (Int × List Char)
  | e :: rest =>
    if e = 'e' || e = 'E' then
      let (negative, unsigned) :=
        match rest with
        | '-' :: more => (true, more)
        | '+' :: more => (false, more)
        | more => (false, more)
      match spanDigits unsigned with
      | ([], _) => none
      | (ds, rest') =>
        let n := digitsValue ds
        some (if negative then -(n : Int) else n, rest')
    else none
  | [] => none

/-- The integer that digits spell, unless there are too many of them. -/
def integer (negative : Bool) (digits : List Char) : Except Fault Document :=
  if digits.length ≤ Text.digitLimit then
    let n := digitsValue digits
    .ok (.int (if negative then -(n : Int) else n))
  else .error .malformed

/-- The digits before a point or an exponent: a zero, or digits that begin with another. -/
def wholeDigits? : List Char → Option (List Char × List Char)
  | '0' :: rest => some (['0'], rest)
  | c :: rest => if isDigit c then some (spanDigits (c :: rest)) else none
  | [] => none

/-- A number after its sign. -/
def unsignedNumber (negative : Bool) (cs : List Char) : Reading Document :=
  match wholeDigits? cs with
  | none => .error .unreadable
  | some (ds, rest) =>
    let (fs, rest', hasFraction) :=
      match fraction? rest with
      | some (fs, r) => (fs, r, true)
      | none => ([], rest, false)
    let (e, rest'', hasExponent) :=
      match exponent? rest' with
      | some (e, r) => (e, r, true)
      | none => ((0 : Int), rest', false)
    if hasFraction || hasExponent then
      .ok (.float (.ofDecimal negative (digitsValue (ds ++ fs)) (e - fs.length)), rest'')
    else (integer negative ds).map fun d => (d, rest'')

/-! ## Values -/

/-- The values that are written as words. -/
def words : List (List Char × Document) :=
  [("null".toList, .null), ("true".toList, .bool true), ("false".toList, .bool false),
   ("NaN".toList, .float .nan), ("Infinity".toList, .float (.infinity false)),
   ("-Infinity".toList, .float (.infinity true))]

/-- A value that is written as a word. -/
def word? (cs : List Char) : Option (Document × List Char) :=
  (words.find? fun w => w.1.isPrefixOf cs).map fun w => (w.2, cs.drop w.1.length)

/-- How many levels deep a text may be nested. -/
def maxDepth : Nat := 980

mutual
/-- A value; `room` is how many levels it may be nested. -/
def value (room : Nat) : Nat → List Char → Reading Document
  | 0, _ => .error .unreadable
  | fuel + 1, cs =>
    match cs with
    | '"' :: rest => (quoted rest).map fun (s, r) => (.text s, r)
    | '{' :: rest =>
      match room with
      | 0 => .error .tooDeep
      | room + 1 =>
        match skipSpace rest with
        | '}' :: rest' => .ok (.object [], rest')
        | rest' => (fields room fuel [] rest').map fun (fs, r) => (.ofFields fs, r)
    | '[' :: rest =>
      match room with
      | 0 => .error .tooDeep
      | room + 1 =>
        match skipSpace rest with
        | ']' :: rest' => .ok (.array [], rest')
        | rest' => (items room fuel [] rest').map fun (is, r) => (.array is, r)
    | cs =>
      match word? cs with
      | some reading => .ok reading
      | none =>
        match cs with
        | '-' :: rest => unsignedNumber true rest
        | cs => unsignedNumber false cs

/-- The elements of an array up to its end; `read` holds those before, reversed. -/
def items (room : Nat) : Nat → List Document → List Char → Reading (List Document)
  | 0, _, _ => .error .unreadable
  | fuel + 1, read, cs =>
    match value room fuel cs with
    | .error e => .error e
    | .ok (v, rest) =>
      match skipSpace rest with
      | ']' :: rest' => .ok ((v :: read).reverse, rest')
      | ',' :: rest' => items room fuel (v :: read) (skipSpace rest')
      | _ => .error .unreadable

/-- The fields of an object up to its end; `read` holds those before, reversed. -/
def fields (room : Nat) : Nat → List (Document × Document) → List Char →
    Reading (List (Document × Document))
  | 0, _, _ => .error .unreadable
  | fuel + 1, read, cs =>
    match cs with
    | '"' :: rest =>
      match quoted rest with
      | .error e => .error e
      | .ok (key, rest') =>
        match skipSpace rest' with
        | ':' :: more =>
          match value room fuel (skipSpace more) with
          | .error e => .error e
          | .ok (v, rest'') =>
            match skipSpace rest'' with
            | '}' :: after => .ok (((.text key, v) :: read).reverse, after)
            | ',' :: after => fields room fuel ((.text key, v) :: read) (skipSpace after)
            | _ => .error .unreadable
        | _ => .error .unreadable
    | _ => .error .unreadable
end

/-- The document that a text is in JSON. -/
def read (text : String) : Except Fault Document :=
  let cs := text.toList
  match value maxDepth (2 * cs.length + 1) (skipSpace cs) with
  | .ok (d, rest) => if (skipSpace rest).isEmpty then .ok d else .error .unreadable
  | .error e => .error e

end TypedApi.Document.Json
