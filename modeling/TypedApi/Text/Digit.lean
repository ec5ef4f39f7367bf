import TypedApi.Text.Blank
/-!
Digits of all scripts, and numerals written with them.

Every script with decimal digits has its ten in one run from zero to nine, so
a list of the zeros is the whole table. Other characters count as digits
without being decimal (superscripts, circled digits): they make a text *look*
like a number but cannot be read as one.
-/

set_option autoImplicit false

namespace TypedApi.Text

/-- The zero of each script that has decimal digits. -/
def decimalZeros : List Nat :=
  [0x30, 0x660, 0x6f0, 0x7c0, 0x966, 0x9e6, 0xa66, 0xae6, 0xb66, 0xbe6,
   0xc66, 0xce6, 0xd66, 0xde6, 0xe50, 0xed0, 0xf20, 0x1040, 0x1090, 0x17e0,
   0x1810, 0x1946, 0x19d0, 0x1a80, 0x1a90, 0x1b50, 0x1bb0, 0x1c40, 0x1c50, 0xa620,
   0xa8d0, 0xa900, 0xa9d0, 0xa9f0, 0xaa50, 0xabf0, 0xff10, 0x104a0, 0x10d30, 0x11066,
   0x110f0, 0x11136, 0x111d0, 0x112f0, 0x11450, 0x114d0, 0x11650, 0x116c0, 0x11730, 0x118e0,
   0x11950, 0x11c50, 0x11d50, 0x11da0, 0x16a60, 0x16ac0, 0x16b50, 0x1d7ce, 0x1d7d8, 0x1d7e2,
   0x1d7ec, 0x1d7f6, 0x1e140, 0x1e2f0, 0x1e950, 0x1fbf0]

/-- The ranges of characters that are digits but not decimal digits. -/
def otherDigitRanges : List (Nat × Nat) :=
  [(0xb2, 0xb3), (0xb9, 0xb9), (0x1369, 0x1371), (0x19da, 0x19da), (0x2070, 0x2070), (0x2074, 0x2079),
   (0x2080, 0x2089), (0x2460, 0x2468), (0x2474, 0x247c), (0x2488, 0x2490), (0x24ea, 0x24ea), (0x24f5, 0x24fd),
   (0x24ff, 0x24ff), (0x2776, 0x277e), (0x2780, 0x2788), (0x278a, 0x2792), (0x10a40, 0x10a43), (0x10e60, 0x10e68),
   (0x11052, 0x1105a), (0x1f100, 0x1f10a)]

/-- The value of a decimal digit of any script. -/
def decimalValue? (c : Char) : Option Nat :=
  (decimalZeros.find? fun z => z ≤ c.toNat && c.toNat ≤ z + 9).map (c.toNat - ·)

/-- Whether a character is a decimal digit of some script. -/
def isDecimal (c : Char) : Bool :=
  (decimalValue? c).isSome

/-- Whether a character is a digit, decimal or not. -/
def isDigit (c : Char) : Bool :=
  isDecimal c || otherDigitRanges.any fun r => r.1 ≤ c.toNat && c.toNat ≤ r.2

/-- The number that a run of decimal digits spells; `none` on another character. -/
def digitsValue? (cs : List Char) : Option Nat :=
  cs.foldl (fun acc c => do return (← acc) * 10 + (← decimalValue? c)) (some 0)

/-- The digits of a numeral whose digits may have single underscores between them; `none` on
another character. -/
def numeralDigits? : List Char → Option (List Char)
  | [] => none
  | [c] => if isDecimal c then some [c] else none
  | c :: '_' :: rest => if isDecimal c then (numeralDigits? rest).map (c :: ·) else none
  | c :: rest => if isDecimal c then (numeralDigits? rest).map (c :: ·) else none

/-- The greatest count of digits that a decimal numeral may have. -/
def digitLimit : Nat := 4300

/-- The natural number that a numeral spells; one with too many digits spells none, whatever they
are. -/
def natural? (cs : List Char) : Option Nat :=
  (numeralDigits? cs).bind fun ds => if ds.length ≤ digitLimit then digitsValue? ds else none

/-- Whether a character may stand around a numeral: a blank one may, unless it is one of the
separators among the control characters. -/
def isMargin (c : Char) : Bool :=
  isBlank c && !(0x1c ≤ c.toNat && c.toNat ≤ 0x1f)

/-- Drop the characters at both ends that may stand around a numeral. -/
def trimMargin (cs : List Char) : List Char :=
  ((cs.dropWhile isMargin).reverse.dropWhile isMargin).reverse

/-- The integer that a text spells: a numeral with a sign or without, and blank characters around
it. -/
def integer? (s : String) : Option Int :=
  match trimMargin s.toList with
  | '-' :: cs => (natural? cs).map fun n => -(n : Int)
  | '+' :: cs => (natural? cs).map fun n => (n : Int)
  | cs => (natural? cs).map fun n => (n : Int)

/-! ## Other bases -/

/-- The value of a decimal digit of any script, or of an ASCII letter, which goes on from ten. -/
def digitValue? (c : Char) : Option Nat :=
  match decimalValue? c with
  | some d => some d
  | none => if c.toLower.isLower then some (c.toLower.toNat - 87) else none

/-- The natural number that digits of a base spell; there must be one. -/
def digitsIn? (base : Nat) (cs : List Char) : Option Nat :=
  if cs.isEmpty then none
  else cs.foldlM (fun n c => do
    let d ← digitValue? c
    if d < base then return n * base + d else none) 0

/-- Drop a zero and a letter in front of digits. -/
def dropMark (letter : Char) : List Char → List Char
  | '0' :: c :: rest => if c.toLower = letter then rest else '0' :: c :: rest
  | cs => cs

/-- The integer that a text spells in a base that is a power of two: digits, the base's letter in
front of them or not, a sign or none, and blank characters around it. No count of digits is too
great. -/
def integerIn? (base : Nat) (letter : Char) (cs : List Char) : Option Int :=
  match trimMargin cs with
  | '-' :: cs => (digitsIn? base (dropMark letter cs)).map fun n => -(n : Int)
  | '+' :: cs => (digitsIn? base (dropMark letter cs)).map fun n => (n : Int)
  | cs => (digitsIn? base (dropMark letter cs)).map fun n => (n : Int)

end TypedApi.Text
