/-!
Bytes written in base sixty-four.

Every character that counts carries six bits, so four of them make three bytes.
Characters outside of the alphabet are passed over. Two signs of padding after
two characters of a group, or one after three, end the text; a group that is
broken off without them spells nothing.
-/

set_option autoImplicit false

namespace TypedApi.Text

/-- The six bits that a character carries. -/
def sixBits? (c : Char) : Option Nat :=
  if c.isUpper then some (c.toNat - 65)
  else if c.isLower then some (c.toNat - 71)
  else if c.isDigit then some (c.toNat + 4)
  else if c = '+' then some 62
  else if c = '/' then some 63
  else none

/-- The bytes that the rest of a text spells. The group that is begun has `count` characters, of
which `rest` holds the bits that no byte has yet; `padding` counts the signs of padding since its
last character. -/
def base64From (count rest padding : Nat) : List Char → Option (List UInt8)
  | [] => if count = 0 then some [] else none
  | c :: cs =>
    if c = '=' then
      if 2 ≤ count && 4 ≤ count + padding + 1 then some []
      else base64From count rest (if 2 ≤ count then padding + 1 else padding) cs
    else
      match sixBits? c, count with
      | none, _ => base64From count rest padding cs
      | some b, 0 => base64From 1 b 0 cs
      | some b, 1 => (base64From 2 (b % 16) 0 cs).map (UInt8.ofNat (rest * 4 + b / 16) :: ·)
      | some b, 2 => (base64From 3 (b % 4) 0 cs).map (UInt8.ofNat (rest * 16 + b / 4) :: ·)
      | some b, _ => (base64From 0 0 0 cs).map (UInt8.ofNat (rest * 64 + b) :: ·)

/-- The bytes that a text spells. -/
def base64? (cs : List Char) : Option (List UInt8) :=
  base64From 0 0 0 cs

end TypedApi.Text
