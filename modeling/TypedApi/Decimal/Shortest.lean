import TypedApi.Decimal.Binary64
/-!
The shortest decimal that reads back as a given double-precision number.

The decimals that round to `m · 2 ^ q` form an interval around it. It reaches
half a unit to both sides, or a quarter downward at the bottom of a binade,
and its ends belong to it exactly when `m` is even. On the grid of decimals
with a given count of digits only the two neighbours of the number need
testing; the first grid with one in the interval gives the answer, and of two
the nearer. A number halfway between them takes the one with the even digit.
-/

set_option autoImplicit false

namespace TypedApi

/-- The number `digits · 10 ^ exponent`. -/
structure Decimal where
  digits : Nat
  exponent : Int
deriving DecidableEq, Repr

namespace Decimal

/-- The place of the first digit of `n / d`: the `e` with `10 ^ e ≤ n / d < 10 ^ (e + 1)`. -/
def leadingPlace (n d : Nat) : Int :=
  if d ≤ n then (Binary64.digitCount (n / d) : Int) - 1
  else -(Binary64.digitCount ((d + n - 1) / n - 1) : Int)

/-- One grid of decimals against the interval of `m · 2 ^ q`: the point of the grid
`10 ^ place` that lies in the interval and is nearest, if there is one, an even one winning a tie.
All sides are multiplied up to natural numbers in units of a quarter of the last binary place. -/
def onGrid? (m : Nat) (q : Int) (place : Int) : Option Nat :=
  let unit := q - 2
  let left := Nat.pow 2 (-unit).toNat * Nat.pow 10 place.toNat
  let right := Nat.pow 2 unit.toNat * Nat.pow 10 (-place).toNat
  let value := 4 * m * right
  let low := (4 * m - (if m = Nat.pow 2 52 && q > Binary64.minExponent then 1 else 2)) * right
  let high := (4 * m + 2) * right
  let inside := fun d : Nat =>
    if m % 2 = 0 then low ≤ d * left && d * left ≤ high else low < d * left && d * left < high
  let below := value / left
  let above := below + 1
  match 0 < below && inside below, inside above with
  | true, true =>
    let down := value - below * left
    let up := above * left - value
    if down < up || (down = up && below % 2 = 0) then some below else some above
  | true, false => some below
  | false, true => some above
  | false, false => none

/-- Try grids with more and more digits. -/
def search (m : Nat) (q : Int) (leading : Int) : Nat → Nat → Decimal
  | _, 0 => ⟨m, q⟩
  | count, attempts + 1 =>
    let place := leading + 1 - (count : Int)
    match onGrid? m q place with
    | some d => ⟨d, place⟩
    | none => search m q leading (count + 1) attempts

/-- Drop the zeros at the end of a digit string. -/
def trimZeros : Nat → Decimal → Decimal
  | 0, d => d
  | fuel + 1, d =>
    if d.digits ≠ 0 && d.digits % 10 = 0 then trimZeros fuel ⟨d.digits / 10, d.exponent + 1⟩ else d

/-- The shortest decimal that reads back as the positive number `m · 2 ^ q`; seventeen digits
always suffice. -/
def shortest (m : Nat) (q : Int) : Decimal :=
  let leading := leadingPlace (m * Nat.pow 2 q.toNat) (Nat.pow 2 (-q).toNat)
  let d := search m q leading 1 17
  trimZeros (Binary64.digitCount d.digits) d

end Decimal

/-! # How numbers are written

The digits are the shortest that read back. A `Layout` holds the remaining
decisions: where positional writing ends, how an exponent looks, and the words
for the values that have no digits.
-/

/-- The decisions about the text of a number. -/
structure Layout where
  /-- The least place of the first digit that is written positionally. -/
  leastPlace : Int
  /-- The first place that is no longer written positionally. -/
  endPlace : Int
  /-- The least count of digits in an exponent. -/
  exponentDigits : Nat
  infinity : String
  negativeInfinity : String
  nan : String

namespace Layout

/-- How numbers are shown: positional from `0.0001` up to below `10 ^ 16`. -/
def shown : Layout := ⟨-4, 16, 2, "inf", "-inf", "nan"⟩

/-- How numbers are written as JSON text: as they are shown, with the words of that format. -/
def json : Layout := { shown with infinity := "Infinity", negativeInfinity := "-Infinity", nan := "NaN" }

/-- An exponent with its sign and at least the given count of digits. -/
def exponentText (width : Nat) (e : Int) : String :=
  let digits := Nat.toDigits 10 e.natAbs
  let padding := List.replicate (width - digits.length) '0'
  String.ofList ('e' :: (if e < 0 then '-' else '+') :: (padding ++ digits))

/-- The text of a positive decimal. -/
def decimalText (layout : Layout) (d : Decimal) : String :=
  let digits := Nat.toDigits 10 d.digits
  let place : Int := (digits.length : Int) - 1 + d.exponent
  if place < layout.leastPlace || layout.endPlace ≤ place then
    let mantissa :=
      match digits with
      | [] => []
      | [c] => [c]
      | c :: rest => c :: '.' :: rest
    String.ofList mantissa ++ exponentText layout.exponentDigits place
  else if place < 0 then
    String.ofList ('0' :: '.' :: (List.replicate (-place - 1).toNat '0' ++ digits))
  else
    let whole := (place + 1).toNat
    let padded := digits ++ List.replicate (whole - digits.length) '0'
    let fraction := padded.drop whole
    String.ofList (padded.take whole ++ '.' :: (if fraction.isEmpty then ['0'] else fraction))

/-- The text of a number. -/
def text (layout : Layout) : Binary64 → String
  | .nan => layout.nan
  | .infinity negative => if negative then layout.negativeInfinity else layout.infinity
  | .finite negative m e =>
    let magnitude := if m = 0 then "0.0" else layout.decimalText (Decimal.shortest m e)
    if negative then "-" ++ magnitude else magnitude

end Layout

end TypedApi
