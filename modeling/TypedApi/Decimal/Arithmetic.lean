import TypedApi.Decimal.Binary64
/-!
Sums and products of double-precision numbers.

Both are worked out exactly on integers and rounded once. Infinities absorb
what is added to them, and where no value would be right (infinities of both
signs added, zero times infinity) the result is not a number. A sum that
vanishes is the positive zero, unless both terms are negative zeros.
-/

set_option autoImplicit false

namespace TypedApi.Binary64

/-- A number with the given sign. -/
def withSign (negative : Bool) : Binary64 → Binary64
  | .nan => .nan
  | .infinity _ => .infinity negative
  | .finite _ m e => .finite negative m e

/-- Whether a number has a minus. -/
def isNegative : Binary64 → Bool
  | .nan => false
  | .infinity negative => negative
  | .finite negative _ _ => negative

/-- A number with its sign turned. -/
def negate (x : Binary64) : Binary64 :=
  x.withSign !x.isNegative

/-- The number nearest to `n · 2 ^ exponent`; the sign is that of a zero. -/
def ofScaled (negative : Bool) (n : Int) (exponent : Int) : Binary64 :=
  if n = 0 then zero negative
  else ofRatio (n < 0) (n.natAbs * Nat.pow 2 exponent.toNat) (Nat.pow 2 (-exponent).toNat)

/-- An integer with a sign. -/
def signed (negative : Bool) (n : Nat) : Int :=
  if negative then -(n : Int) else n

/-- The sum of two numbers, rounded. -/
def add : Binary64 → Binary64 → Binary64
  | .finite a m e, .finite b n f =>
    let least := min e f
    let left := signed a (m * Nat.pow 2 (e - least).toNat)
    let right := signed b (n * Nat.pow 2 (f - least).toNat)
    ofScaled (a && b) (left + right) least
  | .infinity a, .infinity b => if a = b then .infinity a else .nan
  | .nan, _ => .nan
  | _, .nan => .nan
  | .infinity a, _ => .infinity a
  | _, .infinity b => .infinity b

/-- The product of two numbers, rounded. -/
def mul : Binary64 → Binary64 → Binary64
  | .finite a m e, .finite b n f => ofScaled (a != b) (signed (a != b) (m * n)) (e + f)
  | .nan, _ => .nan
  | _, .nan => .nan
  | x, y => if x.isZero || y.isZero then .nan else .infinity (x.isNegative != y.isNegative)

/-- The number nearest to an integer, none if it is too large for the format. -/
def ofInt? (n : Int) : Option Binary64 :=
  match ofInt n with
  | .infinity _ => none
  | x => some x

/-! ## Laws -/

/-- Turning the sign twice changes nothing. -/
theorem negate_negate (x : Binary64) : x.negate.negate = x := by
  cases x <;> simp [negate, withSign, isNegative]

/-- The order of the terms does not matter. -/
theorem add_comm (x y : Binary64) : x.add y = y.add x := by
  cases x <;> cases y <;> simp [add, Bool.and_comm, Int.add_comm, Int.min_comm, eq_comm]
  rename_i a b
  cases a <;> cases b <;> rfl

end TypedApi.Binary64
