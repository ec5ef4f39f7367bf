/-!
Half pairs.

The escapes of the formats read here name UTF-16 units, and a text may hold one
half of a pair without the other. No character is half a pair, so a run of code
points from a plane without assigned characters stands for the halves. A text
that is written goes back to the units.
-/

set_option autoImplicit false

namespace TypedApi.Text

/-- The first code point that stands for half a pair. -/
def halfBase : Nat := 0x10d800

/-- Whether a UTF-16 unit is the first of a pair. -/
def isLead (u : Nat) : Bool :=
  0xd800 ≤ u && u < 0xdc00

/-- Whether a UTF-16 unit is the second of a pair. -/
def isTrail (u : Nat) : Bool :=
  0xdc00 ≤ u && u < 0xe000

/-- The character for a UTF-16 unit or a code point; half a pair gets its stand-in. -/
def unitChar (u : Nat) : Char :=
  if isLead u || isTrail u then Char.ofNat (halfBase + (u - 0xd800)) else Char.ofNat u

/-- The unit that a character stands for, if it stands for half a pair. -/
def halfUnit? (c : Char) : Option Nat :=
  if halfBase ≤ c.toNat && c.toNat < halfBase + 0x800 then some (0xd800 + (c.toNat - halfBase))
  else none

/-- A character is made of its code point. -/
theorem toNat_ofNat (n : Nat) (h : n.isValidChar) : (Char.ofNat n).toNat = n := by
  rw [Char.ofNat, dif_pos h]
  rfl

/-- Half a pair can be told from its stand-in. -/
theorem halfUnit_unitChar (u : Nat) (h : (isLead u || isTrail u) = true) :
    halfUnit? (unitChar u) = some u := by
  have hb : 0xd800 ≤ u ∧ u < 0xe000 := by
    simp [isLead, isTrail] at h
    omega
  have hn : (unitChar u).toNat = halfBase + (u - 0xd800) := by
    unfold unitChar
    rw [if_pos h]
    exact toNat_ofNat _ (Or.inr ⟨by unfold halfBase; omega, by unfold halfBase; omega⟩)
  have hd : 0xd800 + (halfBase + (u - 0xd800) - halfBase) = u := by
    rw [Nat.add_sub_cancel_left]
    omega
  have hr : (halfBase ≤ halfBase + (u - 0xd800) && halfBase + (u - 0xd800) < halfBase + 0x800) = true := by
    rw [Bool.and_eq_true, decide_eq_true_iff, decide_eq_true_iff]
    omega
  rw [halfUnit?, hn, if_pos hr, hd]

end TypedApi.Text
