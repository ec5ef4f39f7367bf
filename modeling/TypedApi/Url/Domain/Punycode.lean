/-!
Texts in the letters, digits and hyphens of ASCII.

The characters outside ASCII are taken out, and what is left is followed by
numbers that tell how to put them back: each counts the places and characters
passed over since the one put back before it, in order of characters and then of
places. The numbers are written in thirty-six digits, lowest first, and a digit
below a threshold ends a number. The thresholds follow the size of the numbers.
-/

set_option autoImplicit false

namespace TypedApi.Url.Domain.Punycode

/-- A digit, a letter or a decimal digit. -/
def digitChar (d : Nat) : Char :=
  if d < 26 then Char.ofNat (0x61 + d) else Char.ofNat (0x30 + d - 26)

/-- The value of a digit; letters count in either case. -/
def digitValue? (c : Char) : Option Nat :=
  let n := c.toLower.toNat
  if 0x61 ≤ n && n ≤ 0x7a then some (n - 0x61)
  else if 0x30 ≤ n && n ≤ 0x39 then some (n - 0x30 + 26)
  else none

/-- A digit is read as it was written. -/
theorem digitValue_digitChar {d : Nat} (h : d < 36) : digitValue? (digitChar d) = some d := by
  have all : ∀ e ∈ List.range 36, digitValue? (digitChar e) = some e := by decide
  exact all d (List.mem_range.mpr h)

/-- The threshold of a place, counted from one in steps of thirty-six. -/
def threshold (place bias : Nat) : Nat :=
  min 26 (max 1 (place - bias))

theorem threshold_pos (place bias : Nat) : 1 ≤ threshold place bias := by
  unfold threshold; omega

theorem threshold_le (place bias : Nat) : threshold place bias ≤ 26 := by
  unfold threshold; omega

/-- Divide a number by thirty-five until it is small; gives it and the sum of a step for each. -/
def reduce (n steps : Nat) : Nat × Nat :=
  if 455 < n then reduce (n / 35) (steps + 36) else (n, steps)
termination_by n
decreasing_by omega

/-- The bias after a number, given the count of characters that are now in place. -/
def adapt (n count : Nat) (isFirst : Bool) : Nat :=
  let n := if isFirst then n / 700 else n / 2
  let (n, steps) := reduce (n + n / count) 0
  steps + 36 * n / (n + 38)

/-! ## Writing -/

/-- The digits of a number from a place on. -/
def digitsOf (bias place n : Nat) : List Char :=
  let t := threshold place bias
  if n < t then [digitChar n]
  else digitChar (t + (n - t) % (36 - t)) :: digitsOf bias (place + 36) ((n - t) / (36 - t))
termination_by n
decreasing_by
  have h₁ := threshold_pos place bias
  have h₂ : (n - threshold place bias) / (36 - threshold place bias) ≤ n - threshold place bias :=
    Nat.div_le_self _ _
  omega

/-- What has been written: the digits, the count passed over since the last number, the bias, and
the count of characters in place. -/
structure Written where
  digits : List Char := []
  passed : Nat := 0
  bias : Nat := 72
  count : Nat

/-- Pass over a place of the text, or write the number for it if it holds the given character. -/
def Written.visit (isFirst : Nat → Bool) (m : Nat) (w : Written) (c : Char) : Written :=
  if c.toNat < m then { w with passed := w.passed + 1 }
  else if c.toNat = m then {
    digits := w.digits ++ digitsOf w.bias 36 w.passed
    passed := 0
    bias := adapt w.passed (w.count + 1) (isFirst w.count)
    count := w.count + 1 }
  else w

/-- Write the numbers for all places of some characters, which are in order; all characters below
`n` are in place. -/
def writeAll (cs : List Char) (isFirst : Nat → Bool) : List Nat → Nat → Written → Written
  | [], _, w => w
  | m :: rest, n, w =>
    let w := { w with passed := w.passed + (m - n) * (w.count + 1) }
    let w := cs.foldl (Written.visit isFirst m) w
    writeAll cs isFirst rest (m + 1) { w with passed := w.passed + 1 }

/-- Put a number in its place in an ordered list without repetition. -/
def insertOnce (n : Nat) : List Nat → List Nat
  | [] => [n]
  | m :: rest =>
    if n < m then n :: m :: rest else if n = m then m :: rest else m :: insertOnce n rest

/-- A text in ASCII: the characters that are ASCII, a hyphen if there are any, and the numbers. -/
def encode (cs : List Char) : List Char :=
  let plain := cs.filter fun c => c.toNat < 0x80
  let others := (cs.filter fun c => 0x80 ≤ c.toNat).foldr (fun c ns => insertOnce c.toNat ns) []
  let start : Written := { count := plain.length }
  plain ++ (if plain.isEmpty then [] else ['-']) ++
    (writeAll cs (· = plain.length) others 0x80 start).digits

/-! ## Reading -/

/-- The number at the beginning of some digits, and the digits after it; `none` if it has no end or
there is something else than a digit. -/
def number? (bias : Nat) : List Char → Nat → Nat → Option (Nat × List Char)
  | [], _, _ => none
  | c :: rest, place, weight => do
    let d ← digitValue? c
    let t := threshold place bias
    if d < t then return (d * weight, rest)
    let (n, rest) ← number? bias rest (place + 36) (weight * (36 - t))
    return (n + d * weight, rest)

/-- A number takes at least one digit. -/
theorem length_of_number {bias : Nat} {cs : List Char} {place weight : Nat} {r : Nat × List Char}
    (h : number? bias cs place weight = some r) : r.2.length < cs.length := by
  induction cs generalizing place weight r with
  | nil => simp [number?] at h
  | cons c rest ih =>
    simp only [number?, bind, Option.bind_eq_some_iff, pure] at h
    obtain ⟨d, -, h⟩ := h
    split at h
    · cases h; simp
    · simp only [Option.bind_eq_some_iff] at h
      obtain ⟨q, hq, h⟩ := h
      cases h
      have := ih hq
      simp only [List.length_cons]
      omega

/-- Put characters back into a text: `n` is the last one put back and `i` the place after it. -/
def readAll (bias n i : Nat) (isFirst : Bool) (out : List Char) (cs : List Char) :
    Option (List Char) :=
  match cs with
  | [] => some out
  | c :: rest =>
    match h : number? bias (c :: rest) 36 1 with
    | none => none
    | some (passed, after) =>
      let count := out.length + 1
      let m := n + (i + passed) / count
      let place := (i + passed) % count
      if m.isValidChar then
        readAll (adapt passed count isFirst) m (place + 1) false
          (out.insertIdx place (Char.ofNat m)) after
      else none
termination_by cs.length
decreasing_by
  have := length_of_number h
  simpa using this

/-- The text before the last hyphen, empty if there is none, and the text after it. -/
def splitAtHyphen (cs : List Char) : List Char × List Char :=
  let tail := (cs.reverse.takeWhile (· ≠ '-')).reverse
  ((cs.take (cs.length - tail.length)).dropLast, tail)

/-- The text that was written as ASCII. -/
def decode? (cs : List Char) : Option (List Char) :=
  let (plain, digits) := splitAtHyphen cs
  readAll 72 0x80 0 true plain digits

end TypedApi.Url.Domain.Punycode
