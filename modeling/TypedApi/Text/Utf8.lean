/-!
Bytes read as characters.

A character takes one to four bytes, and its first byte says how many. Where the
bytes go wrong, one replacement character stands for as many of them as could
have begun a character, and reading goes on after these.
-/

set_option autoImplicit false

namespace TypedApi.Text

/-- The character that stands for bytes that are none. -/
def replacement : Char := '\ufffd'

/-- What has been read of a character: the count of bytes owed, the bits of those read, and the
range of the next byte. -/
structure PartialChar where
  owed : Nat
  bits : Nat
  low : Nat := 0x80
  high : Nat := 0xbf

/-- What a byte begins: a character, part of one, or neither. -/
def beginChar (b : Nat) : Char ⊕ Option PartialChar :=
  if b < 0x80 then .inl (Char.ofNat b)
  else if 0xc2 ≤ b && b < 0xe0 then .inr (some { owed := 1, bits := b - 0xc0 })
  else if b = 0xe0 then .inr (some { owed := 2, bits := 0, low := 0xa0 })
  else if b = 0xed then .inr (some { owed := 2, bits := 0xd, high := 0x9f })
  else if 0xe0 < b && b < 0xf0 then .inr (some { owed := 2, bits := b - 0xe0 })
  else if b = 0xf0 then .inr (some { owed := 3, bits := 0, low := 0x90 })
  else if b = 0xf4 then .inr (some { owed := 3, bits := 4, high := 0x8f })
  else if 0xf0 < b && b < 0xf4 then .inr (some { owed := 3, bits := b - 0xf0 })
  else .inr none

/-- The characters that bytes spell, with a part of a character before them or none. -/
def readBytes : Option PartialChar → List UInt8 → List Char
  | none, [] => []
  | some _, [] => [replacement]
  | state, b :: rest =>
    let n := b.toNat
    let start := fun (_ : Unit) =>
      match beginChar n with
      | .inl c => c :: readBytes none rest
      | .inr (some p) => readBytes (some p) rest
      | .inr none => replacement :: readBytes none rest
    match state with
    | none => start ()
    | some p =>
      if p.low ≤ n && n ≤ p.high then
        let bits := p.bits * 64 + n % 64
        if p.owed ≤ 1 then Char.ofNat bits :: readBytes none rest
        else readBytes (some { owed := p.owed - 1, bits }) rest
      else replacement :: start ()

/-- The text that bytes spell. -/
def ofBytes (bs : List UInt8) : List Char :=
  readBytes none bs

/-- ASCII bytes are the characters with their numbers. -/
theorem ofBytes_ascii (ns : List Nat) (h : ∀ n ∈ ns, n < 0x80) :
    ofBytes (ns.map UInt8.ofNat) = ns.map Char.ofNat := by
  unfold ofBytes
  induction ns with
  | nil => rfl
  | cons n rest ih =>
    have hn : n < 0x80 := h n List.mem_cons_self
    have hb : (UInt8.ofNat n).toNat = n := by simp; omega
    simp only [List.map_cons, readBytes, hb, beginChar, hn, if_true]
    rw [ih fun m hm => h m (List.mem_cons_of_mem _ hm)]

end TypedApi.Text
