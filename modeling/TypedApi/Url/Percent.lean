import TypedApi.Text.Utf8
/-!
Percent forms.

A character that a part of an address does not admit is written by its bytes,
each as a percent sign and two hexadecimal digits. The percent sign itself is
always admitted, so a text in this form is left as it is: `escape_escape` says
that doing it twice is doing it once.
-/

set_option autoImplicit false

namespace TypedApi.Url

/-- The hexadecimal digit of a number below sixteen, a capital from ten on. -/
def hexDigit (n : Nat) : Char :=
  (Nat.digitChar n).toUpper

/-- A byte in percent form. -/
def percentForm (b : UInt8) : List Char :=
  ['%', hexDigit (b.toNat / 16), hexDigit (b.toNat % 16)]

/-- A character, in percent form unless it is admitted. -/
def escapeChar (admits : Char → Bool) (c : Char) : List Char :=
  if admits c then [c] else (String.utf8EncodeChar c).flatMap percentForm

/-- A text with all characters in percent form that are not admitted. -/
def escape (admits : Char → Bool) (cs : List Char) : List Char :=
  cs.flatMap (escapeChar admits)

/-- Whether a character occurs in percent forms. -/
def isPercentChar (c : Char) : Bool :=
  c = '%' || c.isDigit || (0x41 ≤ c.toNat && c.toNat ≤ 0x46)

theorem isPercentChar_hexDigit {n : Nat} (h : n < 16) : isPercentChar (hexDigit n) = true := by
  have all : ∀ m ∈ List.range 16, isPercentChar (hexDigit m) = true := by decide
  exact all n (List.mem_range.mpr h)

/-- A percent form is made of a percent sign and digits. -/
theorem isPercentChar_of_mem {b : UInt8} {c : Char} (h : c ∈ percentForm b) :
    isPercentChar c = true := by
  have hb : b.toNat < 256 := b.toNat_lt
  simp only [percentForm, List.mem_cons, List.not_mem_nil, or_false] at h
  rcases h with h | h | h
  · subst h; rfl
  · subst h; exact isPercentChar_hexDigit (by omega)
  · subst h; exact isPercentChar_hexDigit (by omega)

/-- A text of admitted characters stays as it is. -/
theorem escape_of_admitted {admits : Char → Bool} {cs : List Char}
    (h : ∀ c ∈ cs, admits c = true) : escape admits cs = cs := by
  induction cs with
  | nil => rfl
  | cons c rest ih =>
    have hc := h c List.mem_cons_self
    have hr := ih fun d hd => h d (List.mem_cons_of_mem _ hd)
    rw [escape, List.flatMap_cons, escapeChar, if_pos hc]
    exact congrArg (c :: ·) hr

/-- All characters of the percent form of a text are admitted. -/
theorem admitted_of_mem_escape {admits : Char → Bool}
    (hp : ∀ c, isPercentChar c = true → admits c = true) {cs : List Char} {c : Char}
    (h : c ∈ escape admits cs) : admits c = true := by
  obtain ⟨d, -, hd⟩ := List.mem_flatMap.mp h
  unfold escapeChar at hd
  split at hd
  · next ha => rw [List.mem_singleton.mp hd]; exact ha
  · obtain ⟨b, -, hb⟩ := List.mem_flatMap.mp hd
    exact hp c (isPercentChar_of_mem hb)

/-- A text in percent form stays as it is. -/
theorem escape_escape {admits : Char → Bool} (hp : ∀ c, isPercentChar c = true → admits c = true)
    (cs : List Char) : escape admits (escape admits cs) = escape admits cs :=
  escape_of_admitted fun _ h => admitted_of_mem_escape hp h

/-! ## Going back -/

/-- The value of a hexadecimal digit. -/
def hexValue? (c : Char) : Option Nat :=
  let n := c.toLower.toNat
  if 0x30 ≤ n && n ≤ 0x39 then some (n - 0x30)
  else if 0x61 ≤ n && n ≤ 0x66 then some (n - 0x61 + 10)
  else none

/-- The bytes that a text stands for, percent forms read; a percent sign without two digits after
it stands for itself. -/
def bytesOf : List Char → List UInt8
  | '%' :: a :: b :: rest =>
    match hexValue? a, hexValue? b with
    | some x, some y => UInt8.ofNat (16 * x + y) :: bytesOf rest
    | _, _ => 0x25 :: bytesOf (a :: b :: rest)
  | c :: rest => String.utf8EncodeChar c ++ bytesOf rest
  | [] => []

/-- The text that a text in percent form stands for. -/
def unescape (cs : List Char) : List Char :=
  Text.ofBytes (bytesOf cs)

end TypedApi.Url
