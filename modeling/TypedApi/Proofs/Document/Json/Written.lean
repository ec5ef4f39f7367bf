import TypedApi.Document.Json.Reader
import TypedApi.Document.Json.Writer
import TypedApi.Dump
import TypedApi.Proofs.Document.Fields
import Mathlib.Algebra.Group.Nat.Defs
import Mathlib.Data.List.Chain
import Mathlib.Tactic.Common
/-!
Reading back what is written as JSON.

A text is written by its UTF-16 units, so it comes back as it was unless it has the
two halves of a pair side by side: these come back as the one character that they
make up. An integer comes back if it has no more digits than a reader takes, and an
object if its keys are distinct texts and its values come back.
-/

set_option autoImplicit false

namespace TypedApi

/-! ## Units -/

namespace Text

variable {c : Char} {u : Nat}

/-- A stand-in stands for the half that it is told from. -/
theorem unitChar_of_halfUnit? (h : halfUnit? c = some u) : unitChar u = c := by
  unfold halfUnit? at h
  split at h
  · rename_i hc
    have hbase : halfBase ≤ c.toNat := by simp at hc; omega
    have hu : 0xd800 + (c.toNat - halfBase) = u := Option.some.inj h
    have hlt : c.toNat - halfBase < 0x800 := by simp at hc; omega
    have hhalf : (isLead u || isTrail u) = true := by
      simp [isLead, isTrail]
      omega
    rw [unitChar, if_pos hhalf, show halfBase + (u - 0xd800) = c.toNat by omega, Char.ofNat_toNat]
  · cases h

/-- A character of the basic plane is its own unit. -/
theorem unitChar_toNat (h : c.toNat < 0x10000) : unitChar c.toNat = c := by
  have hhalf : (isLead c.toNat || isTrail c.toNat) = false := by
    have hvalid : c.toNat < 0xd800 ∨ 0xdfff < c.toNat ∧ c.toNat < 0x110000 := c.valid
    simp [isLead, isTrail]
    omega
  rw [unitChar, hhalf, if_neg Bool.false_ne_true, Char.ofNat_toNat]

theorem lt_of_mem_units16 (h : u ∈ units16 c) : u < 0x10000 := by
  have hvalid : c.toNat < 0xd800 ∨ 0xdfff < c.toNat ∧ c.toNat < 0x110000 := c.valid
  unfold units16 at h
  split at h
  · rename_i hlt
    rw [List.mem_singleton.mp h]
    exact hlt
  · split at h
    · rename_i v hv
      unfold halfUnit? at hv
      split at hv
      · have hv : 0xd800 + (c.toNat - halfBase) = v := Option.some.inj hv
        have hu := List.mem_singleton.mp h
        unfold halfBase at hv
        omega
      · cases hv
    · simp at h
      omega

theorem ne_quote_of_letterEscape? (h : letterEscape? c = none) : c ≠ '"' ∧ c ≠ '\\' := by
  constructor <;> rintro rfl <;> cases h

/-- Whether a character stands for the first half of a pair. -/
def isLeadHalf (c : Char) : Bool :=
  (halfUnit? c).any isLead

/-- Whether a character stands for the second half of a pair. -/
def isTrailHalf (c : Char) : Bool :=
  (halfUnit? c).any isTrail

/-- Characters without the two halves of a pair side by side. -/
def AreWhole (cs : List Char) : Prop :=
  cs.IsChain fun a b => (isLeadHalf a && isTrailHalf b) = false

instance (cs : List Char) : Decidable (AreWhole cs) :=
  inferInstanceAs (Decidable (cs.IsChain _))

/-- The units of a character: one, or the two of a pair. -/
theorem units16_cases (c : Char) :
    (∃ u, units16 c = [u] ∧ unitChar u = c ∧ isLead u = isLeadHalf c ∧ isTrail u = isTrailHalf c) ∨
      ∃ u v, units16 c = [u, v] ∧ isLead u = true ∧ isTrail v = true ∧
        Char.ofNat (0x10000 + (u - 0xd800) * 0x400 + (v - 0xdc00)) = c := by
  have hvalid : c.toNat < 0xd800 ∨ 0xdfff < c.toNat ∧ c.toNat < 0x110000 := c.valid
  by_cases hplane : c.toNat < 0x10000
  · have hhalf : halfUnit? c = none := by
      rw [halfUnit?, halfBase, decide_eq_false (by omega), Bool.false_and,
        if_neg Bool.false_ne_true]
    refine .inl ⟨c.toNat, if_pos hplane, unitChar_toNat hplane, ?_, ?_⟩
    · rw [isLeadHalf, hhalf, Option.any_none, isLead, Bool.and_eq_false_iff, decide_eq_false_iff_not,
        decide_eq_false_iff_not]
      omega
    · rw [isTrailHalf, hhalf, Option.any_none, isTrail, Bool.and_eq_false_iff,
        decide_eq_false_iff_not, decide_eq_false_iff_not]
      omega
  · cases hhalf : halfUnit? c with
    | some u =>
      refine .inl ⟨u, ?_, unitChar_of_halfUnit? hhalf, ?_, ?_⟩
      · simp [units16, hplane, hhalf]
      · rw [isLeadHalf, hhalf, Option.any_some]
      · rw [isTrailHalf, hhalf, Option.any_some]
    | none =>
      refine .inr ⟨0xd800 + (c.toNat - 0x10000) / 0x400, 0xdc00 + (c.toNat - 0x10000) % 0x400,
        ?_, ?_, ?_, ?_⟩
      · simp [units16, hplane, hhalf]
      · rw [isLead, Bool.and_eq_true, decide_eq_true_eq, decide_eq_true_eq]
        omega
      · rw [isTrail, Bool.and_eq_true, decide_eq_true_eq, decide_eq_true_eq]
        omega
      · rw [Nat.add_sub_cancel_left, Nat.add_sub_cancel_left, Nat.add_assoc, Nat.div_add_mod',
          Nat.add_sub_cancel' (Nat.le_of_not_lt hplane), Char.ofNat_toNat]

end Text

namespace Document.Json

variable {c : Char} {cs rest : List Char}

theorem hexValue?_digitChar {n : Nat} (h : n < 16) : hexValue? (Nat.digitChar n) = some n := by
  have hall : ∀ i : Fin 16, hexValue? (Nat.digitChar i) = some i.val := by decide
  exact hall ⟨n, h⟩

/-- Four digits spell the unit that they are written for. -/
theorem unit?_hex {u : Nat} (h : u < 0x10000) (rest : List Char) :
    unit? (Text.hex 4 u ++ rest) = some (u, rest) := by
  have hdigit : ∀ n, hexValue? (Nat.digitChar (n % 16)) = some (n % 16) :=
    fun n => hexValue?_digitChar (Nat.mod_lt n (by decide))
  have hu : ((u / 16 / 16 / 16 % 16 * 16 + u / 16 / 16 % 16) * 16 + u / 16 % 16) * 16 + u % 16 =
      u := by
    omega
  simp [Text.hex, unit?, hdigit, hu]

/-- A unit that no other half follows is a character of its own. -/
theorem unitEscape?_single {u : Nat} (hu : u < 0x10000)
    (hnext : Text.isLead u = true → ∀ more, rest = '\\' :: 'u' :: more →
      ∃ v tail, unit? more = some (v, tail) ∧ Text.isTrail v = false) :
    unitEscape? (Text.hex 4 u ++ rest) = some (Text.unitChar u, rest) := by
  rw [unitEscape?, unit?_hex hu]
  dsimp only [Option.bind_eq_bind, Option.bind_some]
  split
  · rename_i more hlead
    obtain ⟨v, tail, hv, htrail⟩ := hnext hlead more rfl
    rw [hv]
    simp [htrail]
  · rfl

/-- The two halves of a pair are one character. -/
theorem unitEscape?_pair {u v : Nat} (hu : u < 0x10000) (hv : v < 0x10000)
    (hlead : Text.isLead u = true) (htrail : Text.isTrail v = true) :
    unitEscape? (Text.hex 4 u ++ '\\' :: 'u' :: (Text.hex 4 v ++ rest)) =
      some (Char.ofNat (0x10000 + (u - 0xd800) * 0x400 + (v - 0xdc00)), rest) := by
  rw [unitEscape?, unit?_hex hu]
  simp [hlead, unit?_hex hv, htrail]

/-! ## Texts -/

theorem quotedFrom_unit {read : List Char} {fuel : Nat} {more : List Char} :
    quotedFrom read (fuel + 1) ('\\' :: 'u' :: more) =
      (unitEscape? more).bind fun found => quotedFrom (found.1 :: read) fuel found.2 := by
  rw [quotedFrom, if_neg (by decide), if_pos rfl]
  rfl

theorem quotedFrom_letter {read : List Char} {fuel : Nat} {letter : Char}
    (h : letterEscape? letter = some c) :
    quotedFrom read (fuel + 1) ('\\' :: letter :: rest) = quotedFrom (c :: read) fuel rest := by
  have hu : letter ≠ 'u' := by
    rintro rfl
    cases h
  rw [quotedFrom, if_neg (by decide), if_pos rfl, h]
  · rfl
  · exact hu

theorem quotedFrom_itself {read : List Char} {fuel : Nat} (hquote : c ≠ '"') (hslash : c ≠ '\\')
    (h : 0x20 ≤ c.toNat) :
    quotedFrom read (fuel + 1) (c :: rest) = quotedFrom (c :: read) fuel rest := by
  rw [quotedFrom.eq_def]
  dsimp only
  rw [if_neg hquote, if_neg hslash, if_neg (Nat.not_lt.mpr h)]

/-- An escape that a writer uses for a letter is one that a reader knows. -/
theorem letterEscape?_of_letterEscape? {e : List Char} (h : Text.letterEscape? c = some e) :
    ∃ letter, e = ['\\', letter] ∧ letterEscape? letter = some c := by
  unfold Text.letterEscape? at h
  split at h <;> cases h <;> exact ⟨_, rfl, rfl⟩

/-- What stands after a character does not make it the first half of a pair. -/
def StandsApart (c : Char) (rest : List Char) : Prop :=
  Text.isLeadHalf c = true → ∀ more, rest = '\\' :: 'u' :: more →
    ∃ v tail, unit? more = some (v, tail) ∧ Text.isTrail v = false

/-- **A character is read back** from what it is written as. -/
theorem quotedFrom_escapeAscii {read : List Char} {fuel : Nat} (h : StandsApart c rest) :
    quotedFrom read (fuel + 1) (Text.escapeAscii c ++ rest) =
      quotedFrom (c :: read) fuel rest := by
  cases hletter : Text.letterEscape? c with
  | some e =>
    obtain ⟨letter, rfl, hread⟩ := letterEscape?_of_letterEscape? hletter
    rw [Text.escapeAscii, hletter]
    exact quotedFrom_letter hread
  | none =>
    obtain ⟨hquote, hslash⟩ := Text.ne_quote_of_letterEscape? hletter
    rw [Text.escapeAscii, hletter]
    dsimp only
    split
    · rename_i hprintable
      rw [Bool.and_eq_true, decide_eq_true_eq] at hprintable
      exact quotedFrom_itself hquote hslash hprintable.1
    · have hlt : ∀ u ∈ Text.units16 c, u < 0x10000 := fun u => Text.lt_of_mem_units16
      obtain ⟨u, hunits, hchar, hlead, _⟩ | ⟨u, v, hunits, hlead, htrail, hchar⟩ :=
        Text.units16_cases c
      · rw [hunits, List.flatMap_singleton, List.cons_append, List.cons_append, quotedFrom_unit,
          unitEscape?_single (hlt u (by simp [hunits])) (hlead ▸ h), hchar]
        rfl
      · rw [hunits]
        simp only [List.flatMap_cons, List.flatMap_nil, List.append_nil, List.cons_append,
          List.append_assoc]
        rw [quotedFrom_unit, unitEscape?_pair (hlt u (by simp [hunits])) (hlt v (by simp [hunits]))
          hlead htrail, hchar]
        rfl

/-- In a text without the two halves of a pair side by side every character stands apart. -/
theorem standsApart_of_areWhole (h : Text.AreWhole (c :: cs)) :
    StandsApart c (cs.flatMap Text.escapeAscii ++ '"' :: rest) := by
  intro hlead more heq
  cases cs with
  | nil => cases heq
  | cons d ds =>
    rw [List.flatMap_cons, List.append_assoc] at heq
    generalize ds.flatMap Text.escapeAscii ++ '"' :: rest = after at heq
    have hnext : Text.isTrailHalf d = false := by
      simpa [hlead] using (List.isChain_cons_cons.mp h).1
    cases hletter : Text.letterEscape? d with
    | some e =>
      obtain ⟨letter, rfl, hread⟩ := letterEscape?_of_letterEscape? hletter
      rw [Text.escapeAscii, hletter] at heq
      cases heq
      cases hread
    | none =>
      rw [Text.escapeAscii, hletter] at heq
      dsimp only at heq
      split at heq
      · exact absurd (List.cons.inj heq).1 (Text.ne_quote_of_letterEscape? hletter).2
      · have hlt : ∀ u ∈ Text.units16 d, u < 0x10000 := fun u => Text.lt_of_mem_units16
        obtain ⟨u, hunits, _, _, htrail⟩ | ⟨u, v, hunits, hpair, _, _⟩ := Text.units16_cases d
        · rw [hunits, List.flatMap_singleton] at heq
          cases heq
          exact ⟨u, after, unit?_hex (hlt u (by simp [hunits])) after, htrail.trans hnext⟩
        · rw [hunits, List.flatMap_cons, List.append_assoc] at heq
          cases heq
          refine ⟨u, _, unit?_hex (hlt u (by simp [hunits])) _, ?_⟩
          rw [Text.isLead, Bool.and_eq_true, decide_eq_true_eq, decide_eq_true_eq] at hpair
          rw [Text.isTrail, Bool.and_eq_false_iff, decide_eq_false_iff_not]
          omega

/-- **A text is read back** from what it is written as, unless it has the two halves of a pair side
by side. -/
theorem quotedFrom_flatMap_escapeAscii (h : Text.AreWhole cs) (read : List Char) (fuel : Nat)
    (hfuel : cs.length < fuel) :
    quotedFrom read fuel (cs.flatMap Text.escapeAscii ++ '"' :: rest) =
      some (String.ofList (read.reverse ++ cs), rest) := by
  obtain ⟨fuel, rfl⟩ := Nat.exists_eq_add_one.mpr (Nat.zero_lt_of_lt hfuel)
  induction cs generalizing read fuel with
  | nil => simp [quotedFrom]
  | cons c cs ih =>
    rw [List.length_cons] at hfuel
    obtain ⟨fuel, rfl⟩ := Nat.exists_eq_add_one.mpr (show 0 < fuel by omega)
    rw [List.flatMap_cons, List.append_assoc, quotedFrom_escapeAscii (standsApart_of_areWhole h),
      ih (List.IsChain.tail h) (c :: read) fuel (by omega), List.reverse_cons, List.append_assoc,
      List.singleton_append]

/-- What a text is written as is not shorter than it. -/
theorem length_le_flatMap_escapeAscii (cs : List Char) :
    cs.length ≤ (cs.flatMap Text.escapeAscii).length := by
  induction cs with
  | nil => exact Nat.le_refl 0
  | cons c cs ih =>
    have hne : Text.escapeAscii c ≠ [] := by
      intro hnil
      have hquote := @quotedFrom_escapeAscii c ['"'] [] 1 fun _ _ h => by cases h
      rw [hnil] at hquote
      simp [quotedFrom] at hquote
    have hpos := List.length_pos_iff.mpr hne
    rw [List.flatMap_cons, List.length_append, List.length_cons]
    omega

theorem quoted_flatMap_escapeAscii {s : String} (h : Text.AreWhole s.toList) :
    quoted (s.toList.flatMap Text.escapeAscii ++ '"' :: rest) = .ok (s, rest) := by
  have hlength := length_le_flatMap_escapeAscii s.toList
  rw [quoted, quotedFrom_flatMap_escapeAscii h [] _ (by rw [List.length_append]; omega),
    List.reverse_nil, List.nil_append, String.ofList_toList]
  rfl

/-! ## Numbers -/

/-- What ends a number. -/
def EndsNumber (rest : List Char) : Prop :=
  ∀ c ∈ rest.head?, isDigit c = false ∧ c ≠ '.' ∧ c ≠ 'e' ∧ c ≠ 'E'

theorem isDigit_of_mem_toDigits {n : Nat} (h : c ∈ Nat.toDigits 10 n) : isDigit c = true :=
  Nat.isDigit_of_mem_toDigits (by decide) (by decide) h

/-- The digits of a number do not begin with a zero, unless it is zero. -/
theorem exists_toDigits {n : Nat} (h : 0 < n) :
    ∃ c cs, Nat.toDigits 10 n = c :: cs ∧ c ≠ '0' := by
  induction n using Nat.strong_induction_on with
  | _ n ih =>
    by_cases hn : n < 10
    · exact ⟨_, [], Nat.toDigits_of_lt_base hn, fun h0 => by rw [Nat.digitChar_eq_zero] at h0; omega⟩
    · obtain ⟨c, cs, hcs, hc⟩ := ih (n / 10) (by omega) (by omega)
      rw [Nat.toDigits_of_base_le (by decide) (by omega), hcs]
      exact ⟨c, cs ++ _, rfl, hc⟩

theorem wholeDigits?_toDigits (n : Nat) (h : EndsNumber rest) :
    wholeDigits? (Nat.toDigits 10 n ++ rest) = some (Nat.toDigits 10 n, rest) := by
  obtain rfl | hn := Nat.eq_zero_or_pos n
  · rfl
  · obtain ⟨c, cs, hcs, hc⟩ := exists_toDigits hn
    have hdigits : ∀ d ∈ c :: cs, isDigit d = true := fun d hd =>
      isDigit_of_mem_toDigits (hcs ▸ hd)
    have hspan : spanDigits (c :: cs ++ rest) = (c :: cs, rest) := by
      have hrest : rest.takeWhile isDigit = [] ∧ rest.dropWhile isDigit = rest := by
        cases rest with
        | nil => exact ⟨rfl, rfl⟩
        | cons d rest =>
          have hd := (h d rfl).1
          exact ⟨List.takeWhile_cons_of_neg (by simp [hd]), List.dropWhile_cons_of_neg (by simp [hd])⟩
      rw [spanDigits, List.takeWhile_append_of_pos hdigits, List.dropWhile_append_of_pos hdigits,
        hrest.1, hrest.2, List.append_nil]
    rw [hcs, List.cons_append, wholeDigits?, if_pos (hdigits c List.mem_cons_self),
      ← List.cons_append, hspan]
    exact fun h0 => hc h0

/-- **The digits of a number are read back**, unless there are too many of them. -/
theorem unsignedNumber_toDigits {n : Nat} (negative : Bool) (hlimit : n < 10 ^ Text.digitLimit)
    (h : EndsNumber rest) :
    unsignedNumber negative (Nat.toDigits 10 n ++ rest) =
      .ok (.int (if negative then -(n : Int) else n), rest) := by
  have hfraction : fraction? rest = none := by
    cases rest with
    | nil => rfl
    | cons c rest =>
      rw [fraction?]
      exact fun _ hc => (h c rfl).2.1 (List.cons.inj hc).1
  have hexponent : exponent? rest = none := by
    cases rest with
    | nil => rfl
    | cons c rest =>
      obtain ⟨_, _, he, hE⟩ := h c rfl
      simp [exponent?, he, hE]
  have hlength : (Nat.toDigits 10 n).length ≤ Text.digitLimit :=
    (Nat.length_toDigits_le_iff (by decide) (by decide)).mpr hlimit
  have hvalue : digitsValue (Nat.toDigits 10 n) = n := by
    have hfold := @Nat.ofDigitChars_ten_toDigits n
    simp only [Nat.ofDigitChars_eq_foldl, Nat.mul_comm] at hfold
    exact hfold
  rw [unsignedNumber, wholeDigits?_toDigits n h]
  simp only [hfraction, hexponent, integer, hlength, if_true, hvalue]
  rfl

/-! ## Values -/

/-- What a text is read as with so many levels to go, whatever stands after it. -/
def ReadsAs (depth : Nat) (cs : List Char) (d : Document) : Prop :=
  ∀ room fuel rest, depth ≤ room → cs.length ≤ fuel → EndsNumber rest →
    value room fuel (cs ++ rest) = .ok (d, rest)

/-- A document that is written without carriage returns and without space before it, and is read
back from that. It is nested so many levels deep. -/
def RoundTrips (depth : Nat) (d : Document) : Prop :=
  ∀ level, ∃ text, render Text.doubleQuoted level d = some text ∧ '\r' ∉ text.toList ∧
    (∃ c cs, text.toList = c :: cs ∧ isSpace c = false) ∧ ReadsAs depth text.toList d

theorem roundTrips_bool (depth : Nat) (b : Bool) : RoundTrips depth (.bool b) := by
  intro level
  refine ⟨_, rfl, by cases b <;> decide, by cases b <;> exact ⟨_, _, rfl, rfl⟩, ?_⟩
  intro room fuel rest _ hfuel _
  obtain ⟨fuel, rfl⟩ : ∃ k, fuel = k + 1 := ⟨fuel - 1, by cases b <;> simp at hfuel <;> omega⟩
  rw [value.eq_def]
  cases b <;> rfl

/-- A value that begins with a quote is a text. -/
theorem value_quote {room fuel : Nat} :
    value room (fuel + 1) ('"' :: rest) =
      (quoted rest).map fun found => (.text found.1, found.2) := by
  rw [value.eq_def]
  rfl

/-- No word begins with a digit, nor with a sign before a digit. -/
theorem word?_eq_none (h : isDigit c = true) :
    word? (c :: rest) = none ∧ word? ('-' :: c :: rest) = none := by
  have hne : ∀ d, isDigit d = false → d ≠ c := by
    rintro d hd rfl
    rw [hd] at h
    cases h
  have hnull := hne 'n' rfl
  have htrue := hne 't' rfl
  have hfalse := hne 'f' rfl
  have hnan := hne 'N' rfl
  have hinfinity := hne 'I' rfl
  have hminus := hne '-' rfl
  constructor <;> simp [word?, words, hnull, htrue, hfalse, hnan, hinfinity, hminus]

/-- A value that begins with a digit is a number. -/
theorem value_digit {room fuel : Nat} (h : isDigit c = true) :
    value room (fuel + 1) (c :: rest) = unsignedNumber false (c :: rest) := by
  have hne : ∀ d, isDigit d = false → c ≠ d := by
    rintro d hd rfl
    rw [hd] at h
    cases h
  rw [value.eq_def]
  dsimp only
  split
  · exact absurd (List.cons.inj ‹_›).1 (hne '"' rfl)
  · exact absurd (List.cons.inj ‹_›).1 (hne '\x7b' rfl)
  · exact absurd (List.cons.inj ‹_›).1 (hne '[' rfl)
  · rw [(word?_eq_none h).1]
    dsimp only
    split
    · exact absurd (List.cons.inj ‹_›).1 (hne '-' rfl)
    · rfl

/-- A value that begins with a sign and a digit is a negative number. -/
theorem value_minus {room fuel : Nat} (h : isDigit c = true) :
    value room (fuel + 1) ('-' :: c :: rest) = unsignedNumber true (c :: rest) := by
  rw [value.eq_def]
  dsimp only
  split
  · exact absurd (List.cons.inj ‹_›).1 (by decide)
  · exact absurd (List.cons.inj ‹_›).1 (by decide)
  · exact absurd (List.cons.inj ‹_›).1 (by decide)
  · rw [(word?_eq_none h).2]
    rfl

/-- An integer with no more digits than a reader takes is read back. -/
theorem roundTrips_int (depth : Nat) {n : Int} (hlimit : n.natAbs < 10 ^ Text.digitLimit) :
    RoundTrips depth (.int n) := by
  intro level
  obtain ⟨c, cs, hcs⟩ := List.exists_cons_of_ne_nil (@Nat.toDigits_ne_nil n.natAbs 10)
  have hdigits : ∀ d ∈ c :: cs, isDigit d = true := fun d hd => isDigit_of_mem_toDigits (hcs ▸ hd)
  have hdigit := hdigits c List.mem_cons_self
  have hreturn : '\r' ∉ c :: cs := fun h => by cases hdigits _ h
  have hspace : isSpace c = false := by
    by_contra h
    simp only [isSpace, Bool.not_eq_false, Bool.or_eq_true, decide_eq_true_eq] at h
    obtain ((rfl | rfl) | rfl) | rfl := h <;> cases hdigit
  have hread := fun negative rest => @unsignedNumber_toDigits rest n.natAbs negative hlimit
  rw [hcs] at hread
  cases n with
  | ofNat m =>
    have htext : (toString (Int.ofNat m)).toList = c :: cs := Nat.toList_repr.trans hcs
    refine ⟨_, rfl, htext ▸ hreturn, ⟨c, cs, htext, hspace⟩, fun room fuel rest _ hfuel hrest => ?_⟩
    rw [htext] at hfuel ⊢
    obtain ⟨fuel, rfl⟩ := Nat.exists_eq_add_one.mpr (Nat.lt_of_lt_of_le (by simp) hfuel)
    rw [List.cons_append, value_digit hdigit]
    exact hread false rest hrest
  | negSucc m =>
    have htext : (toString (Int.negSucc m)).toList = '-' :: c :: cs := by
      have hdigits : (Nat.repr (m + 1)).toList = c :: cs := Nat.toList_repr.trans hcs
      rw [Int.toString_eq_repr, Int.repr, String.toList_append, hdigits]
      rfl
    refine ⟨_, rfl, ?_, ⟨'-', c :: cs, htext, by decide⟩, fun room fuel rest _ hfuel hrest => ?_⟩
    · rw [htext, List.mem_cons, not_or]
      exact ⟨by decide, hreturn⟩
    · rw [htext] at hfuel ⊢
      obtain ⟨fuel, rfl⟩ := Nat.exists_eq_add_one.mpr (Nat.lt_of_lt_of_le (by simp) hfuel)
      rw [List.cons_append, List.cons_append, value_minus hdigit]
      exact hread true rest hrest

theorem toList_doubleQuoted (s : String) :
    (Text.doubleQuoted s).toList = '"' :: (s.toList.flatMap Text.escapeAscii ++ ['"']) :=
  String.toList_ofList

/-- A carriage return is written by an escape. -/
theorem return_not_mem_escapeAscii (c : Char) : '\r' ∉ Text.escapeAscii c := by
  have hdigit : ∀ n, Nat.digitChar (n % 16) ≠ '\r' := by
    have hall : ∀ i : Fin 16, Nat.digitChar i ≠ '\r' := by decide
    exact fun n => hall ⟨n % 16, Nat.mod_lt n (by decide)⟩
  intro h
  rw [Text.escapeAscii] at h
  split at h
  · rename_i hletter
    obtain ⟨letter, rfl, hread⟩ := letterEscape?_of_letterEscape? hletter
    obtain rfl : '\r' = letter := by simpa using h
    cases hread
  · split at h
    · rename_i hprintable
      rw [← List.mem_singleton.mp h] at hprintable
      cases hprintable
    · obtain ⟨u, _, hu⟩ := List.mem_flatMap.mp h
      simp only [Text.hex, List.nil_append, List.cons_append, List.mem_cons, List.not_mem_nil,
        or_false, (hdigit _).symm] at hu
      exact absurd hu (by decide)

theorem return_not_mem_doubleQuoted (s : String) : '\r' ∉ (Text.doubleQuoted s).toList := by
  rw [toList_doubleQuoted, List.mem_cons, List.mem_append, List.mem_flatMap, List.mem_singleton]
  rintro (h | ⟨c, _, h⟩ | h)
  · cases h
  · exact return_not_mem_escapeAscii c h
  · cases h

/-- A text without the two halves of a pair side by side is read back. -/
theorem roundTrips_text (depth : Nat) {s : String} (h : Text.AreWhole s.toList) :
    RoundTrips depth (.text s) := by
  intro level
  have htext := toList_doubleQuoted s
  refine ⟨_, rfl, return_not_mem_doubleQuoted s, ⟨_, _, htext, by decide⟩,
    fun room fuel rest _ hfuel _ => ?_⟩
  rw [htext] at hfuel ⊢
  obtain ⟨fuel, rfl⟩ := Nat.exists_eq_add_one.mpr (Nat.lt_of_lt_of_le (by simp) hfuel)
  rw [List.cons_append, List.append_assoc, List.singleton_append, value_quote,
    quoted_flatMap_escapeAscii h]
  rfl

/-! ## Objects -/

/-- A new field is stored at the end. -/
theorem putField_of_not_mem {fs : List (Document × Document)} {key : String} {x : Document}
    (h : ∀ q ∈ fs, q.1.isText key = false) :
    putField fs (.text key) x = fs ++ [(.text key, x)] := by
  induction fs with
  | nil => rfl
  | cons q fs ih =>
    obtain ⟨hq, hfs⟩ := List.forall_mem_cons.mp h
    rw [putField, sameKey_text, hq, if_neg Bool.false_ne_true, ih hfs]
    rfl

/-- The fields of a record. -/
def entries (fs : List (String × Document)) : List (Document × Document) :=
  fs.map fun p => (.text p.1, p.2)

/-- Fields under distinct texts are stored as they are. -/
theorem ofFields_entries {fs : List (String × Document)} (h : (fs.map Prod.fst).Nodup) :
    ofFields (entries fs) = record fs := by
  have hfrom : ∀ before : List (String × Document), ((before ++ fs).map Prod.fst).Nodup →
      (entries fs).foldl (fun acc p => putField acc p.1 p.2) (entries before) =
        entries (before ++ fs) := by
    clear h
    induction fs with
    | nil => intro before _; simp [entries]
    | cons q fs ih =>
      intro before h
      have hnew : ∀ r ∈ entries before, r.1.isText q.1 = false := by
        intro r hr
        obtain ⟨p, hp, rfl⟩ := List.mem_map.mp hr
        rw [List.map_append, List.nodup_append] at h
        have hne := h.2.2 p.1 (List.mem_map_of_mem hp) q.1 (List.mem_map_of_mem List.mem_cons_self)
        simpa [isText] using hne
      have hput : putField (entries before) (.text q.1) q.2 = entries (before ++ [q]) := by
        rw [putField_of_not_mem hnew, entries, entries, List.map_append]
        rfl
      change (entries fs).foldl _ (putField (entries before) (.text q.1) q.2) = _
      rw [hput, ih (before ++ [q]) (by simpa using h), List.append_assoc, List.singleton_append]
  exact congrArg Document.object (hfrom [] h)

theorem toList_newline (level : Nat) :
    (newline level).toList = '\n' :: List.replicate (2 * level) ' ' := by
  have hpush : ∀ n, ("".pushn ' ' n).toList = List.replicate n ' ' := by
    intro n
    rw [String.pushn_eq_repeat_push]
    induction n with
    | zero => rfl
    | succ n ih => rw [Nat.repeat, String.toList_push, ih, ← List.replicate_succ']
  rw [newline, String.toList_append, hpush]
  rfl

theorem return_not_mem_newline (level : Nat) : '\r' ∉ (newline level).toList := by
  rw [toList_newline, List.mem_cons, not_or]
  exact ⟨by decide, fun h => absurd (List.eq_of_mem_replicate h) (by decide)⟩

theorem skipSpace_of_not_isSpace (h : isSpace c = false) : skipSpace (c :: rest) = c :: rest :=
  List.dropWhile_cons_of_neg (by simp [h])

/-- A new line is space. -/
theorem skipSpace_newline (level : Nat) (h : isSpace c = false) :
    skipSpace ((newline level).toList ++ c :: rest) = c :: rest := by
  have hspace : ∀ d ∈ (newline level).toList, isSpace d = true := by
    rw [toList_newline]
    refine List.forall_mem_cons.mpr ⟨by decide, fun d hd => ?_⟩
    rw [List.eq_of_mem_replicate hd]
    decide
  rw [skipSpace, List.dropWhile_append_of_pos hspace]
  exact skipSpace_of_not_isSpace h

/-- One field, and what stands behind it: the end of the object, or further fields. -/
theorem fields_cons {depth room fuel : Nat} {read : List (Document × Document)}
    {key text : String} {d : Document} (hkey : Text.AreWhole key.toList)
    (hfirst : ∃ c cs, text.toList = c :: cs ∧ isSpace c = false)
    (hreads : ReadsAs depth text.toList d) (hroom : depth ≤ room)
    (hfuel : text.toList.length ≤ fuel) (hrest : EndsNumber rest) :
    (∀ after, skipSpace rest = '}' :: after →
      fields room (fuel + 1) read ((Text.doubleQuoted key ++ ": " ++ text).toList ++ rest) =
        .ok (((.text key, d) :: read).reverse, after)) ∧
    ∀ after, skipSpace rest = ',' :: after →
      fields room (fuel + 1) read ((Text.doubleQuoted key ++ ": " ++ text).toList ++ rest) =
        fields room fuel ((.text key, d) :: read) (skipSpace after) := by
  have htext : (Text.doubleQuoted key ++ ": " ++ text).toList ++ rest =
      '"' :: (key.toList.flatMap Text.escapeAscii ++ '"' :: ':' :: ' ' :: (text.toList ++ rest)) := by
    simp [toList_doubleQuoted]
  have hvalue : skipSpace (' ' :: (text.toList ++ rest)) = text.toList ++ rest := by
    obtain ⟨c, cs, hcs, hc⟩ := hfirst
    rw [hcs]
    exact skipSpace_of_not_isSpace hc
  have hskip : skipSpace (':' :: ' ' :: (text.toList ++ rest)) =
      ':' :: ' ' :: (text.toList ++ rest) := rfl
  have hread := hreads room fuel rest hroom hfuel hrest
  constructor
  · intro after hafter
    rw [htext, fields, quoted_flatMap_escapeAscii hkey]
    simp only [hskip, hvalue, hread, hafter]
  · intro after hafter
    rw [htext, fields, quoted_flatMap_escapeAscii hkey]
    simp only [hskip, hvalue, hread, hafter]

/-- What fields are read as with so many levels to go for their values. -/
def FieldsReadAs (depth : Nat) (cs : List Char) (fs : List (Document × Document)) : Prop :=
  ∀ room fuel read rest after, depth ≤ room → cs.length ≤ fuel → EndsNumber rest →
    skipSpace rest = '}' :: after →
      fields room fuel read (cs ++ rest) = .ok (read.reverse ++ fs, after)

theorem return_not_mem_field {key text : String} (h : '\r' ∉ text.toList) :
    '\r' ∉ (Text.doubleQuoted key ++ ": " ++ text).toList := by
  have hkey := return_not_mem_doubleQuoted key
  simp [h, hkey]

theorem toList_field (key text : String) : ∃ tail,
    (Text.doubleQuoted key ++ ": " ++ text).toList = '"' :: tail ∧ text.toList.length ≤ tail.length := by
  rw [String.toList_append, String.toList_append, toList_doubleQuoted]
  exact ⟨_, rfl, by simp; omega⟩

/-- **Fields are read back** from the lines that they are written on. -/
theorem fieldsReadAs_intercalate {depth : Nat} (level : Nat) {p : String × Document}
    {fs : List (String × Document)}
    (h : ∀ q ∈ p :: fs, Text.AreWhole q.1.toList ∧ RoundTrips depth q.2) :
    ∃ parts, renderFields Text.doubleQuoted level (entries (p :: fs)) = some parts ∧
      '\r' ∉ (("," ++ newline level).intercalate parts).toList ∧
      (∃ tail, (("," ++ newline level).intercalate parts).toList = '"' :: tail) ∧
      FieldsReadAs depth (("," ++ newline level).intercalate parts).toList (entries (p :: fs)) := by
  induction fs generalizing p with
  | nil =>
    obtain ⟨hkey, hvalue⟩ := h p List.mem_cons_self
    obtain ⟨text, hrender, hreturn, hfirst, hreads⟩ := hvalue level
    obtain ⟨tail, htail, hlength⟩ := toList_field p.1 text
    refine ⟨[Text.doubleQuoted p.1 ++ ": " ++ text], ?_, ?_, ?_, ?_⟩
    · simp [entries, renderFields, keyText?, hrender]
    · rw [String.intercalate_singleton]
      exact return_not_mem_field hreturn
    · rw [String.intercalate_singleton]
      exact ⟨tail, htail⟩
    · rw [String.intercalate_singleton]
      intro room fuel read rest after hroom hfuel hrest hafter
      rw [htail, List.length_cons] at hfuel
      obtain ⟨fuel, rfl⟩ := Nat.exists_eq_add_one.mpr (Nat.lt_of_lt_of_le (Nat.succ_pos _) hfuel)
      rw [(fields_cons hkey hfirst hreads hroom (by omega) hrest).1 after hafter, List.reverse_cons]
      rfl
  | cons q fs ih =>
    obtain ⟨hkey, hvalue⟩ := h p List.mem_cons_self
    obtain ⟨text, hrender, hreturn, hfirst, hreads⟩ := hvalue level
    obtain ⟨tail, htail, hlength⟩ := toList_field p.1 text
    obtain ⟨parts, hparts, hreturns, ⟨others, hothers⟩, hfields⟩ :=
      ih fun r hr => h r (List.mem_cons_of_mem p hr)
    have hcons : ("," ++ newline level).intercalate ((Text.doubleQuoted p.1 ++ ": " ++ text) :: parts) =
        Text.doubleQuoted p.1 ++ ": " ++ text ++ ("," ++ newline level) ++
          ("," ++ newline level).intercalate parts := by
      cases parts with
      | nil => cases hothers
      | cons => exact String.intercalate_cons_cons
    generalize ("," ++ newline level).intercalate parts = body at *
    refine ⟨(Text.doubleQuoted p.1 ++ ": " ++ text) :: parts, ?_, ?_, ?_, ?_⟩
    · rw [entries, List.map_cons, renderFields, hrender, ← entries, hparts]
      rfl
    · rw [hcons]
      have hfield := @return_not_mem_field p.1 text hreturn
      have hnewline := return_not_mem_newline level
      simp only [String.toList_append, List.mem_append, not_or] at hfield ⊢
      exact ⟨⟨hfield, by decide, hnewline⟩, hreturns⟩
    · rw [hcons, String.toList_append, String.toList_append, htail]
      exact ⟨_, rfl⟩
    · rw [hcons]
      intro room fuel read rest after hroom hfuel hrest hafter
      rw [String.toList_append, String.toList_append, htail] at hfuel
      simp only [List.length_append, List.length_cons] at hfuel
      obtain ⟨fuel, rfl⟩ := Nat.exists_eq_add_one.mpr (show 0 < fuel by omega)
      have hskip : skipSpace ((newline level).toList ++ (body.toList ++ rest)) =
          body.toList ++ rest := by
        rw [hothers]
        exact skipSpace_newline level (by decide)
      have hcomma : (("," ++ newline level).toList ++ (body.toList ++ rest)) =
          ',' :: ((newline level).toList ++ (body.toList ++ rest)) := by
        rw [String.toList_append]
        rfl
      have hends : EndsNumber (',' :: ((newline level).toList ++ (body.toList ++ rest))) := by
        intro c hc
        cases hc
        decide
      rw [String.toList_append, String.toList_append, List.append_assoc, List.append_assoc, hcomma,
        (fields_cons hkey hfirst hreads hroom (by omega) hends).2 _
          (skipSpace_of_not_isSpace (by decide)),
        hskip, hfields room fuel _ rest after hroom (by omega) hrest hafter, List.reverse_cons,
        List.append_assoc]
      rfl

/-- A line end and a closing brace end an object. -/
theorem value_brace {room fuel : Nat} (h : skipSpace rest = '"' :: cs) :
    value (room + 1) (fuel + 1) ('{' :: rest) =
      (fields room fuel [] ('"' :: cs)).map fun found => (.ofFields found.1, found.2) := by
  rw [value.eq_def]
  simp only [h]
  rfl

/-- **A record is read back** if its keys are distinct and its values are. -/
theorem roundTrips_record {depth : Nat} {p : String × Document} {fs : List (String × Document)}
    (hkeys : ((p :: fs).map Prod.fst).Nodup)
    (h : ∀ q ∈ p :: fs, Text.AreWhole q.1.toList ∧ RoundTrips depth q.2) :
    RoundTrips (depth + 1) (record (p :: fs)) := by
  intro level
  obtain ⟨parts, hparts, hreturns, ⟨others, hothers⟩, hfields⟩ :=
    fieldsReadAs_intercalate (level + 1) h
  have hrender : render Text.doubleQuoted level (record (p :: fs)) =
      some ("\x7b" ++ newline (level + 1) ++ ("," ++ newline (level + 1)).intercalate parts ++
        newline level ++ "\x7d") := by
    change (renderFields Text.doubleQuoted (level + 1) (entries (p :: fs))).bind _ = _
    rw [hparts]
    rfl
  generalize ("," ++ newline (level + 1)).intercalate parts = body at *
  have htext : ("\x7b" ++ newline (level + 1) ++ body ++ newline level ++ "\x7d").toList =
      '{' :: ((newline (level + 1)).toList ++ (body.toList ++ ((newline level).toList ++ ['}']))) := by
    simp
  refine ⟨_, hrender, ?_, ⟨'{', _, htext, by decide⟩, ?_⟩
  · have hnewline := return_not_mem_newline
    simp [htext, hnewline, hreturns]
  · rw [htext]
    intro room fuel rest hroom hfuel _
    simp only [List.length_cons, List.length_append] at hfuel
    obtain ⟨fuel, rfl⟩ := Nat.exists_eq_add_one.mpr (show 0 < fuel by omega)
    obtain ⟨room, rfl⟩ := Nat.exists_eq_add_one.mpr (show 0 < room by omega)
    have hends : EndsNumber ((newline level).toList ++ '}' :: rest) := by
      rw [toList_newline]
      intro c hc
      cases hc
      decide
    have hopen : skipSpace ((newline (level + 1)).toList ++ (body.toList ++
        ((newline level).toList ++ '}' :: rest))) =
          body.toList ++ ((newline level).toList ++ '}' :: rest) := by
      rw [hothers]
      exact skipSpace_newline (level + 1) (by decide)
    have hread := hfields room fuel [] _ rest (by omega) (by omega) hends
      (skipSpace_newline level (by decide))
    rw [hothers, List.cons_append] at hopen hread
    rw [List.cons_append, List.append_assoc, List.append_assoc, List.append_assoc,
      List.singleton_append, hothers, List.cons_append, value_brace hopen, hread, List.reverse_nil,
      List.nil_append, ← ofFields_entries hkeys]
    rfl

/-- **What is written is read back**, with the end of a line after it. -/
theorem read_of_roundTrips {depth : Nat} {d : Document} (h : RoundTrips depth d)
    (hdepth : depth ≤ maxDepth) :
    ∃ text, writeAscii? d = some text ∧ '\r' ∉ (text ++ "\n").toList ∧
      Json.read (text ++ "\n") = .ok d := by
  obtain ⟨text, hrender, hreturn, ⟨c, cs, hcs, hc⟩, hreads⟩ := h 0
  have htext : (text ++ "\n").toList = text.toList ++ ['\n'] := String.toList_append
  refine ⟨text, hrender, ?_, ?_⟩
  · rw [htext, List.mem_append, not_or]
    exact ⟨hreturn, by decide⟩
  · have hends : EndsNumber ['\n'] := by
      intro c hc
      cases hc
      decide
    have hstart : skipSpace (text.toList ++ ['\n']) = text.toList ++ ['\n'] := by
      rw [hcs]
      exact skipSpace_of_not_isSpace hc
    rw [Json.read, htext, hstart]
    rw [hreads _ _ _ hdepth (by rw [List.length_append]; omega) hends]
    rfl

end Document.Json

end TypedApi
