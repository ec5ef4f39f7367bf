import TypedApi.Text.Digit
import Mathlib.Algebra.Group.Nat.Defs
import Mathlib.Data.List.Forall2
import Mathlib.Data.List.TakeWhile
import Mathlib.Tactic.Common
/-!
Which texts spell an integer.

A count may be written in many ways: with a sign, with zeros in front, with single
underscores between its digits, with the digits of any script and with blank
characters around it. `Spelling` says what all these are, and `integer?` reads them
and nothing else. The plain numeral of a number is one of its spellings, as long
as it has no more digits than a numeral may have.
-/

set_option autoImplicit false

namespace TypedApi.Text

variable {c : Char} {cs chars before after : List Char} {ds : List Nat} {n : Nat} {z : Int}

/-! ## Numerals -/

/-- Decimal digits, with single underscores between some of them, and their values. -/
inductive Numeral : List Char → List Nat → Prop
  | last (c : Char) (d : Nat) : decimalValue? c = some d → Numeral [c] [d]
  | digit (c : Char) (d : Nat) (cs : List Char) (ds : List Nat) :
    decimalValue? c = some d → Numeral cs ds → Numeral (c :: cs) (d :: ds)
  | underscore (c : Char) (d : Nat) (cs : List Char) (ds : List Nat) :
    decimalValue? c = some d → Numeral cs ds → Numeral (c :: '_' :: cs) (d :: ds)

/-- The number with these digits, the most significant one first. -/
def digitsNumber (ds : List Nat) : Nat :=
  ds.foldl (fun n d => n * 10 + d) 0

/-- A numeral of a number that has no more digits than a numeral may have. -/
def IsNatural (cs : List Char) (n : Nat) : Prop :=
  ∃ ds, Numeral cs ds ∧ ds.length ≤ digitLimit ∧ digitsNumber ds = n

/-- A number with so many digits. -/
theorem digitsNumber_lt (h : ∀ d ∈ ds, d < 10) : digitsNumber ds < 10 ^ ds.length := by
  have hfrom : ∀ (ds : List Nat) (n : Nat), (∀ d ∈ ds, d < 10) →
      ds.foldl (fun n d => n * 10 + d) n < (n + 1) * 10 ^ ds.length := by
    intro ds
    induction ds with
    | nil => intro n _; simp
    | cons d ds ih =>
      intro n h
      obtain ⟨hd, hds⟩ := List.forall_mem_cons.mp h
      have hstep : n * 10 + d + 1 ≤ (n + 1) * 10 := by omega
      refine Nat.lt_of_lt_of_le (ih _ hds) ?_
      rw [List.length_cons, Nat.pow_succ, Nat.mul_comm (10 ^ _) 10, ← Nat.mul_assoc]
      exact Nat.mul_le_mul_right _ hstep
  simpa [digitsNumber] using hfrom ds 0 h

/-- The digits of a numeral are what is left of it without underscores. -/
theorem Numeral.exists_digits (h : Numeral cs ds) :
    ∃ chars, numeralDigits? cs = some chars ∧
      List.Forall₂ (fun c d => decimalValue? c = some d) chars ds := by
  -- no numeral begins with an underscore, so the underscores are those that follow a digit
  have hunderscore : decimalValue? '_' = none := by decide +kernel
  induction h with
  | last c d hc => exact ⟨[c], by simp [numeralDigits?, isDecimal, hc], .cons hc .nil⟩
  | digit c d cs ds hc hcs ih =>
    obtain ⟨chars, hchars, hvalues⟩ := ih
    refine ⟨c :: chars, ?_, .cons hc hvalues⟩
    rw [numeralDigits?.eq_def]
    split
    · contradiction
    · rename_i heq
      cases heq
      cases hcs
    · rename_i heq
      cases heq
      cases hcs <;> simp_all
    · rename_i heq
      cases heq
      simp [isDecimal, hc, hchars]
  | underscore c d cs ds hc _ ih =>
    obtain ⟨chars, hchars, hvalues⟩ := ih
    exact ⟨c :: chars, by simp [numeralDigits?, isDecimal, hc, hchars], .cons hc hvalues⟩

/-- What has digits is a numeral. -/
theorem exists_numeral (h : numeralDigits? cs = some chars) :
    ∃ ds, Numeral cs ds ∧ List.Forall₂ (fun c d => decimalValue? c = some d) chars ds := by
  fun_induction numeralDigits? generalizing chars with
  | case1 => cases h
  | case2 c hc =>
    cases h
    obtain ⟨d, hd⟩ := Option.isSome_iff_exists.mp hc
    exact ⟨[d], .last c d hd, .cons hd .nil⟩
  | case3 => cases h
  | case4 c rest hc ih =>
    obtain ⟨others, hothers, rfl⟩ := Option.map_eq_some_iff.mp h
    obtain ⟨d, hd⟩ := Option.isSome_iff_exists.mp hc
    obtain ⟨ds, hnumeral, hvalues⟩ := ih hothers
    exact ⟨d :: ds, .underscore c d rest ds hd hnumeral, .cons hd hvalues⟩
  | case5 => cases h
  | case6 c rest _ _ hc ih =>
    obtain ⟨others, hothers, rfl⟩ := Option.map_eq_some_iff.mp h
    obtain ⟨d, hd⟩ := Option.isSome_iff_exists.mp hc
    obtain ⟨ds, hnumeral, hvalues⟩ := ih hothers
    exact ⟨d :: ds, .digit c d rest ds hd hnumeral, .cons hd hvalues⟩
  | case7 => cases h

/-- Digits are read by their values, from the most significant one on. -/
theorem digitsValue?_eq (h : List.Forall₂ (fun c d => decimalValue? c = some d) chars ds) :
    digitsValue? chars = some (digitsNumber ds) := by
  have hfrom : ∀ n : Nat,
      chars.foldl (fun acc c => do return (← acc) * 10 + (← decimalValue? c)) (some n) =
        some (ds.foldl (fun n d => n * 10 + d) n) := by
    induction h with
    | nil => intro n; rfl
    | cons hc _ ih =>
      intro n
      simp only [List.foldl_cons, hc]
      exact ih _
  exact hfrom 0

/-- A natural number is read from its numerals and from nothing else. -/
theorem natural?_eq_some_iff : natural? cs = some n ↔ IsNatural cs n := by
  constructor
  · intro h
    obtain ⟨chars, hchars, h⟩ := Option.bind_eq_some_iff.mp h
    obtain ⟨ds, hnumeral, hvalues⟩ := exists_numeral hchars
    split at h
    · rename_i hlimit
      rw [digitsValue?_eq hvalues] at h
      exact ⟨ds, hnumeral, hvalues.length_eq ▸ hlimit, Option.some.inj h⟩
    · cases h
  · rintro ⟨ds, hnumeral, hlimit, rfl⟩
    obtain ⟨chars, hchars, hvalues⟩ := hnumeral.exists_digits
    rw [natural?, hchars, Option.bind_some, if_pos (hvalues.length_eq ▸ hlimit),
      digitsValue?_eq hvalues]

theorem lt_ten_of_decimalValue? {d : Nat} (h : decimalValue? c = some d) : d < 10 := by
  obtain ⟨first, hfirst, rfl⟩ := Option.map_eq_some_iff.mp h
  have hrun := List.find?_some hfirst
  simp only [Bool.and_eq_true, decide_eq_true_eq] at hrun
  omega

/-- The digits of a numeral are below ten. -/
theorem Numeral.lt_ten (h : Numeral cs ds) : ∀ d ∈ ds, d < 10 := by
  induction h with
  | last c d hd => exact List.forall_mem_singleton.mpr (lt_ten_of_decimalValue? hd)
  | digit c d cs ds hd _ ih => exact List.forall_mem_cons.mpr ⟨lt_ten_of_decimalValue? hd, ih⟩
  | underscore c d cs ds hd _ ih => exact List.forall_mem_cons.mpr ⟨lt_ten_of_decimalValue? hd, ih⟩

/-- A number that is read has no more digits than a numeral may have. -/
theorem IsNatural.lt (h : IsNatural cs n) : n < 10 ^ digitLimit := by
  obtain ⟨ds, hnumeral, hlimit, rfl⟩ := h
  exact Nat.lt_of_lt_of_le (digitsNumber_lt hnumeral.lt_ten)
    (Nat.pow_le_pow_right (by decide) hlimit)

/-! ## Margins -/

/-- No decimal digit may stand around a numeral. -/
theorem isMargin_of_decimalValue? {d : Nat} (h : decimalValue? c = some d) :
    isMargin c = false := by
  have htable : ∀ z ∈ decimalZeros, ∀ k ∈ List.range 10, isMargin (Char.ofNat (z + k)) = false := by
    decide +kernel
  obtain ⟨start, hfind, _⟩ := Option.map_eq_some_iff.mp h
  have hrange := List.find?_some hfind
  simp only [Bool.and_eq_true, decide_eq_true_eq] at hrange
  have hc := htable start (List.mem_of_find?_eq_some hfind) (c.toNat - start)
    (List.mem_range.mpr (by omega))
  rwa [show start + (c.toNat - start) = c.toNat by omega, Char.ofNat_toNat] at hc

/-- A text is what is left of it in the middle, between characters that may stand around a
numeral. -/
theorem exists_margins (cs : List Char) :
    ∃ before after, cs = before ++ trimMargin cs ++ after ∧
      (∀ c ∈ before, isMargin c = true) ∧ ∀ c ∈ after, isMargin c = true := by
  refine ⟨cs.takeWhile isMargin, ((cs.dropWhile isMargin).reverse.takeWhile isMargin).reverse,
    ?_, fun c hc => List.mem_takeWhile_imp hc, fun c hc => ?_⟩
  · rw [trimMargin, List.append_assoc, ← List.reverse_append, List.takeWhile_append_dropWhile,
      List.reverse_reverse, List.takeWhile_append_dropWhile]
  · exact List.mem_takeWhile_imp (List.mem_reverse.mp hc)

/-- What begins and ends with other characters is left in the middle. -/
theorem trimMargin_append (hbefore : ∀ c ∈ before, isMargin c = true)
    (hafter : ∀ c ∈ after, isMargin c = true)
    (hhead : ∀ c ∈ cs.head?, isMargin c = false) (hlast : ∀ c ∈ cs.getLast?, isMargin c = false)
    (hne : cs ≠ []) : trimMargin (before ++ cs ++ after) = cs := by
  have hdrop : ∀ {l rest : List Char}, (∀ c ∈ l.head?, isMargin c = false) → l ≠ [] →
      (l ++ rest).dropWhile isMargin = l ++ rest := by
    intro l rest hl hne
    cases l with
    | nil => exact absurd rfl hne
    | cons c l => exact List.dropWhile_cons_of_neg (by simp [hl c rfl])
  rw [trimMargin, List.append_assoc, List.dropWhile_append_of_pos hbefore, hdrop hhead hne,
    List.reverse_append,
    List.dropWhile_append_of_pos fun c hc => hafter c (List.mem_reverse.mp hc),
    ← List.append_nil cs.reverse,
    hdrop (by rwa [List.head?_reverse]) (by simpa using hne), List.append_nil,
    List.reverse_reverse]

/-! ## Integers -/

/-- A numeral with a sign or without. -/
inductive Signed : List Char → Int → Prop
  | unsigned (cs : List Char) (n : Nat) : IsNatural cs n → Signed cs n
  | positive (cs : List Char) (n : Nat) : IsNatural cs n → Signed ('+' :: cs) n
  | negative (cs : List Char) (n : Nat) : IsNatural cs n → Signed ('-' :: cs) (-n)

/-- The texts that spell an integer. -/
def Spelling (s : String) (z : Int) : Prop :=
  ∃ before cs after, s.toList = before ++ cs ++ after ∧ (∀ c ∈ before, isMargin c = true) ∧
    (∀ c ∈ after, isMargin c = true) ∧ Signed cs z

/-- An integer that is spelled has no more digits than a numeral may have. -/
theorem Spelling.natAbs_lt {s : String} (h : Spelling s z) : z.natAbs < 10 ^ digitLimit := by
  obtain ⟨_, cs, _, _, _, _, hsigned⟩ := h
  cases hsigned with
  | unsigned _ n hn => rw [Int.natAbs_natCast]; exact hn.lt
  | positive _ n hn => rw [Int.natAbs_natCast]; exact hn.lt
  | negative _ n hn => rw [Int.natAbs_neg, Int.natAbs_natCast]; exact hn.lt

/-- A numeral begins and ends with a digit. -/
theorem Numeral.ends (h : Numeral cs ds) :
    (∃ c d, cs.head? = some c ∧ decimalValue? c = some d) ∧
      ∃ c d, cs.getLast? = some c ∧ decimalValue? c = some d := by
  induction h with
  | last c d hc => exact ⟨⟨c, d, rfl, hc⟩, ⟨c, d, rfl, hc⟩⟩
  | digit c d cs _ hc _ ih =>
    obtain ⟨_, e, k, he, hk⟩ := ih
    exact ⟨⟨c, d, rfl, hc⟩, ⟨e, k, by simp [List.getLast?_cons, he], hk⟩⟩
  | underscore c d cs _ hc _ ih =>
    obtain ⟨_, e, k, he, hk⟩ := ih
    exact ⟨⟨c, d, rfl, hc⟩, ⟨e, k, by simp [List.getLast?_cons, he], hk⟩⟩

/-- Neither does a numeral with a sign begin or end with a character that may stand around it. -/
theorem Signed.ends (h : Signed cs z) :
    cs ≠ [] ∧ (∀ c ∈ cs.head?, isMargin c = false) ∧ ∀ c ∈ cs.getLast?, isMargin c = false := by
  have hnumeral : ∀ {body : List Char} {n : Nat}, IsNatural body n →
      body ≠ [] ∧ (∀ c ∈ body.head?, isMargin c = false) ∧
        ∀ c ∈ body.getLast?, isMargin c = false := by
    rintro body n ⟨ds, hds, _⟩
    obtain ⟨⟨c, d, hhead, hd⟩, e, k, hlast, hk⟩ := hds.ends
    refine ⟨List.ne_nil_of_mem (List.mem_of_mem_head? hhead), fun x hx => ?_, fun x hx => ?_⟩
    · cases hhead.symm.trans hx
      exact isMargin_of_decimalValue? hd
    · cases hlast.symm.trans hx
      exact isMargin_of_decimalValue? hk
  have hsigned : ∀ {sign : Char} {body : List Char} {n : Nat}, isMargin sign = false →
      IsNatural body n → sign :: body ≠ [] ∧ (∀ c ∈ (sign :: body).head?, isMargin c = false) ∧
        ∀ c ∈ (sign :: body).getLast?, isMargin c = false := by
    intro sign body n hsign hbody
    obtain ⟨hne, _, hlast⟩ := hnumeral hbody
    refine ⟨List.cons_ne_nil _ _, fun x hx => ?_, fun x hx => hlast x ?_⟩
    · cases hx
      exact hsign
    · rwa [List.getLast?_cons_of_ne_nil hne] at hx
  cases h with
  | unsigned _ _ h => exact hnumeral h
  | positive _ _ h => exact hsigned (by decide +kernel) h
  | negative _ _ h => exact hsigned (by decide +kernel) h

/-- A numeral has no sign of its own. -/
theorem IsNatural.ne_cons (h : IsNatural cs n) {sign : Char} (hsign : decimalValue? sign = none) :
    ∀ rest, cs ≠ sign :: rest := by
  rintro rest rfl
  obtain ⟨ds, hds, _⟩ := h
  obtain ⟨⟨c, d, hhead, hd⟩, _⟩ := hds.ends
  cases hhead
  rw [hsign] at hd
  cases hd

/-- The number of a numeral, read as an integer and given its sign. -/
theorem of_map_natural? {f : Int → Int}
    (h : (do let n ← natural? cs; pure (n : Int) : Option Int).map f = some z) :
    ∃ n, IsNatural cs n ∧ f n = z := by
  cases hn : natural? cs with
  | none =>
    rw [hn] at h
    cases h
  | some n =>
    rw [hn] at h
    exact ⟨n, natural?_eq_some_iff.mp hn, Option.some.inj h⟩

/-- **An integer is read from its spellings and from nothing else.** -/
theorem integer?_eq_some_iff {s : String} : integer? s = some z ↔ Spelling s z := by
  constructor
  · intro h
    obtain ⟨before, after, hs, hbefore, hafter⟩ := exists_margins s.toList
    refine ⟨before, _, after, hs, hbefore, hafter, ?_⟩
    rw [integer?] at h
    split at h
    · obtain ⟨n, hn, rfl⟩ := of_map_natural? h
      rw [‹trimMargin s.toList = _›]
      exact .negative _ n hn
    · obtain ⟨n, hn, rfl⟩ := of_map_natural? h
      rw [‹trimMargin s.toList = _›]
      exact .positive _ n hn
    · obtain ⟨n, hn, rfl⟩ := of_map_natural? h
      exact .unsigned _ n hn
  · rintro ⟨before, cs, after, hs, hbefore, hafter, hsigned⟩
    obtain ⟨hne, hhead, hlast⟩ := hsigned.ends
    rw [integer?, hs, trimMargin_append hbefore hafter hhead hlast hne]
    cases hsigned with
    | unsigned _ n h =>
      split
      · exact absurd rfl (h.ne_cons (by decide +kernel) _)
      · exact absurd rfl (h.ne_cons (by decide +kernel) _)
      · rw [natural?_eq_some_iff.mpr h]
        rfl
    | positive cs n h =>
      simp only [natural?_eq_some_iff.mpr h]
      rfl
    | negative cs n h =>
      simp only [natural?_eq_some_iff.mpr h]
      rfl

/-! ## Plain numerals -/

/-- A decimal digit of the first script has its distance from zero as its value. -/
theorem decimalValue?_of_isDigit (h : c.isDigit = true) :
    decimalValue? c = some (c.toNat - '0'.toNat) := by
  have hrange : 48 ≤ c.toNat ∧ c.toNat ≤ 57 :=
    Char.isDigit_iff_toNat.mp h
  have hzero : (decimalZeros.find? fun z => z ≤ c.toNat && c.toNat ≤ z + 9) = some 48 := by
    refine List.find?_cons_of_pos ?_
    simpa using hrange
  rw [decimalValue?, hzero]
  rfl

/-- Digits of the first script are a numeral. -/
theorem numeral_of_isDigit (hne : cs ≠ []) (h : ∀ c ∈ cs, c.isDigit = true) :
    Numeral cs (cs.map fun c => c.toNat - '0'.toNat) := by
  induction cs with
  | nil => exact absurd rfl hne
  | cons c cs ih =>
    have hc := decimalValue?_of_isDigit (h c List.mem_cons_self)
    cases cs with
    | nil => exact .last c _ hc
    | cons e cs =>
      exact .digit c _ _ _ hc (ih (List.cons_ne_nil _ _) fun x hx => h x (List.mem_cons_of_mem _ hx))

/-- **The plain numeral of a number is read as that number**, unless it has too many digits for a
numeral. -/
theorem integer?_toString (h : n < 10 ^ digitLimit) : integer? (toString n) = some (n : Int) := by
  refine integer?_eq_some_iff.mpr ⟨[], Nat.toDigits 10 n, [], ?_, by simp, by simp, ?_⟩
  · rw [Nat.toString_eq_ofList_toDigits, String.toList_ofList, List.nil_append, List.append_nil]
  refine .unsigned _ n ⟨_, numeral_of_isDigit Nat.toDigits_ne_nil fun c hc =>
    Nat.isDigit_of_mem_toDigits (by decide) (by decide) hc, ?_, ?_⟩
  · rw [List.length_map]
    exact (Nat.length_toDigits_le_iff (by decide) (by decide)).mpr h
  · rw [digitsNumber, List.foldl_map]
    simpa only [Nat.ofDigitChars_eq_foldl, Nat.mul_comm] using Nat.ofDigitChars_ten_toDigits

end TypedApi.Text
