import Mathlib.Data.List.TakeWhile
import TypedApi.Proofs.Bindings.Lines
import TypedApi.Proofs.Bindings.Literals
import TypedApi.Proofs.Name.Snake
/-!
Documentation literals.

The text of a documentation literal is written in two passes: backslashes are
doubled, and then every three quotes get backslashes. What has been written stays a
literal under whatever follows it, except that quotes at its end may close it with
quotes that follow. Three quotes are complete, so all that counts is how many are
left over at the end.

A text of one line closes on that line, and so its last quote is escaped once more.
Where the quotes at its end are left over by none, the last of them has been escaped
already: the two backslashes become one character, and the literal closes a quote too
early. Every other text is one literal.
-/

set_option autoImplicit false

namespace TypedApi

namespace Bindings

variable {c : Char} {cs rest : List Char}

/-! ## Quotes at the end -/

/-- The quotes at the end of a text that comes after some quotes. -/
def quotesFrom : Nat → List Char → Nat
  | n, [] => n
  | n, c :: cs => if c = '"' then quotesFrom (n + 1) cs else quotesFrom 0 cs

/-- The quotes at the end of a text. -/
def endQuotes (cs : List Char) : Nat :=
  quotesFrom 0 cs

theorem quotesFrom_quote (n : Nat) (cs : List Char) :
    quotesFrom n ('"' :: cs) = quotesFrom (n + 1) cs := by
  simp [quotesFrom]

theorem quotesFrom_cons (n : Nat) (h : c ≠ '"') : quotesFrom n (c :: cs) = endQuotes cs := by
  simp [quotesFrom, endQuotes, h]

theorem quotesFrom_append (n : Nat) (cs cs' : List Char) :
    quotesFrom n (cs ++ cs') = quotesFrom (quotesFrom n cs) cs' := by
  induction cs generalizing n with
  | nil => rfl
  | cons c cs ih =>
    rw [List.cons_append, quotesFrom, quotesFrom]
    split
    · exact ih (n + 1)
    · exact ih 0

/-- Three quotes in front leave over as many. -/
theorem quotesFrom_add_three (n : Nat) (cs : List Char) :
    quotesFrom (n + 3) cs % 3 = quotesFrom n cs % 3 := by
  induction cs generalizing n with
  | nil => exact Nat.add_mod_right n 3
  | cons c cs ih =>
    rw [quotesFrom, quotesFrom]
    split
    · rw [Nat.add_right_comm]
      exact ih (n + 1)
    · rfl

/-- A text that ends in a quote. -/
theorem exists_of_endQuotes_eq_succ {n : Nat} (h : endQuotes cs = n + 1) :
    ∃ front, cs = front ++ ['"'] ∧ endQuotes front = n := by
  rcases List.eq_nil_or_concat' cs with rfl | ⟨front, c, rfl⟩
  · cases h
  · rw [endQuotes, quotesFrom_append] at h
    by_cases hc : c = '"'
    · subst hc
      exact ⟨front, rfl, Nat.succ.inj h⟩
    · rw [quotesFrom_cons _ hc] at h
      cases h

/-! ## Bodies -/

theorem closes_long_iff : closes true cs = true ↔ ∃ tail, cs = '"' :: '"' :: tail := by
  rw [closes, Bool.not_true, Bool.false_or, List.isPrefixOf_iff_prefix]
  exact exists_congr fun tail => eq_comm

theorem closes_of_head?_ne (h : cs.head? ≠ some '"') : closes true cs = false := by
  by_contra hcloses
  obtain ⟨tail, rfl⟩ := closes_long_iff.mp (eq_true_of_ne_false hcloses)
  exact h rfl

theorem closes_cons_of_head?_ne (h : cs.head? ≠ some '"') : closes true (c :: cs) = false := by
  by_contra hcloses
  obtain ⟨tail, htail⟩ := closes_long_iff.mp (eq_true_of_ne_false hcloses)
  exact h (by rw [(List.cons.inj htail).2, List.head?_cons])

theorem literalBody_backslash : literalBody ('\\' :: cs) = '\\' :: '\\' :: literalBody cs := by
  simp [literalBody, doubleBackslashes, guardQuotes]

theorem literalBody_quotes :
    literalBody ('"' :: '"' :: '"' :: cs) =
      '\\' :: '"' :: '\\' :: '"' :: '\\' :: '"' :: literalBody cs := by
  simp [literalBody, doubleBackslashes, guardQuotes]

theorem doubleBackslashes_cons (h : c ≠ '\\') :
    doubleBackslashes (c :: cs) = c :: doubleBackslashes cs := by
  simp [doubleBackslashes, h]

theorem doubleBackslashes_backslash :
    doubleBackslashes ('\\' :: cs) = '\\' :: '\\' :: doubleBackslashes cs := by
  simp [doubleBackslashes]

/-- Doubling backslashes puts no quote in front. -/
theorem exists_of_doubleBackslashes_eq {tail : List Char}
    (h : doubleBackslashes cs = '"' :: tail) :
    ∃ cs', cs = '"' :: cs' ∧ doubleBackslashes cs' = tail := by
  cases cs with
  | nil => cases h
  | cons c cs =>
    by_cases hslash : c = '\\'
    · subst hslash
      rw [doubleBackslashes_backslash] at h
      cases h
    · rw [doubleBackslashes_cons hslash] at h
      cases h
      exact ⟨cs, rfl, rfl⟩

/-- A character that begins no three quotes and is no backslash. -/
theorem literalBody_cons (hslash : c ≠ '\\') (h : c = '"' → closes true cs = false) :
    literalBody (c :: cs) = c :: literalBody cs := by
  rw [literalBody, doubleBackslashes_cons hslash, guardQuotes, literalBody]
  intro tail hc hcs
  obtain ⟨cs', rfl, hcs'⟩ := exists_of_doubleBackslashes_eq hcs
  obtain ⟨cs'', rfl, _⟩ := exists_of_doubleBackslashes_eq hcs'
  cases h hc

/-- Writing a text puts nothing but backslashes in front. -/
theorem head?_literalBody_append {d : Char} (hd : d ≠ '\\')
    (h : (literalBody cs ++ rest).head? = some d) : (cs ++ rest).head? = some d := by
  cases cs with
  | nil => exact h
  | cons c cs =>
    by_cases hslash : c = '\\'
    · subst hslash
      rw [literalBody_backslash] at h
      exact absurd (Option.some.inj h).symm hd
    · by_cases hquote : c = '"' → closes true cs = false
      · rw [literalBody_cons hslash hquote] at h
        exact h
      · rw [Classical.not_imp] at hquote
        obtain ⟨rfl, hcloses⟩ := hquote
        obtain ⟨tail, rfl⟩ := closes_long_iff.mp (eq_true_of_ne_false hcloses)
        rw [literalBody_quotes] at h
        exact absurd (Option.some.inj h).symm hd

/-- Writing a text puts no two quotes in front. -/
theorem closes_literalBody_append (h : closes true (cs ++ rest) = false) :
    closes true (literalBody cs ++ rest) = false := by
  by_contra hcloses
  obtain ⟨tail, htail⟩ := closes_long_iff.mp (eq_true_of_ne_false hcloses)
  have hhead : (cs ++ rest).head? = some '"' :=
    head?_literalBody_append (by decide) (by rw [htail]; rfl)
  cases cs with
  | nil => exact hcloses h
  | cons c cs =>
    obtain rfl : c = '"' := Option.some.inj hhead
    have hnext : closes true cs = false := by
      by_contra hnext
      obtain ⟨cs', rfl⟩ := closes_long_iff.mp (eq_true_of_ne_false hnext)
      cases h
    rw [literalBody_cons (by decide) fun _ => hnext] at htail
    have htail : literalBody cs ++ rest = '"' :: tail := (List.cons.inj htail).2
    have hsecond : (cs ++ rest).head? = some '"' :=
      head?_literalBody_append (by decide) (by rw [htail]; rfl)
    obtain ⟨tail', htail'⟩ := List.head?_eq_some_iff.mp hsecond
    rw [List.cons_append, htail'] at h
    cases h

/-! ## Parts -/

/-- Whether the quotes that are left over at the end of a text are none, or not followed by more. -/
def Parted (cs rest : List Char) : Prop :=
  endQuotes cs % 3 = 0 ∨ rest.head? ≠ some '"'

theorem Parted.of_quotes (h : Parted ('"' :: '"' :: '"' :: cs) rest) : Parted cs rest := by
  rw [Parted, endQuotes, quotesFrom_quote, quotesFrom_quote, quotesFrom_quote,
    quotesFrom_add_three] at h
  exact h

/-- A character that begins no three quotes begins none with what follows either. -/
theorem Parted.of_cons (h : Parted (c :: cs) rest) (hquote : c = '"' → closes true cs = false) :
    Parted cs rest ∧ (c = '"' → closes true (cs ++ rest) = false) := by
  by_cases hc : c = '"'
  · subst hc
    rw [Parted, endQuotes, quotesFrom_quote] at h
    cases cs with
    | nil =>
      have hrest : rest.head? ≠ some '"' := h.resolve_left (by decide)
      refine ⟨.inl rfl, fun _ => closes_of_head?_ne hrest⟩
    | cons d cs =>
      by_cases hd : d = '"'
      · subst hd
        cases cs with
        | nil =>
          have hrest : rest.head? ≠ some '"' := h.resolve_left (by decide)
          exact ⟨.inr hrest, fun _ => closes_cons_of_head?_ne hrest⟩
        | cons e cs =>
          have he : e ≠ '"' := by
            rintro rfl
            cases hquote rfl
          rw [quotesFrom_quote, quotesFrom_cons _ he] at h
          rw [Parted, endQuotes, quotesFrom_quote, quotesFrom_cons _ he]
          refine ⟨h, fun _ => closes_cons_of_head?_ne ?_⟩
          exact fun hhead => he (Option.some.inj hhead)
      · rw [quotesFrom_cons _ hd] at h
        rw [Parted, endQuotes, quotesFrom_cons _ hd]
        exact ⟨h, fun _ => closes_of_head?_ne fun hhead => hd (Option.some.inj hhead)⟩
  · rw [Parted, endQuotes, quotesFrom_cons 0 hc] at h
    exact ⟨h, fun hc' => absurd hc' hc⟩

/-- What is not three quotes is no quote with two quotes after it. -/
theorem closes_of_notQuotes (h : ∀ tail, c = '"' → cs = '"' :: '"' :: tail → False) (hc : c = '"') :
    closes true cs = false := by
  by_contra hcloses
  obtain ⟨tail, rfl⟩ := closes_long_iff.mp (eq_true_of_ne_false hcloses)
  exact h tail hc rfl

/-- **Two parts of a text are written one after the other.** -/
theorem literalBody_append (h : Parted cs rest) :
    literalBody (cs ++ rest) = literalBody cs ++ literalBody rest := by
  induction cs using guardQuotes.induct with
  | case1 => rfl
  | case2 cs ih =>
    rw [List.cons_append, List.cons_append, List.cons_append, literalBody_quotes,
      literalBody_quotes, ih h.of_quotes]
    rfl
  | case3 c cs hquotes ih =>
    have hquote : c = '"' → closes true cs = false := closes_of_notQuotes hquotes
    obtain ⟨hparted, hnext⟩ := h.of_cons hquote
    by_cases hslash : c = '\\'
    · subst hslash
      rw [List.cons_append, literalBody_backslash, literalBody_backslash, ih hparted]
      rfl
    · rw [List.cons_append, literalBody_cons hslash hnext, literalBody_cons hslash hquote,
        ih hparted]
      rfl

/-! ## Reading -/

/-- Whether a long literal can hold a character, with a backslash before it or without. -/
def isPlain (c : Char) : Bool :=
  c ≠ '\r' && isSource c

/-- What a reader answers that comes to some characters before it answers. -/
def through (cs : List Char) (found : Option (List Char × List Char)) :
    Option (List Char × List Char) :=
  if cs.all isPlain then found.map (Found.after cs) else none

theorem through_nil (found : Option (List Char × List Char)) : through [] found = found := by
  cases found <;> rfl

theorem through_cons (found : Option (List Char × List Char)) :
    through (c :: cs) found =
      if isPlain c then (through cs found).map (Found.before c) else none := by
  by_cases hc : isPlain c = true
  · by_cases hcs : cs.all isPlain = true
    · simp only [through, List.all_cons, hc, hcs, Bool.and_self, if_true, Option.map_map]
      rfl
    · simp [through, hc, hcs]
  · simp [through, hc]

theorem through_append (cs cs' : List Char) (found : Option (List Char × List Char)) :
    through (cs ++ cs') found = through cs (through cs' found) := by
  induction cs with
  | nil => rw [through_nil, List.nil_append]
  | cons c cs ih => rw [List.cons_append, through_cons, through_cons, ih]

/-- Coming to some characters before the end. -/
theorem through_eq_some_iff {left value left' : List Char} :
    through cs (some ([], left)) = some (value, left') ↔
      (∀ c ∈ cs, isPlain c = true) ∧ value = cs ∧ left' = left := by
  rw [through, ← List.all_eq_true]
  by_cases hcs : cs.all isPlain = true
  · simp [hcs, Found.after, eq_comm]
  · simp [hcs]

/-- A quote after a backslash is one in the text. -/
theorem literalFrom_escaped_quote :
    literalFrom true ('\\' :: '"' :: rest) = through ['"'] (literalFrom true rest) := by
  rw [literalFrom_letter (e := '"') rfl, through_cons, through_nil, if_pos (by decide)]

/-- **What has been written is read back**, up to a character that a source file cannot hold. -/
theorem literalFrom_literalBody (h : Parted cs rest) :
    literalFrom true (literalBody cs ++ rest) = through cs (literalFrom true rest) := by
  induction cs using guardQuotes.induct with
  | case1 => exact (through_nil _).symm
  | case2 cs ih =>
    rw [literalBody_quotes]
    simp only [List.cons_append]
    rw [literalFrom_escaped_quote, literalFrom_escaped_quote, literalFrom_escaped_quote,
      ih h.of_quotes, ← through_append, ← through_append, ← through_append]
    rfl
  | case3 c cs hquotes ih =>
    have hquote : c = '"' → closes true cs = false := closes_of_notQuotes hquotes
    obtain ⟨hparted, hnext⟩ := h.of_cons hquote
    rw [through_cons, ← ih hparted]
    by_cases hslash : c = '\\'
    · subst hslash
      rw [literalBody_backslash, List.cons_append, List.cons_append, literalFrom_letter rfl,
        if_pos (by decide)]
    · rw [literalBody_cons hslash hquote, List.cons_append]
      by_cases hc : c = '"'
      · subst hc
        rw [literalFrom_quote_of_not_closes (closes_literalBody_append (hnext rfl)),
          if_pos (by decide)]
      · rw [literalFrom_cons hslash]
        simp [isItself, isPlain, hc, hslash]

/-! ## One line -/

/-- Whether a text closes a literal too early: it ends in quotes, and none of them is left over. -/
def Overruns (cs : List Char) : Prop :=
  endQuotes cs % 3 = 0 ∧ endQuotes cs ≠ 0

instance (cs : List Char) : Decidable (Overruns cs) :=
  inferInstanceAs (Decidable (_ ∧ _))

theorem guardLast_append_quote (front : List Char) :
    guardLast (front ++ ['"']) = front ++ ['\\', '"'] := by
  simp [guardLast]

theorem guardLast_append (front : List Char) (h : c ≠ '"') :
    guardLast (front ++ [c]) = front ++ [c] := by
  rw [guardLast, List.reverse_append, List.reverse_singleton, List.singleton_append]
  split
  · rename_i heq
    exact absurd (List.cons.inj heq).1 h
  · rfl

/-- What does not end in a quote is written without one at its end. -/
theorem guardLast_literalBody (h : endQuotes cs = 0) :
    guardLast (literalBody cs) = literalBody cs := by
  rcases List.eq_nil_or_concat' cs with rfl | ⟨front, c, rfl⟩
  · rfl
  · have hc : c ≠ '"' := by
      rintro rfl
      rw [endQuotes, quotesFrom_append, quotesFrom_quote] at h
      exact Nat.succ_ne_zero _ h
    have hparted : Parted front [c] := .inr fun hhead => hc (Option.some.inj hhead)
    rw [literalBody_append hparted]
    by_cases hslash : c = '\\'
    · subst hslash
      have hlast := guardLast_append (literalBody front ++ ['\\']) hc
      rwa [List.append_assoc] at hlast
    · rw [literalBody_cons hslash fun hc' => absurd hc' hc]
      exact guardLast_append (literalBody front) hc

/-- One more quote is written as one, unless it is the third. -/
theorem literalBody_append_quote (h : endQuotes cs % 3 ≠ 2) :
    literalBody (cs ++ ['"']) = literalBody cs ++ ['"'] := by
  by_cases hzero : endQuotes cs % 3 = 0
  · exact literalBody_append (.inl hzero)
  · obtain ⟨n, hn⟩ : ∃ n, endQuotes cs = n + 1 := Nat.exists_eq_succ_of_ne_zero (by omega)
    obtain ⟨front, rfl, hfront⟩ := exists_of_endQuotes_eq_succ hn
    have hparted : ∀ rest, Parted front rest := fun rest => .inl (by omega)
    rw [List.append_assoc, literalBody_append (hparted _), literalBody_append (hparted _),
      List.append_assoc]
    rfl

/-- The third quote. -/
theorem literalBody_append_three (h : endQuotes cs % 3 = 0) :
    literalBody (cs ++ ['"', '"', '"']) =
      literalBody cs ++ ['\\', '"', '\\', '"', '\\'] ++ ['"'] := by
  rw [literalBody_append (.inl h), List.append_assoc]
  rfl

theorem literalFrom_tripleQuote : literalFrom true tripleQuote = some ([], []) :=
  literalFrom_quote rfl

/-- **A text of one line is read back** if it ends in no quotes, or some of them are left over. -/
theorem literalFrom_oneLine (h : ¬Overruns cs) :
    literalFrom true (guardLast (literalBody cs) ++ tripleQuote) = through cs (some ([], [])) := by
  cases hquotes : endQuotes cs with
  | zero =>
    rw [guardLast_literalBody hquotes, literalFrom_literalBody (.inl (by omega)),
      literalFrom_tripleQuote]
  | succ n =>
    have hleft : (n + 1) % 3 ≠ 0 := fun hzero => h ⟨by omega, by omega⟩
    obtain ⟨front, rfl, hfront⟩ := exists_of_endQuotes_eq_succ hquotes
    rw [literalBody_append_quote (by omega), guardLast_append_quote, List.append_assoc,
      literalFrom_literalBody (.inr (by decide)), through_append]
    exact congrArg (through front) literalFrom_escaped_quote

/-- **The last quote of a text closes its literal** if none is left over: a backslash is put before
it that has one before it. -/
theorem literalFrom_overrun (h : Overruns cs) :
    literalFrom true (guardLast (literalBody cs) ++ tripleQuote) =
      through (cs.dropLast ++ ['\\']) (some ([], ['"'])) := by
  obtain ⟨hleft, hsome⟩ := h
  obtain ⟨n, hn⟩ : ∃ n, endQuotes cs = n + 2 + 1 := ⟨endQuotes cs - 3, by omega⟩
  obtain ⟨cs₂, rfl, hcs₂⟩ := exists_of_endQuotes_eq_succ hn
  obtain ⟨cs₁, rfl, hcs₁⟩ := exists_of_endQuotes_eq_succ hcs₂
  obtain ⟨front, rfl, hfront⟩ := exists_of_endQuotes_eq_succ hcs₁
  have hfront : endQuotes front % 3 = 0 := by omega
  have hwritten : guardLast (literalBody (front ++ ['"'] ++ ['"'] ++ ['"'])) =
      literalBody front ++ ['\\', '"', '\\', '"', '\\', '\\', '"'] := by
    have hquotes : front ++ ['"'] ++ ['"'] ++ ['"'] = front ++ ['"', '"', '"'] := by simp
    rw [hquotes, literalBody_append_three hfront, guardLast_append_quote, List.append_assoc]
    rfl
  -- two quotes are read, then a backslash, and then the quote that was to be the last
  have hread : literalFrom true (['\\', '"', '\\', '"', '\\', '\\', '"'] ++ tripleQuote) =
      through ['"', '"', '\\'] (some ([], ['"'])) := by
    decide
  rw [List.dropLast_concat, hwritten, List.append_assoc, literalFrom_literalBody (.inl hfront),
    hread, ← through_append]
  simp only [List.append_assoc, List.cons_append, List.nil_append]

/-! ## Lines -/

theorem mem_literalBody (h : c ∈ literalBody cs) : c ∈ cs ∨ c = '\\' := by
  induction cs using guardQuotes.induct with
  | case1 => exact .inl h
  | case2 cs ih =>
    rw [literalBody_quotes] at h
    simp only [List.mem_cons] at h ⊢
    grind
  | case3 d cs hquotes ih =>
    by_cases hslash : d = '\\'
    · subst hslash
      rw [literalBody_backslash] at h
      simp only [List.mem_cons] at h ⊢
      grind
    · rw [literalBody_cons hslash (closes_of_notQuotes hquotes)] at h
      simp only [List.mem_cons] at h ⊢
      grind

theorem mem_literalBody_of_mem (h : c ∈ cs) : c ∈ literalBody cs := by
  induction cs using guardQuotes.induct with
  | case1 => exact h
  | case2 cs ih =>
    rw [literalBody_quotes]
    simp only [List.mem_cons] at h ⊢
    grind
  | case3 d cs hquotes ih =>
    by_cases hslash : d = '\\'
    · subst hslash
      rw [literalBody_backslash]
      simp only [List.mem_cons] at h ⊢
      grind
    · rw [literalBody_cons hslash (closes_of_notQuotes hquotes)]
      simp only [List.mem_cons] at h ⊢
      grind

theorem unbroken_literalBody (h : Text.Unbroken cs) : Text.Unbroken (literalBody cs) := by
  intro c hc
  rcases mem_literalBody hc with hc | rfl
  · exact h c hc
  · decide

/-- A line end is written as it is. -/
theorem literalBody_lineEnd (hc : Text.isLineEnd c = true) :
    literalBody (cs ++ c :: rest) = literalBody cs ++ c :: literalBody rest := by
  have hquote : c ≠ '"' := by
    rintro rfl
    cases hc
  have hslash : c ≠ '\\' := by
    rintro rfl
    cases hc
  have hparted : Parted cs (c :: rest) := .inr fun hhead => hquote (Option.some.inj hhead)
  rw [literalBody_append hparted, literalBody_cons hslash fun hc' => absurd hc' hquote]

theorem lines_of_unbroken (h : Text.Unbroken cs) (hne : cs ≠ []) : Text.lines cs = [cs] := by
  rw [Text.lines, ← List.append_nil cs, Text.linesFrom_append h, Text.linesFrom]
  simp [hne]

/-- **The lines of what is written** are those of the text, each written by itself. The induction is
along the lines. -/
theorem lines_literalBody_append {current : List Char} (h : Text.Unbroken current) :
    Text.lines (literalBody (current.reverse ++ cs)) =
      (Text.linesFrom current cs).map literalBody := by
  have hwritten := unbroken_literalBody h.reverse
  fun_induction Text.linesFrom current cs with
  | case1 current hempty =>
    rw [List.isEmpty_iff.mp hempty]
    rfl
  | case2 current hempty =>
    have hne : literalBody current.reverse ≠ [] := by
      obtain ⟨c, hc⟩ := List.exists_mem_of_ne_nil current (by simpa using hempty)
      exact List.ne_nil_of_mem (mem_literalBody_of_mem (List.mem_reverse.mpr hc))
    rw [List.append_nil, lines_of_unbroken hwritten hne]
    rfl
  | case3 current cs ih =>
    have hline : literalBody ('\n' :: cs) = '\n' :: literalBody cs :=
      literalBody_cons (by decide) fun hc => absurd hc (by decide)
    rw [literalBody_lineEnd (by decide), hline, Text.lines, Text.linesFrom_append hwritten,
      Text.linesFrom, List.append_nil, List.reverse_reverse]
    exact congrArg _ (ih Text.unbroken_nil (by decide))
  | case4 current c cs hpair hend ih =>
    have hnext : c = '\r' → (literalBody cs).head? ≠ some '\n' := by
      intro hc hhead
      rw [← List.append_nil (literalBody cs)] at hhead
      have hcs := head?_literalBody_append (by decide) hhead
      rw [List.append_nil] at hcs
      obtain ⟨tail, rfl⟩ := List.head?_eq_some_iff.mp hcs
      exact hpair tail hc rfl
    rw [literalBody_lineEnd hend, Text.lines, Text.linesFrom_append hwritten,
      Text.linesFrom_cons hnext, if_pos hend, List.append_nil, List.reverse_reverse]
    exact congrArg _ (ih Text.unbroken_nil (by decide))
  | case5 current c cs hpair hend ih =>
    have hnext := h.cons (eq_false_of_ne_true hend)
    rw [← ih hnext (unbroken_literalBody hnext.reverse), List.reverse_cons, List.append_assoc]
    rfl

theorem lines_literalBody (cs : List Char) :
    Text.lines (literalBody cs) = (Text.lines cs).map literalBody :=
  lines_literalBody_append Text.unbroken_nil

/-- Where a line ends and something follows, there are two lines. -/
theorem exists_linesFrom_of_not_unbroken (current : List Char) (h : ¬Text.Unbroken cs)
    (hlast : ∀ c, cs.getLast? = some c → Text.isLineEnd c = false) :
    ∃ first second later, Text.linesFrom current cs = first :: second :: later := by
  fun_induction Text.linesFrom current cs with
  | case1 current hempty | case2 current hempty => exact absurd Text.unbroken_nil h
  | case3 current cs ih =>
    have hne : cs ≠ [] := by
      rintro rfl
      exact absurd (hlast '\n' rfl) (by decide)
    obtain ⟨second, later, hlater⟩ := Text.exists_linesFrom_eq cs hne
    exact ⟨_, _, _, congrArg _ (hlater [])⟩
  | case4 current c cs hpair hend ih =>
    have hne : cs ≠ [] := by
      rintro rfl
      rw [hlast c rfl] at hend
      cases hend
    obtain ⟨second, later, hlater⟩ := Text.exists_linesFrom_eq cs hne
    exact ⟨_, _, _, congrArg _ (hlater [])⟩
  | case5 current c cs hpair hend ih =>
    have hbroken : ¬Text.Unbroken cs := fun hcs => h (hcs.cons (eq_false_of_ne_true hend))
    refine ih hbroken fun d hd => hlast d ?_
    rw [List.getLast?_cons, hd]
    rfl

/-- What is in a line is in the text. -/
theorem mem_of_mem_linesFrom {current line : List Char} (hline : line ∈ Text.linesFrom current cs)
    (hc : c ∈ line) : c ∈ current ∨ c ∈ cs := by
  fun_induction Text.linesFrom current cs with
  | case1 current hempty => cases hline
  | case2 current hempty =>
    rw [List.mem_singleton.mp hline] at hc
    exact .inl (List.mem_reverse.mp hc)
  | case3 current cs ih =>
    rcases List.mem_cons.mp hline with rfl | hline
    · exact .inl (List.mem_reverse.mp hc)
    · exact .inr (List.mem_cons_of_mem _ (List.mem_cons_of_mem _
        ((ih hline).resolve_left List.not_mem_nil)))
  | case4 current d cs hpair hend ih =>
    rcases List.mem_cons.mp hline with rfl | hline
    · exact .inl (List.mem_reverse.mp hc)
    · exact .inr (List.mem_cons_of_mem _ ((ih hline).resolve_left List.not_mem_nil))
  | case5 current d cs hpair hend ih =>
    have := ih hline
    simp only [List.mem_cons] at this ⊢
    grind

/-- What is in a text and ends no line is in a line. -/
theorem exists_line_of_mem (current : List Char) (hc : Text.isLineEnd c = false)
    (h : c ∈ current ∨ c ∈ cs) : ∃ line ∈ Text.linesFrom current cs, c ∈ line := by
  fun_induction Text.linesFrom current cs with
  | case1 current hempty =>
    rw [List.isEmpty_iff.mp hempty] at h
    simp at h
  | case2 current hempty =>
    exact ⟨_, List.mem_singleton_self _, List.mem_reverse.mpr (h.resolve_right List.not_mem_nil)⟩
  | case3 current cs ih =>
    rcases h with h | h
    · exact ⟨_, List.mem_cons_self, List.mem_reverse.mpr h⟩
    · have hcs : c ∈ cs := by
        rcases List.mem_cons.mp h with rfl | h
        · cases hc
        · rcases List.mem_cons.mp h with rfl | h
          · cases hc
          · exact h
      obtain ⟨line, hline, hmem⟩ := ih (.inr hcs)
      exact ⟨line, List.mem_cons_of_mem _ hline, hmem⟩
  | case4 current d cs hpair hend ih =>
    rcases h with h | h
    · exact ⟨_, List.mem_cons_self, List.mem_reverse.mpr h⟩
    · have hcs : c ∈ cs := by
        rcases List.mem_cons.mp h with rfl | h
        · rw [hc] at hend
          cases hend
        · exact h
      obtain ⟨line, hline, hmem⟩ := ih (.inr hcs)
      exact ⟨line, List.mem_cons_of_mem _ hline, hmem⟩
  | case5 current d cs hpair hend ih =>
    apply ih
    simp only [List.mem_cons] at h ⊢
    grind

/-! ## Several lines -/

theorem literalBody_of_blank (h : ∀ c ∈ cs, Text.isBlank c = true) : literalBody cs = cs := by
  induction cs with
  | nil => rfl
  | cons c cs ih =>
    rw [List.forall_mem_cons] at h
    have hslash : c ≠ '\\' := by
      rintro rfl
      cases h.1
    have hquote : c ≠ '"' := by
      rintro rfl
      cases h.1
    rw [literalBody_cons hslash fun hc => absurd hc hquote, ih h.2]

theorem blank_pad (indent : Nat) : ∀ c ∈ pad indent, Text.isBlank c = true := by
  intro c hc
  rw [List.eq_of_mem_replicate hc]
  decide

theorem endQuotes_pad (indent : Nat) : endQuotes (pad indent) = 0 := by
  induction indent with
  | zero => rfl
  | succ indent ih =>
    rw [pad, List.replicate_succ, endQuotes, quotesFrom_cons _ (by decide)]
    exact ih

/-- A later line is written by itself. -/
theorem laterLine_literalBody (indent : Nat) (line : List Char) :
    laterLine indent (literalBody line) = literalBody (laterLine indent line) := by
  by_cases hblank : ∀ c ∈ line, Text.isBlank c = true
  · rw [literalBody_of_blank hblank, laterLine, if_pos (List.all_eq_true.mpr hblank)]
    rfl
  · have hwritten : ¬∀ c ∈ literalBody line, Text.isBlank c = true :=
      fun h => hblank fun c hc => h c (mem_literalBody_of_mem hc)
    have hpad : Parted (pad indent) line := .inl (by rw [endQuotes_pad])
    rw [laterLine, laterLine, if_neg (by rwa [List.all_eq_true]),
      if_neg (by rwa [List.all_eq_true]), literalBody_append hpad,
      literalBody_of_blank (blank_pad indent)]

/-- Lines one under the other. -/
def stacked (lines : List (List Char)) : List Char :=
  List.intercalate ['\n'] lines

theorem stacked_cons (first : List Char) (later : List (List Char)) :
    stacked (first :: later) = first ++ later.flatMap ('\n' :: ·) :=
  Name.intercalate_singleton_cons '\n' first later

/-- **Lines one under the other** are written one under the other. -/
theorem literalBody_stacked (first : List Char) (later : List (List Char)) :
    literalBody (stacked (first :: later)) = stacked ((first :: later).map literalBody) := by
  rw [List.map_cons, stacked_cons, stacked_cons]
  induction later generalizing first with
  | nil => rw [List.flatMap_nil, List.map_nil, List.flatMap_nil, List.append_nil, List.append_nil]
  | cons second later ih =>
    rw [List.flatMap_cons, List.cons_append, literalBody_lineEnd (by decide), ih]
    rfl

/-- A text of several lines as it is read in a literal: all lines but the first are indented, and so
are the closing quotes. -/
def indented (indent : Nat) (first : List Char) (later : List (List Char)) : List Char :=
  stacked (first :: (later.map (laterLine indent) ++ [pad indent]))

/-- **The lines of a literal** of several lines are what the text is read as, written between three
quotes and three quotes. -/
theorem stacked_literalLines (indent : Nat) (first second : List Char) (later : List (List Char)) :
    stacked (literalLines indent ((first :: second :: later).map literalBody)) =
      pad indent ++ (tripleQuote ++
        (literalBody (indented indent first (second :: later)) ++ tripleQuote)) := by
  have hlater : (later.map (laterLine indent)).map literalBody =
      (later.map literalBody).map (laterLine indent) := by
    rw [List.map_map, List.map_map]
    exact List.map_congr_left fun line _ => (laterLine_literalBody indent line).symm
  have hpad := literalBody_of_blank (blank_pad indent)
  rw [indented, literalBody_stacked]
  simp only [List.map_cons, List.map_append, List.map_nil, literalLines, List.cons_append,
    stacked_cons, List.flatMap_cons, List.flatMap_append, List.flatMap_nil, List.append_assoc,
    List.append_nil, hlater, hpad, laterLine_literalBody]

theorem endQuotes_indented (indent : Nat) (first : List Char) (later : List (List Char)) :
    endQuotes (indented indent first later) = 0 := by
  rw [indented, stacked_cons, List.flatMap_append, ← List.append_assoc, endQuotes,
    quotesFrom_append, List.flatMap_singleton, quotesFrom_cons _ (by decide)]
  exact endQuotes_pad indent

/-! ## Literals -/

theorem isSource_of_lt (hzero : c.toNat ≠ 0) (h : c.toNat < 0x10000) : isSource c = true := by
  have hne : c ≠ '\x00' := by
    rintro rfl
    exact hzero rfl
  have hhalf : Text.halfUnit? c = none := by
    rw [Text.halfUnit?, Text.halfBase, decide_eq_false (by omega), Bool.false_and,
      if_neg Bool.false_ne_true]
  rw [isSource, decide_eq_true hne, hhalf]
  rfl

theorem isSource_of_isBlank (h : Text.isBlank c = true) : isSource c = true := by
  simp [Text.isBlank] at h
  exact isSource_of_lt (by omega) (by omega)

/-- Line ends are blank. -/
theorem isBlank_of_isLineEnd (h : Text.isLineEnd c = true) : Text.isBlank c = true := by
  simp [Text.isLineEnd] at h
  simp [Text.isBlank]
  omega

/-- What stripping leaves does not end in a blank character. -/
theorem not_blank_of_getLast?_stripChars (h : (Text.stripChars cs).getLast? = some c) :
    Text.isBlank c = false := by
  rw [Text.stripChars, Text.stripRight, List.getLast?_reverse] at h
  have := List.head?_dropWhile_not Text.isBlank (cs.dropWhile Text.isBlank).reverse
  rw [h] at this
  simpa using this

/-- Stripping leaves nothing exactly of a blank text. -/
theorem stripChars_eq_nil_iff : Text.stripChars cs = [] ↔ ∀ c ∈ cs, Text.isBlank c = true := by
  rw [Text.stripChars, Text.stripRight, List.reverse_eq_nil_iff, List.dropWhile_eq_nil_iff]
  simp only [List.mem_reverse]
  constructor
  · intro h
    rw [← List.dropWhile_eq_nil_iff]
    by_contra hne
    obtain ⟨c, rest, hrest⟩ := List.exists_cons_of_ne_nil hne
    have hfirst := List.head?_dropWhile_not Text.isBlank cs
    rw [hrest] at hfirst h
    rw [List.head?_cons] at hfirst
    exact absurd (h c List.mem_cons_self) (by simpa using hfirst)
  · intro h c hc
    exact h c ((List.dropWhile_sublist _).subset hc)

/-- A character that a literal can hold is one that a source file can hold, unless it is a carriage
return. -/
theorem isPlain_iff : isPlain c = true ↔ c ≠ '\r' ∧ isSource c = true := by
  simp [isPlain]

theorem isPlain_of_mem_pad {indent : Nat} (h : c ∈ pad indent) : isPlain c = true := by
  rw [List.eq_of_mem_replicate h]
  decide

/-- A text of one line has no carriage return. -/
theorem plain_iff_of_unbroken (h : Text.Unbroken cs) :
    (∀ c ∈ cs, isPlain c = true) ↔ ∀ c ∈ cs, isSource c = true := by
  refine forall₂_congr fun c hc => ?_
  rw [isPlain_iff, and_iff_right]
  rintro rfl
  exact absurd (h _ hc) (by decide)

theorem isPlain_of_mem_lines {line : List Char} (h : ∀ c ∈ cs, isSource c = true)
    (hline : line ∈ Text.lines cs) : ∀ c ∈ line, isPlain c = true := by
  rw [plain_iff_of_unbroken (Text.unbroken_of_mem_linesFrom Text.unbroken_nil hline)]
  exact fun c hc => h c ((mem_of_mem_linesFrom hline hc).resolve_left List.not_mem_nil)

/-- **A text of several lines** is read as characters that a literal can hold exactly if a source
file can hold all its characters. -/
theorem plain_indented_iff (indent : Nat) {first : List Char} {later : List (List Char)}
    (h : Text.lines cs = first :: later) :
    (∀ c ∈ indented indent first later, isPlain c = true) ↔ ∀ c ∈ cs, isSource c = true := by
  have hindented : ∀ c, c ∈ indented indent first later ↔
      c ∈ first ∨ (∃ line ∈ later, c = '\n' ∨ c ∈ laterLine indent line) ∨
        c = '\n' ∨ c ∈ pad indent := by
    intro c
    simp [indented, stacked_cons]
  constructor
  · intro hplain c hc
    by_cases hblank : Text.isBlank c = true
    · exact isSource_of_isBlank hblank
    · have hend : Text.isLineEnd c = false :=
        eq_false_of_ne_true fun hend => hblank (isBlank_of_isLineEnd hend)
      obtain ⟨line, hline, hmem⟩ := exists_line_of_mem [] hend (.inr hc)
      rw [← Text.lines, h] at hline
      refine (isPlain_iff.mp (hplain c ((hindented c).mpr ?_))).2
      rcases List.mem_cons.mp hline with rfl | hline
      · exact .inl hmem
      · refine .inr (.inl ⟨line, hline, .inr ?_⟩)
        rw [laterLine, if_neg fun hall => hblank (List.all_eq_true.mp hall c hmem)]
        exact List.mem_append_right _ hmem
  · intro hsource c hc
    have hplain : ∀ line ∈ first :: later, ∀ c ∈ line, isPlain c = true :=
      fun line hline => isPlain_of_mem_lines hsource (h ▸ hline)
    rcases (hindented c).mp hc with hc | ⟨line, hline, rfl | hc⟩ | rfl | hc
    · exact hplain first List.mem_cons_self c hc
    · decide
    · rw [laterLine] at hc
      split at hc
      · cases hc
      · rcases List.mem_append.mp hc with hc | hc
        · exact isPlain_of_mem_pad hc
        · exact hplain line (List.mem_cons_of_mem _ hline) c hc
    · decide
    · exact isPlain_of_mem_pad hc

/-- Whether a text is one literal between three quotes and nothing else. -/
def IsDocLiteral (literal : List Char) : Prop :=
  tripleQuote <+: literal ∧ ∃ value, literal? literal = some (value, [])

/-- What is written for a text without blank ends. It is one literal unless a source file cannot
hold some character of the text, or the text is one line that closes its literal too early. A text
of one line is the value then; where the literal is closed too early, one quote is left over.
Several lines are read as they are indented. -/
structure Documents (indent : Nat) (cs literal : List Char) : Prop where
  whole : IsDocLiteral literal ↔
    (∀ c ∈ cs, isSource c = true) ∧ ¬(Text.Unbroken cs ∧ Overruns cs)
  line : Text.Unbroken cs → (∀ c ∈ cs, isSource c = true) →
    literal? literal = some (if Overruns cs then (cs.dropLast ++ ['\\'], ['"']) else (cs, []))
  lines : ∀ first second later, Text.lines cs = first :: second :: later →
    (∀ c ∈ cs, isSource c = true) →
    literal? literal = some (indented indent first (second :: later), [])

/-- What comes to the closing quotes and has nothing after them is one literal exactly if a literal
can hold all its characters. -/
theorem isDocLiteral_iff_of_through {written : List Char}
    (h : literal? (tripleQuote ++ written) = through cs (some ([], []))) :
    IsDocLiteral (tripleQuote ++ written) ↔ ∀ c ∈ cs, isPlain c = true := by
  constructor
  · rintro ⟨_, value, hread⟩
    rw [h, through_eq_some_iff] at hread
    exact hread.1
  · intro hplain
    refine ⟨List.prefix_append _ _, cs, ?_⟩
    rw [h, through_eq_some_iff]
    exact ⟨hplain, rfl, rfl⟩

/-- The literal of a text of one line. -/
theorem documents_line (indent : Nat) (h : Text.Unbroken cs) (hne : cs ≠ []) :
    ∃ literal, stacked (literalLines indent (Text.lines (literalBody cs))) = pad indent ++ literal ∧
      Documents indent cs literal := by
  have hlines := lines_of_unbroken h hne
  refine ⟨tripleQuote ++ (guardLast (literalBody cs) ++ tripleQuote), ?_, ?_⟩
  · rw [lines_literalBody, hlines, List.map_singleton, literalLines, stacked_cons]
    simp only [List.flatMap_nil, List.append_nil, List.append_assoc]
  · have hopen : literal? (tripleQuote ++ (guardLast (literalBody cs) ++ tripleQuote)) =
        literalFrom true (guardLast (literalBody cs) ++ tripleQuote) := rfl
    have hseveral : ∀ first second later, Text.lines cs ≠ first :: second :: later := by
      intro first second later hlater
      rw [hlines] at hlater
      cases hlater
    by_cases hoverrun : Overruns cs
    · rw [literalFrom_overrun hoverrun] at hopen
      refine ⟨iff_of_false ?_ fun hgood => hgood.2 ⟨h, hoverrun⟩, fun _ hsource => ?_,
        fun first second later hlater => absurd hlater (hseveral _ _ _)⟩
      · rintro ⟨_, value, hread⟩
        rw [hopen, through_eq_some_iff] at hread
        cases hread.2.2
      · rw [hopen, if_pos hoverrun, through_eq_some_iff, List.forall_mem_append]
        have hplain := (plain_iff_of_unbroken h).mpr hsource
        refine ⟨⟨fun c hc => hplain c ((List.dropLast_sublist cs).subset hc), ?_⟩, rfl, rfl⟩
        rw [List.forall_mem_singleton]
        decide
    · rw [literalFrom_oneLine hoverrun] at hopen
      refine ⟨?_, fun _ hsource => ?_,
        fun first second later hlater => absurd hlater (hseveral _ _ _)⟩
      · rw [and_iff_left fun hbad => hoverrun hbad.2, ← plain_iff_of_unbroken h]
        exact isDocLiteral_iff_of_through hopen
      · rw [hopen, if_neg hoverrun, through_eq_some_iff]
        exact ⟨(plain_iff_of_unbroken h).mpr hsource, rfl, rfl⟩

/-- The literal of a text of several lines. -/
theorem documents_lines (indent : Nat) {first second : List Char} {later : List (List Char)}
    (h : Text.lines cs = first :: second :: later) :
    ∃ literal, stacked (literalLines indent (Text.lines (literalBody cs))) = pad indent ++ literal ∧
      Documents indent cs literal := by
  have hbroken : ¬Text.Unbroken cs := by
    intro hunbroken
    by_cases hne : cs = []
    · rw [hne] at h
      cases h
    · rw [lines_of_unbroken hunbroken hne] at h
      cases h
  refine ⟨_, by rw [lines_literalBody, h, stacked_literalLines], ?_⟩
  have hparted : Parted (indented indent first (second :: later)) tripleQuote :=
    .inl (by rw [endQuotes_indented])
  have hopen : literal? (tripleQuote ++
      (literalBody (indented indent first (second :: later)) ++ tripleQuote)) =
        through (indented indent first (second :: later)) (some ([], [])) := by
    rw [← literalFrom_tripleQuote, ← literalFrom_literalBody hparted]
    rfl
  have hplain := plain_indented_iff indent h
  refine ⟨?_, fun hunbroken => absurd hunbroken hbroken, ?_⟩
  · rw [and_iff_left fun hbad => hbroken hbad.1, ← hplain]
    exact isDocLiteral_iff_of_through hopen
  · intro first' second' later' hlater hsource
    rw [h] at hlater
    cases hlater
    rw [hopen, through_eq_some_iff]
    exact ⟨hplain.mpr hsource, rfl, rfl⟩

/-- **Documentation literals.** There is none exactly for a text that is absent or blank. Otherwise
one stands after the indentation. -/
theorem documents_docLiteral (text : Option String) (indent : Nat) :
    ((text.bind fun s => docLiteral? s indent) = none ↔
      ∀ s, text = some s → Text.isBlankText s = true) ∧
      ∀ s out, text = some s → docLiteral? s indent = some out →
        ∃ literal, out.toList = pad indent ++ literal ∧
          Documents indent (Text.stripChars s.toList) literal := by
  constructor
  · rw [Option.bind_eq_none_iff]
    refine forall₂_congr fun s _ => ?_
    rw [Text.isBlankText, List.all_eq_true, ← stripChars_eq_nil_iff, ← List.isEmpty_iff,
      docLiteral?]
    split <;> simp_all
  · intro s out _ h
    rw [docLiteral?] at h
    split at h
    · cases h
    · rename_i hempty
      cases h
      rw [String.toList_ofList]
      have hne : Text.stripChars s.toList ≠ [] := by simpa using hempty
      by_cases hunbroken : Text.Unbroken (Text.stripChars s.toList)
      · exact documents_line indent hunbroken hne
      · obtain ⟨first, second, later, hlines⟩ := exists_linesFrom_of_not_unbroken [] hunbroken
          fun c hc => eq_false_of_ne_true fun hend => by
            have hblank := isBlank_of_isLineEnd hend
            rw [not_blank_of_getLast?_stripChars hc] at hblank
            cases hblank
        exact documents_lines indent hlines

/-- Three quotes are not one literal: the third is written with two backslashes before it, so it
closes the literal, and the last of the closing quotes is left over. -/
theorem overrun_quotes :
    docLiteral? "\"\"\"" 0 = some "\"\"\"\\\"\\\"\\\\\"\"\"\"" ∧
      literal? "\"\"\"\\\"\\\"\\\\\"\"\"\"".toList = some (['"', '"', '\\'], ['"']) ∧
      ¬IsDocLiteral "\"\"\"\\\"\\\"\\\\\"\"\"\"".toList := by
  have hread : literal? "\"\"\"\\\"\\\"\\\\\"\"\"\"".toList =
      some (['"', '"', '\\'], ['"']) := by
    decide +kernel
  refine ⟨by decide +kernel, hread, ?_⟩
  rintro ⟨_, value, hvalue⟩
  rw [hread] at hvalue
  cases hvalue

end Bindings

end TypedApi
