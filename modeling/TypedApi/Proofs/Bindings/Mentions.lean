import TypedApi.Bindings.TypeExpr
import TypedApi.Proofs.Name.Plain
/-!
The names that a piece of generated code mentions.

Generated code is read here as it is written, one character after the other. A
name between double quotes is only quoted. Any other word is mentioned, but for
one before an equals sign, which is the name of an argument; what begins with a
digit is a number.

A type expression is read name by name if all of its names are identifiers. That
is stated with whatever may stand after the expression still ahead, since a word
that is not over yet could go on in it.
-/

set_option autoImplicit false

namespace TypedApi

/-- A name that code mentions, bare or between quotes. -/
inductive Mention where
  | bare (name : String)
  | quoted (name : String)
deriving DecidableEq, Repr

/-- The name that is mentioned. -/
def Mention.name : Mention → String
  | bare name => name
  | quoted name => name

/-! ## Reading code -/

/-- What is being read: a word or a string, with the characters so far in reverse. -/
inductive Reading where
  | nothing
  | number
  | word (run : List Char)
  | string (run : List Char)
deriving DecidableEq

namespace Reading

/-- Whether a character can be part of a name. -/
def isNameChar (c : Char) : Bool :=
  Name.isWordChar c || c = '_'

/-- What a character begins. -/
def begin (c : Char) : Reading :=
  if c = '"' then .string []
  else if Name.isNumeric c then .number
  else if isNameChar c then .word [c]
  else .nothing

/-- The names mentioned in what is left to read. -/
def scan : Reading → List Char → List Mention
  | .word run, [] => [.bare (String.ofList run.reverse)]
  | _, [] => []
  | .nothing, c :: rest => scan (begin c) rest
  | .number, c :: rest => if isNameChar c then scan .number rest else scan (begin c) rest
  | .word run, c :: rest =>
    if isNameChar c then scan (.word (c :: run)) rest
    else if c = '=' then scan .nothing rest
    else .bare (String.ofList run.reverse) :: scan (begin c) rest
  | .string run, c :: rest =>
    if c = '"' then .quoted (String.ofList run.reverse) :: scan .nothing rest
    else scan (.string (c :: run)) rest

end Reading

/-- The names mentioned in a piece of code. -/
def mentions (code : String) : List Mention :=
  Reading.scan .nothing code.toList

namespace TypeExpr

/-- The names at the end of a range that is open. -/
def endMentions : Option Int → List Mention
  | some _ => []
  | none => [.bare "None"]

mutual
/-- The names of an expression, in order. -/
def mentioned : TypeExpr → List Mention
  | .builtin name => [.bare name]
  | .defined name => [.bare name]
  | .quoted name => [.quoted name]
  | .within low high =>
    .bare "Annotated" :: .bare "int" :: .bare "Field" :: (endMentions low ++ endMentions high)
  | .applied head arguments => .bare head :: allMentioned arguments

/-- The names of expressions, in order. -/
def allMentioned : List TypeExpr → List Mention
  | [] => []
  | e :: rest => e.mentioned ++ allMentioned rest
end

end TypeExpr

namespace Reading

/-! ## Words, numbers and strings -/

/-- The characters at which a word or a number ends, and which begin nothing. -/
def punctuation : List Char :=
  ['[', ']', '(', ')', ',']

/-- What may stand after an expression. -/
def Ended (rest : List Char) : Prop :=
  ∀ c ∈ rest.head?, c ∈ punctuation

/-- A text that mentions names, whatever stands after it. -/
def Reads (text : List Char) (names : List Mention) : Prop :=
  ∀ rest, Ended rest → scan .nothing (text ++ rest) = names ++ scan .nothing rest

variable {letters rest run text text' : List Char} {names names' : List Mention} {name : String}
  {c : Char}

theorem ended_cons (h : c ∈ punctuation) : Ended (c :: rest) := by
  intro d hd
  cases hd
  exact h

/-- What a punctuation character does: it ends a word or a number, and begins nothing. -/
theorem of_mem_punctuation (h : c ∈ punctuation) :
    begin c = .nothing ∧ isNameChar c = false ∧ c ≠ '=' := by
  have hall : punctuation.all
      (fun d => begin d = .nothing ∧ isNameChar d = false ∧ d ≠ '=') = true := by
    decide
  exact of_decide_eq_true (List.all_eq_true.mp hall c h)

/-- Nothing begins at a punctuation character. -/
theorem scan_punctuation (h : c ∈ punctuation) (rest : List Char) :
    scan .nothing (c :: rest) = scan .nothing rest := by
  rw [scan, (of_mem_punctuation h).1]

theorem scan_word (h : ∀ d ∈ letters, isNameChar d = true) (rest : List Char) :
    scan (.word run) (letters ++ rest) = scan (.word (letters.reverse ++ run)) rest := by
  induction letters generalizing run with
  | nil => rfl
  | cons d letters ih =>
    rw [List.cons_append, scan, if_pos (h d List.mem_cons_self),
      ih fun e he => h e (List.mem_cons_of_mem _ he), List.reverse_cons, List.append_assoc]
    rfl

theorem scan_number (h : ∀ d ∈ letters, isNameChar d = true) (rest : List Char) :
    scan .number (letters ++ rest) = scan .number rest := by
  induction letters with
  | nil => rfl
  | cons d letters ih =>
    rw [List.cons_append, scan, if_pos (h d List.mem_cons_self),
      ih fun e he => h e (List.mem_cons_of_mem _ he)]

theorem scan_string (h : ∀ d ∈ letters, d ≠ '"') (rest : List Char) :
    scan (.string run) (letters ++ '"' :: rest) =
      .quoted (String.ofList (run.reverse ++ letters)) :: scan .nothing rest := by
  induction letters generalizing run with
  | nil => rw [List.nil_append, scan, if_pos rfl, List.append_nil]
  | cons d letters ih =>
    rw [List.cons_append, scan, if_neg (h d List.mem_cons_self),
      ih fun e he => h e (List.mem_cons_of_mem _ he), List.reverse_cons, List.append_assoc]
    rfl

/-- A word ends where an expression does. -/
theorem scan_word_ended (h : Ended rest) :
    scan (.word run) rest = .bare (String.ofList run.reverse) :: scan .nothing rest := by
  cases rest with
  | nil => rfl
  | cons c rest =>
    have hc := h c rfl
    obtain ⟨hbegin, hname, hequals⟩ := of_mem_punctuation hc
    rw [scan_punctuation hc, scan, hname, if_neg Bool.false_ne_true, if_neg hequals, hbegin]

/-- So does a number. -/
theorem scan_number_ended (h : Ended rest) : scan .number rest = scan .nothing rest := by
  cases rest with
  | nil => rfl
  | cons c rest =>
    have hc := h c rfl
    obtain ⟨hbegin, hname, _⟩ := of_mem_punctuation hc
    rw [scan_punctuation hc, scan, hname, if_neg Bool.false_ne_true, hbegin]

theorem isNameChar_iff : isNameChar c = true ↔ Name.isWordChar c = true ∨ c = '_' := by
  rw [isNameChar, Bool.or_eq_true, decide_eq_true_eq]

theorem toNat_lt_of_isNameChar (h : isNameChar c = true) : c.toNat < 128 := by
  rcases isNameChar_iff.mp h with h | rfl
  · exact Name.toNat_lt_of_isWordChar h
  · decide

/-- The first character of an identifier begins a word. -/
theorem begin_of_isIdentifier (h : (Name.isCapital c || Name.isSmall c) = true ∨ c = '_') :
    begin c = .word [c] := by
  have hall : ∀ n < 128, (Name.isCapital (Char.ofNat n) || Name.isSmall (Char.ofNat n)) = true →
      begin (Char.ofNat n) = .word [Char.ofNat n] := by
    decide
  rcases h with h | rfl
  · exact Name.forall_ascii (p := fun d => (Name.isCapital d || Name.isSmall d) = true →
      begin d = .word [d]) hall (Name.toNat_lt_of_isWordChar (by rw [Name.isWordChar, h]; rfl)) h
  · decide

/-- Reading an identifier goes on from the whole of it. -/
theorem scan_identifier (h : Name.IsIdentifier name) (rest : List Char) :
    scan .nothing (name.toList ++ rest) = scan (.word name.toList.reverse) rest := by
  obtain ⟨c, letters, hname, hfirst, hletters⟩ := h
  rw [hname, List.cons_append, scan, begin_of_isIdentifier hfirst,
    scan_word fun d hd => isNameChar_iff.mpr (hletters d hd), List.reverse_cons]

/-- **An identifier is read as one name.** -/
theorem reads_identifier (h : Name.IsIdentifier name) : Reads name.toList [.bare name] := by
  intro rest hrest
  rw [scan_identifier h, scan_word_ended hrest, List.reverse_reverse, String.ofList_toList]
  rfl

/-- The characters of a name need no escape. -/
theorem escapeAscii_of_isNameChar (h : isNameChar c = true) :
    Text.escapeAscii c = [c] ∧ c ≠ '"' := by
  have hall : ∀ n < 128, isNameChar (Char.ofNat n) = true →
      Text.escapeAscii (Char.ofNat n) = [Char.ofNat n] ∧ Char.ofNat n ≠ '"' := by
    decide
  exact Name.forall_ascii (p := fun d => isNameChar d = true →
    Text.escapeAscii d = [d] ∧ d ≠ '"') hall (toNat_lt_of_isNameChar h) h

theorem flatMap_escapeAscii (h : ∀ d ∈ text, isNameChar d = true) :
    text.flatMap Text.escapeAscii = text := by
  induction text with
  | nil => rfl
  | cons d text ih =>
    rw [List.flatMap_cons, (escapeAscii_of_isNameChar (h d List.mem_cons_self)).1,
      ih fun e he => h e (List.mem_cons_of_mem _ he)]
    rfl

/-- **An identifier between quotes is read as a quoted name.** -/
theorem reads_doubleQuoted (h : Name.IsIdentifier name) :
    Reads (Text.doubleQuoted name).toList [.quoted name] := by
  have hchars : ∀ d ∈ name.toList, isNameChar d = true :=
    fun d hd => isNameChar_iff.mpr (h.plain d hd)
  intro rest _
  rw [Text.doubleQuoted, String.toList_ofList, flatMap_escapeAscii hchars, List.cons_append,
    List.append_assoc, scan, show begin '"' = .string [] from rfl]
  -- no character of the name is a quote, so the string ends where it should
  refine (scan_string (fun d hd => (escapeAscii_of_isNameChar (hchars d hd)).2) rest).trans ?_
  rw [List.reverse_nil, List.nil_append, String.ofList_toList]
  rfl

/-- A digit begins a number, and goes on with one. -/
theorem of_isNumeric (h : Name.isNumeric c = true) : begin c = .number ∧ isNameChar c = true := by
  have hall : ∀ n < 128, Name.isNumeric (Char.ofNat n) = true →
      begin (Char.ofNat n) = .number ∧ isNameChar (Char.ofNat n) = true := by
    decide
  exact Name.forall_ascii (p := fun d => Name.isNumeric d = true →
    begin d = .number ∧ isNameChar d = true) hall
    (Name.toNat_lt_of_isWordChar (by rw [Name.isWordChar, h, Bool.or_true])) h

/-- A number mentions nothing. -/
theorem reads_digits (h : ∀ d ∈ text, Name.isNumeric d = true) : Reads text [] := by
  intro rest hrest
  cases text with
  | nil => rfl
  | cons d digits =>
    rw [List.cons_append, scan, (of_isNumeric (h d List.mem_cons_self)).1,
      scan_number fun e he => (of_isNumeric (h e (List.mem_cons_of_mem _ he))).2,
      scan_number_ended hrest]
    rfl

/-- A negative number is written with a sign. -/
theorem toList_endText_negSucc (k : Nat) :
    (Scalar.endText (some (.negSucc k))).toList = '-' :: (toString (k + 1)).toList := by
  rw [Scalar.endText, Int.toString_eq_repr, Int.repr]
  exact String.toList_append ..

/-- One end of a range mentions something only if it is open. -/
theorem reads_endText (bound : Option Int) :
    Reads (Scalar.endText bound).toList (TypeExpr.endMentions bound) := by
  cases bound with
  | none => exact reads_identifier (by decide)
  | some n =>
    cases n with
    | ofNat k => exact reads_digits fun d hd => Name.isNumeric_of_mem_toString hd
    | negSucc k =>
      have hdigits : Reads (toString (k + 1)).toList [] :=
        reads_digits fun d hd => Name.isNumeric_of_mem_toString hd
      intro rest hrest
      -- the sign begins nothing
      rw [toList_endText_negSucc, List.cons_append, scan, show begin '-' = .nothing from rfl]
      exact hdigits rest hrest

/-! ## Expressions -/

theorem reads_nil : Reads [] [] :=
  fun _ _ => rfl

/-- Two texts are read one after the other if a punctuation character stands between them. -/
theorem Reads.append (h : Reads text names) (hc : c ∈ punctuation) (h' : Reads text' names') :
    Reads (text ++ c :: text') (names ++ names') := by
  intro rest hrest
  rw [List.append_assoc, List.cons_append, h _ (ended_cons hc), scan_punctuation hc, h' rest hrest,
    List.append_assoc]

/-- A text is read after a blank as it is without. -/
theorem Reads.blank (h : Reads text names) : Reads (' ' :: text) names := by
  intro rest hrest
  exact h rest hrest

/-- The name of an argument is not mentioned. -/
theorem Reads.argument (hname : Name.IsIdentifier name) (h : Reads text names) :
    Reads (name.toList ++ '=' :: text) names := by
  intro rest hrest
  rw [List.append_assoc, scan_identifier hname]
  exact h rest hrest

end Reading

namespace TypeExpr

open Reading

theorem text_within (low high : Option Int) : (within low high).text =
    "Annotated[int, Field(ge=" ++ Scalar.endText low ++ ", le=" ++ Scalar.endText high ++ ")]" :=
  rfl

theorem text_applied (head : String) (arguments : List TypeExpr) :
    (applied head arguments).text = head ++ "[" ++ ", ".intercalate (texts arguments) ++ "]" :=
  rfl

/-- A range mentions what it is made with, and an end that is open. -/
theorem reads_within (low high : Option Int) :
    Reads (within low high).text.toList (within low high).mentioned := by
  have hidentifier : ∀ name ∈ ["Annotated", "int", "Field", "ge", "le"],
      Name.IsIdentifier name := by
    decide +kernel
  have htext : (within low high).text.toList =
      "Annotated".toList ++ '[' :: ("int".toList ++ ',' :: ' ' :: ("Field".toList ++ '(' ::
        (("ge".toList ++ '=' :: (Scalar.endText low).toList) ++ ',' :: ' ' ::
          ("le".toList ++ '=' :: ((Scalar.endText high).toList ++ ')' :: ([] ++ ']' :: [])))))) := by
    simp [text_within]
  have hlow := (reads_endText low).argument (hidentifier "ge" (by simp))
  have hclosed := (reads_endText high).append (c := ')') (by decide)
    (reads_nil.append (c := ']') (by decide) reads_nil)
  have hhigh := hclosed.argument (hidentifier "le" (by simp))
  have hfield := (reads_identifier (hidentifier "Field" (by simp))).append (c := '(') (by decide)
    (hlow.append (c := ',') (by decide) hhigh.blank)
  have hint := (reads_identifier (hidentifier "int" (by simp))).append (c := ',') (by decide)
    hfield.blank
  have hall := (reads_identifier (hidentifier "Annotated" (by simp))).append (c := '[') (by decide)
    hint
  have hnames : (within low high).mentioned = [.bare "Annotated"] ++ ([.bare "int"] ++
      ([.bare "Field"] ++ (endMentions low ++ (endMentions high ++ ([] ++ []))))) := by
    rw [mentioned, List.append_nil, List.append_nil]
    rfl
  rw [htext, hnames]
  exact hall

mutual
/-- **An expression is read name by name** if all of its names are identifiers. -/
theorem reads_text (e : TypeExpr) (h : ∀ x ∈ e.mentioned, Name.IsIdentifier x.name) :
    Reads e.text.toList e.mentioned := by
  cases e with
  | builtin name => exact reads_identifier (h _ List.mem_cons_self)
  | defined name => exact reads_identifier (h _ List.mem_cons_self)
  | quoted name => exact reads_doubleQuoted (h _ List.mem_cons_self)
  | within low high =>
    exact reads_within low high
  | applied head arguments =>
    have hhead := reads_identifier (h _ List.mem_cons_self)
    have harguments := reads_texts arguments fun x hx => h x (List.mem_cons_of_mem _ hx)
    have hinner := harguments.append (c := ']') (by decide) reads_nil
    simpa [text_applied, mentioned, Mention.name] using hhead.append (c := '[') (by decide) hinner

theorem reads_texts (es : List TypeExpr) (h : ∀ x ∈ allMentioned es, Name.IsIdentifier x.name) :
    Reads (", ".intercalate (texts es)).toList (allMentioned es) := by
  cases es with
  | nil => exact reads_nil
  | cons e rest =>
    rw [allMentioned] at h
    have hfirst := reads_text e fun x hx => h x (List.mem_append_left _ hx)
    have hothers := reads_texts rest fun x hx => h x (List.mem_append_right _ hx)
    cases rest with
    | nil => simpa [texts, allMentioned] using hfirst
    | cons second rest =>
      have hboth := hfirst.append (c := ',') (by decide) hothers.blank
      simpa [texts, allMentioned] using hboth
end

/-- The names that are read in an expression are those that it is made of. -/
theorem mentions_text {e : TypeExpr} (h : ∀ x ∈ e.mentioned, Name.IsIdentifier x.name) :
    mentions e.text = e.mentioned := by
  have hreads := reads_text e h [] (by intro c hc; cases hc)
  rw [List.append_nil] at hreads
  exact hreads.trans (List.append_nil _)

end TypeExpr

end TypedApi
