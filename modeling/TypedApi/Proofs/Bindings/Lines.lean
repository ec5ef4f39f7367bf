import TypedApi.Text.Blank
/-!
Lines of a text.

A text is cut into lines at its line ends, of which there are many, and one of
which is two characters long. Read from the front, the line that has been begun is
kept until it ends; so what has no line end is read into that line, and a line feed
cuts a text in two whatever stands before it, even the other half of a line end.
-/

set_option autoImplicit false

namespace TypedApi

namespace Text

/-! ## Lines -/

/-- A text without a line end. -/
def Unbroken (cs : List Char) : Prop :=
  ∀ c ∈ cs, isLineEnd c = false

instance (cs : List Char) : Decidable (Unbroken cs) :=
  List.decidableBAll (fun c => isLineEnd c = false) cs

variable {current cs cs' rest : List Char} {c : Char}

theorem unbroken_nil : Unbroken [] := by
  intro c hc
  cases hc

theorem Unbroken.cons (hc : isLineEnd c = false) (h : Unbroken cs) : Unbroken (c :: cs) := by
  intro d hd
  rcases List.mem_cons.mp hd with rfl | hd
  · exact hc
  · exact h d hd

theorem Unbroken.reverse (h : Unbroken cs) : Unbroken cs.reverse :=
  fun c hc => h c (List.mem_reverse.mp hc)

theorem Unbroken.append (h : Unbroken cs) (h' : Unbroken cs') : Unbroken (cs ++ cs') := by
  intro c hc
  rcases List.mem_append.mp hc with hc | hc
  · exact h c hc
  · exact h' c hc

/-- A character that is not the first half of a line end. -/
theorem linesFrom_cons (h : c = '\r' → rest.head? ≠ some '\n') :
    linesFrom current (c :: rest) =
      if isLineEnd c then current.reverse :: linesFrom [] rest
      else linesFrom (c :: current) rest := by
  rw [linesFrom]
  rintro rest' rfl rfl
  exact h rfl rfl

/-- What has no line end is read into the line begun so far. -/
theorem linesFrom_append (h : Unbroken cs) :
    linesFrom current (cs ++ rest) = linesFrom (cs.reverse ++ current) rest := by
  induction cs generalizing current with
  | nil => rfl
  | cons c cs ih =>
    have hc := h c List.mem_cons_self
    have hcarriage : c = '\r' → (cs ++ rest).head? ≠ some '\n' := by
      rintro rfl
      exact absurd hc (by decide)
    rw [List.cons_append, linesFrom_cons hcarriage, hc, if_neg Bool.false_ne_true,
      ih fun d hd => h d (List.mem_cons_of_mem _ hd), List.reverse_cons, List.append_assoc]
    rfl

theorem linesFrom_newline :
    linesFrom current ('\n' :: rest) = current.reverse :: linesFrom [] rest := by
  rw [linesFrom_cons fun h => absurd h (by decide)]
  rfl

/-- A text without a line end is one line. -/
theorem lines_unbroken (h : Unbroken cs) : lines (cs ++ ['\n']) = [cs] := by
  rw [lines, linesFrom_append h, linesFrom_newline, List.append_nil, List.reverse_reverse]
  rfl

/-- One character before a line feed, which may complete a line end with it. -/
theorem linesFrom_singleton (current : List Char) (c : Char) (rest : List Char) :
    linesFrom current (c :: '\n' :: rest) = linesFrom current [c, '\n'] ++ lines rest := by
  by_cases hc : c = '\r'
  · rw [hc, linesFrom, linesFrom]
    rfl
  · rw [linesFrom_cons fun h => absurd h hc, linesFrom_cons fun h => absurd h hc]
    split
    · rw [linesFrom_newline, linesFrom_newline]
      rfl
    · rw [linesFrom_newline, linesFrom_newline]
      rfl

/-- **The lines of a text** are those up to a line feed and those after it. The induction is along
the lines. -/
theorem linesFrom_append_newline (current cs rest : List Char) :
    linesFrom current (cs ++ '\n' :: rest) = linesFrom current (cs ++ ['\n']) ++ lines rest := by
  -- a character that is half of no line end stays so with more text after it
  have hcons : ∀ (current : List Char) (c d : Char) (cs rest : List Char),
      (∀ tail, c = '\r' → d :: cs = '\n' :: tail → False) →
      linesFrom current (c :: d :: cs ++ rest) =
        if isLineEnd c then current.reverse :: linesFrom [] (d :: cs ++ rest)
        else linesFrom (c :: current) (d :: cs ++ rest) := by
    intro current c d cs rest hpair
    refine linesFrom_cons fun hc hd => ?_
    cases hd
    exact hpair cs hc rfl
  fun_induction linesFrom current cs with
  | case1 current hempty | case2 current hempty =>
    rw [List.nil_append, List.nil_append, linesFrom_newline, linesFrom_newline]
    rfl
  | case3 current cs ih =>
    rw [List.cons_append, List.cons_append, List.cons_append, List.cons_append, linesFrom, linesFrom,
      ih]
    rfl
  | case4 current c cs hpair hend ih =>
    cases cs with
    | nil => exact linesFrom_singleton current c rest
    | cons d cs =>
      rw [hcons _ _ _ _ _ hpair, hcons _ _ _ _ _ hpair, if_pos hend, if_pos hend, ih]
      rfl
  | case5 current c cs hpair hend ih =>
    cases cs with
    | nil => exact linesFrom_singleton current c rest
    | cons d cs =>
      rw [hcons _ _ _ _ _ hpair, hcons _ _ _ _ _ hpair, if_neg hend, if_neg hend, ih]

/-- The line that is begun is the first of those that follow from it. -/
theorem exists_linesFrom_eq (cs : List Char) (h : cs ≠ []) :
    ∃ first others, ∀ current, linesFrom current cs = (current.reverse ++ first) :: others := by
  induction cs with
  | nil => exact absurd rfl h
  | cons c cs ih =>
    by_cases hpair : c = '\r' ∧ cs.head? = some '\n'
    · obtain ⟨rfl, hcs⟩ := hpair
      obtain ⟨tail, rfl⟩ := List.head?_eq_some_iff.mp hcs
      exact ⟨[], linesFrom [] tail, fun current => by rw [linesFrom, List.append_nil]⟩
    · have hcons : ∀ current, linesFrom current (c :: cs) =
          if isLineEnd c then current.reverse :: linesFrom [] cs
          else linesFrom (c :: current) cs :=
        fun current => linesFrom_cons fun hc hd => hpair ⟨hc, hd⟩
      by_cases hend : isLineEnd c = true
      · exact ⟨[], linesFrom [] cs, fun current => by
          rw [hcons, if_pos hend, List.append_nil]⟩
      · by_cases hcs : cs = []
        · refine ⟨[c], [], fun current => ?_⟩
          rw [hcons, if_neg hend, hcs, linesFrom, List.isEmpty_cons, if_neg Bool.false_ne_true,
            List.reverse_cons]
        · obtain ⟨first, others, hothers⟩ := ih hcs
          refine ⟨c :: first, others, fun current => ?_⟩
          rw [hcons, if_neg hend, hothers, List.reverse_cons, List.append_assoc]
          rfl

/-- With a text in front that has no line end, only the first line is longer. -/
theorem exists_lines_append (h : Unbroken cs) (hne : rest ≠ []) :
    ∃ first others, lines rest = first :: others ∧ lines (cs ++ rest) = (cs ++ first) :: others := by
  obtain ⟨first, others, hothers⟩ := exists_linesFrom_eq rest hne
  refine ⟨first, others, hothers [], ?_⟩
  rw [lines, linesFrom_append h, hothers, List.append_nil, List.reverse_reverse]

/-- The lines of texts written one under the other are those of each of them. -/
theorem lines_join (ls : List String) :
    lines (String.join (ls.map (· ++ "\n"))).toList =
      ls.flatMap fun l => lines (l.toList ++ ['\n']) := by
  induction ls with
  | nil => rfl
  | cons l ls ih =>
    rw [String.toList_join] at ih ⊢
    rw [List.map_cons, List.flatMap_cons, List.flatMap_cons, ← ih, String.toList_append,
      List.append_assoc]
    exact linesFrom_append_newline [] l.toList _

/-- A line has no line end. -/
theorem unbroken_of_mem_linesFrom (h : Unbroken current) {line : List Char}
    (hline : line ∈ linesFrom current cs) : Unbroken line := by
  fun_induction linesFrom current cs with
  | case1 current hempty => cases hline
  | case2 current hempty =>
    rw [List.mem_singleton.mp hline]
    exact h.reverse
  | case3 current cs ih | case4 current c cs hpair hend ih =>
    rcases List.mem_cons.mp hline with rfl | hline
    · exact h.reverse
    · exact ih unbroken_nil hline
  | case5 current c cs hpair hend ih =>
    exact ih (h.cons (eq_false_of_ne_true hend)) hline

end Text

end TypedApi
