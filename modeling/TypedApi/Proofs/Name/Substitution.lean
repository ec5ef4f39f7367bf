import TypedApi.Proofs.Document.Pointer
import TypedApi.Proofs.Name.Camel
/-!
Cutting by substitution.

A chunk of letters and digits can be cut by two substitutions that put blanks into it. Each of them
reads it from left to right, takes the longest match that it finds, and goes on after its end; the
second one reads what the first one has written. What a substitution does at one place could
therefore depend on all that stands before. It does not: no match covers more than one place to cut
at, and none begins right behind a match. So each substitution puts its blanks exactly where a rule
says so that looks at three neighbours only, and a blank is an end to the second rule. Between the
blanks stand the words.
-/

set_option autoImplicit false

namespace TypedApi.Name

variable {rule : Char → Char → Option Char → Bool} {b c d : Char} {cs rest : List Char}

/-! ## Two substitutions -/

/-- Put a blank between the two halves of each match. A match is told by the lengths of its halves;
the next one is looked for behind it. -/
def substitute (find? : List Char → Option (Nat × Nat)) : List Char → List Char
  | [] => []
  | c :: rest =>
    match find? (c :: rest) with
    | some (m, n) =>
      (c :: rest).take m ++ ' ' :: ((c :: rest).drop m).take n ++
        substitute find? (rest.drop (m + n - 1))
    | none => c :: substitute find? rest
termination_by cs => cs.length
decreasing_by all_goals simp only [List.length_drop, List.length_cons]; omega

/-- A small letter or a digit, and a capital behind it. -/
def findRise? : List Char → Option (Nat × Nat)
  | a :: b :: _ => if isRise a b then some (1, 1) else none
  | _ => none

/-- Whether a text begins with a capital and a small letter. -/
def opensWord : List Char → Bool
  | a :: b :: _ => isCapital a && isSmall b
  | _ => false

/-- As many capitals as possible, and behind them one more capital and a small letter. All capitals
are tried first, then one less each time, down to one. -/
def findAcronymEnd? (cs : List Char) : Option (Nat × Nat) :=
  ((List.range (cs.takeWhile isCapital).length).reverse.find? fun n =>
    opensWord (cs.drop (n + 1))).map fun n => (n + 1, 2)

/-- The pieces between blanks; none is empty. -/
def blankSeparated (cs : List Char) : List (List Char) :=
  (Text.splitAt ' ' cs).filter fun piece => !piece.isEmpty

/-- A text with a blank wherever a rule cuts. -/
def spaced (rule : Char → Char → Option Char → Bool) : List Char → List Char
  | c :: d :: rest =>
    if rule c d rest.head? then c :: ' ' :: spaced rule (d :: rest)
    else c :: spaced rule (d :: rest)
  | cs => cs

/-- No blank comes between two neighbours that a rule does not cut apart. -/
theorem spaced_cons (h : ∀ d rest, cs = d :: rest → rule c d rest.head? = false) :
    spaced rule (c :: cs) = c :: spaced rule cs := by
  cases cs with
  | nil => rfl
  | cons d rest => rw [spaced, if_neg (Bool.eq_false_iff.mp (h d rest rfl))]

theorem exists_spaced_cons (rule : Char → Char → Option Char → Bool) (c : Char) (cs : List Char) :
    ∃ tail, spaced rule (c :: cs) = c :: tail := by
  cases cs with
  | nil => exact ⟨[], rfl⟩
  | cons d rest =>
    rw [spaced]
    split
    · exact ⟨_, rfl⟩
    · exact ⟨_, rfl⟩

/-! ### Rises -/

/-- A capital is no small letter and no digit. -/
theorem not_lower_of_isCapital (h : isCapital c = true) : (isSmall c || isNumeric c) = false := by
  have heq := isCapital_eq_not (c := c) (by rw [isWordChar, h]; rfl)
  rwa [h, eq_comm, Bool.not_eq_true'] at heq

/-- The first substitution finds every rise: a match ends with a capital, and no rise comes right
behind a capital. -/
theorem substitute_findRise? (cs : List Char) :
    substitute findRise? cs = spaced (fun a b _ => isRise a b) cs := by
  fun_induction substitute findRise? cs with
  | case1 => rfl
  | case2 c rest m n hfind ih =>
    cases rest with
    | nil => cases hfind
    | cons d rest =>
      rw [findRise?] at hfind
      split at hfind
      · rename_i hrise
        cases hfind
        have hcapital : isCapital d = true := (Bool.and_eq_true_iff.mp hrise).2
        have hnone : ∀ e tail, rest = e :: tail → isRise d e = false := by
          intro e tail _
          rw [isRise, not_lower_of_isCapital hcapital, Bool.false_and]
        rw [spaced, if_pos hrise, spaced_cons hnone]
        exact congrArg ([c, ' ', d] ++ ·) ih
      · cases hfind
  | case3 c rest hfind ih =>
    rw [ih, spaced_cons]
    rintro d tail rfl
    rw [findRise?] at hfind
    split at hfind
    · cases hfind
    · rename_i hrise
      exact eq_false_of_ne_true hrise

/-! ### Ends of acronyms -/

/-- Among the numbers below a bound, the greatest one that passes a test is found first; it is the
only one here. -/
theorem find?_reverse_range {test : Nat → Bool} {k j : Nat} (hj : j < k) (htest : test j = true)
    (hunique : ∀ n < k, test n = true → n = j) : (List.range k).reverse.find? test = some j := by
  cases hfind : (List.range k).reverse.find? test with
  | none =>
    have hmem : j ∈ (List.range k).reverse := List.mem_reverse.mpr (List.mem_range.mpr hj)
    exact absurd htest (List.find?_eq_none.mp hfind j hmem)
  | some n =>
    have hmem := List.mem_reverse.mp (List.mem_of_find?_eq_some hfind)
    rw [hunique n (List.mem_range.mp hmem) (List.find?_some hfind)]

/-- Behind the first capitals of an acronym there is a word of its own exactly if all of them but
the last one are passed over and a small letter follows the last one. -/
theorem opensWord_drop {run : List Char} {n : Nat} (hrun : ∀ c ∈ run, isCapital c = true)
    (hrest : ∀ c ∈ rest.head?, isCapital c = false) (hn : n < run.length) :
    opensWord ((run ++ rest).drop (n + 1)) = true ↔
      n + 2 = run.length ∧ rest.head?.any isSmall = true := by
  induction run generalizing n with
  | nil => exact absurd hn (Nat.not_lt_zero n)
  | cons a run ih =>
    obtain ⟨_, hrun⟩ := List.forall_mem_cons.mp hrun
    rw [List.cons_append, List.drop_succ_cons, List.length_cons]
    cases n with
    | zero =>
      rw [List.drop_zero]
      cases run with
      | nil =>
        -- no capital is left
        cases rest with
        | nil => simp [opensWord]
        | cons c rest =>
          have hc := hrest c rfl
          cases rest <;> simp [opensWord, hc]
      | cons b run =>
        have hb := hrun b List.mem_cons_self
        cases run with
        | nil => cases rest <;> simp [opensWord, hb]
        | cons c run =>
          have hc : isCapital c = true := hrun c (List.mem_cons_of_mem _ List.mem_cons_self)
          simp [opensWord, not_isSmall_of_isCapital hc]
    | succ n =>
      rw [ih hrun (by simpa using hn)]
      refine and_congr_left' ?_
      omega

/-- **Where the second substitution finds a match** in capitals and what follows them: before the
last of several, if a small letter follows it. Giving back one capital is always enough. -/
theorem findAcronymEnd?_append {run : List Char} (hrun : ∀ c ∈ run, isCapital c = true)
    (hrest : ∀ c ∈ rest.head?, isCapital c = false) :
    findAcronymEnd? (run ++ rest) =
      if 2 ≤ run.length ∧ rest.head?.any isSmall = true then some (run.length - 1, 2)
      else none := by
  have htake : (run ++ rest).takeWhile isCapital = run := by
    rw [List.takeWhile_append_of_pos hrun]
    cases rest with
    | nil => simp
    | cons c rest => simp [hrest c rfl]
  rw [findAcronymEnd?, htake]
  by_cases hend : 2 ≤ run.length ∧ rest.head?.any isSmall = true
  · have hfind : (List.range run.length).reverse.find?
        (fun n => opensWord ((run ++ rest).drop (n + 1))) = some (run.length - 2) := by
      refine find?_reverse_range (by omega) ?_ ?_
      · exact (opensWord_drop hrun hrest (by omega)).mpr ⟨by omega, hend.2⟩
      · intro n hn htest
        have hlast := ((opensWord_drop hrun hrest hn).mp htest).1
        omega
    have hlength : run.length - 2 + 1 = run.length - 1 := by omega
    rw [if_pos hend, hfind, Option.map_some, hlength]
  · rw [if_neg hend, Option.map_eq_none_iff, List.find?_eq_none]
    intro n hn htest
    have hlt := List.mem_range.mp (List.mem_reverse.mp hn)
    have hlast := (opensWord_drop hrun hrest hlt).mp htest
    exact hend ⟨by omega, hlast.2⟩

/-- An acronym that ends before a word: the blank comes before its last capital, and what follows
the small letter is read on its own. -/
theorem spaced_acronym {first : List Char} (hne : first ≠ [])
    (hfirst : ∀ c ∈ first, isCapital c = true) (hb : isCapital b = true) (hd : isSmall d = true) :
    spaced isAcronymEnd (first ++ b :: d :: rest) =
      first ++ ' ' :: b :: d :: spaced isAcronymEnd rest := by
  have hsmall : isCapital d = false := not_isCapital_of_lower (by rw [hd, Bool.true_or])
  induction first with
  | nil => exact absurd rfl hne
  | cons a first ih =>
    obtain ⟨ha, hfirst⟩ := List.forall_mem_cons.mp hfirst
    cases first with
    | nil =>
      have hcut : isAcronymEnd a b (some d) = true := by simp [isAcronymEnd, ha, hb, hd]
      rw [List.singleton_append, spaced, List.head?_cons, if_pos hcut, spaced_cons, spaced_cons]
      · rfl
      · intro e tail _
        rw [isAcronymEnd, hsmall, Bool.false_and, Bool.false_and]
      · intro e tail htail
        cases htail
        rw [isAcronymEnd, hsmall, Bool.and_false, Bool.false_and]
    | cons c first =>
      -- another capital comes next
      have hnext : (first ++ b :: d :: rest).head?.any isSmall = false := by
        cases first with
        | nil => exact not_isSmall_of_isCapital hb
        | cons e first =>
          have he : isCapital e = true := hfirst e (List.mem_cons_of_mem _ List.mem_cons_self)
          exact not_isSmall_of_isCapital he
      rw [List.cons_append, spaced_cons, ih (List.cons_ne_nil c first) hfirst]
      · rfl
      · intro c' tail htail
        obtain ⟨rfl, rfl⟩ := List.cons.inj htail
        exact Bool.and_eq_false_iff.mpr (.inr hnext)

/-- A text begins with capitals, maybe none, and then come other letters. -/
theorem exists_capitals (cs : List Char) : ∃ run rest, cs = run ++ rest ∧
    (∀ c ∈ run, isCapital c = true) ∧ ∀ c ∈ rest.head?, isCapital c = false := by
  refine ⟨cs.takeWhile isCapital, cs.dropWhile isCapital, List.takeWhile_append_dropWhile.symm,
    List.all_eq_true.mp List.all_takeWhile, fun c hc => ?_⟩
  have hnot := List.head?_dropWhile_not isCapital cs
  rw [hc] at hnot
  exact hnot

/-- The second substitution finds every end of an acronym: a match ends with a small letter, and no
acronym ends right behind one. -/
theorem substitute_findAcronymEnd? (cs : List Char) :
    substitute findAcronymEnd? cs = spaced isAcronymEnd cs := by
  fun_induction substitute findAcronymEnd? cs with
  | case1 => rfl
  | case2 c rest m n hfind ih =>
    obtain ⟨run, tail, htext, hrun, htail⟩ := exists_capitals (c :: rest)
    rw [htext, findAcronymEnd?_append hrun htail] at hfind
    split at hfind
    · rename_i hend
      obtain ⟨hlength, hsmall⟩ := hend
      obtain ⟨hm, hn⟩ := Prod.mk.inj (Option.some.inj hfind)
      -- the last capital and the small letter are the second half of the match
      obtain ⟨first, b, rfl⟩ : ∃ first b, run = first ++ [b] := by
        rcases List.eq_nil_or_concat' run with rfl | hconcat
        · exact absurd hlength (by decide)
        · exact hconcat
      obtain ⟨d, tail, rfl⟩ : ∃ d tail', tail = d :: tail' := by
        cases tail with
        | nil => cases hsmall
        | cons d tail => exact ⟨d, tail, rfl⟩
      rw [List.length_append, List.length_singleton] at hlength hm
      rw [List.append_assoc, List.singleton_append] at htext
      have hne : first ≠ [] := by
        rintro rfl
        exact absurd hlength (by decide)
      obtain rfl : m = first.length := by omega
      have hbehind : rest.drop (first.length + n - 1) = tail := by
        have hdrop : rest.drop (first.length + n - 1) = (c :: rest).drop (first.length + 2) := by
          rw [← hn]
          rfl
        rw [hdrop, htext, ← List.drop_drop, List.drop_left]
        rfl
      rw [hbehind] at ih ⊢
      rw [ih, htext, ← hn, List.take_left, List.drop_left, List.append_assoc]
      have hfirst : ∀ e ∈ first, isCapital e = true :=
        fun e he => hrun e (List.mem_append_left _ he)
      exact (spaced_acronym hne hfirst (hrun b (by simp)) hsmall).symm
    · cases hfind
  | case3 c rest hfind ih =>
    rw [ih, spaced_cons]
    rintro d tail rfl
    refine Bool.eq_false_iff.mpr fun hcut => ?_
    rw [isAcronymEnd, Bool.and_eq_true_iff, Bool.and_eq_true_iff] at hcut
    obtain ⟨⟨hc, hd⟩, hnext⟩ := hcut
    have hrun : ∀ e ∈ [c, d], isCapital e = true := by
      simp [hc, hd]
    have htail : ∀ e ∈ tail.head?, isCapital e = false := by
      intro e he
      rw [he, Option.any_some] at hnext
      exact not_isCapital_of_lower (by rw [hnext, Bool.true_or])
    have hfound := findAcronymEnd?_append hrun htail
    rw [if_pos ⟨le_refl 2, hnext⟩] at hfound
    exact absurd (hfind.symm.trans hfound) (by simp)

/-! ### Pieces between blanks -/

/-- The pieces of a text that begins with another character than a blank: the first one goes on with
the next character unless that is a blank. -/
theorem exists_splitAt_cons (hd : d ≠ ' ') (rest : List Char) :
    ∃ piece pieces, Text.splitAt ' ' (d :: rest) = (d :: piece) :: pieces ∧
      piece.head? = if rest.head? = some ' ' then none else rest.head? := by
  rw [Text.splitAt, if_neg hd]
  cases rest with
  | nil => exact ⟨[], [], rfl, rfl⟩
  | cons e rest =>
    by_cases he : e = ' '
    · refine ⟨[], Text.splitAt ' ' rest, ?_, ?_⟩
      · rw [Text.splitAt, if_pos he]
      · simp [he]
    · rw [Text.splitAt, if_neg he]
      cases Text.splitAt ' ' rest with
      | nil => exact ⟨[e], [], rfl, by simp [he]⟩
      | cons piece pieces => exact ⟨e :: piece, pieces, rfl, by simp [he]⟩

/-- A blank in front makes no piece. -/
theorem blankSeparated_blank (cs : List Char) : blankSeparated (' ' :: cs) = blankSeparated cs := by
  rw [blankSeparated, Text.splitAt, if_pos rfl]
  rfl

/-- A single character before a blank is a piece. -/
theorem blankSeparated_single (hc : c ≠ ' ') (cs : List Char) :
    blankSeparated (c :: ' ' :: cs) = [c] :: blankSeparated cs := by
  rw [blankSeparated, Text.splitAt, if_neg hc, Text.splitAt, if_pos rfl]
  rfl

/-- One more character in front makes the first piece longer. -/
theorem exists_blankSeparated_cons (hc : c ≠ ' ') (hd : d ≠ ' ') (rest : List Char) :
    ∃ piece pieces, blankSeparated (d :: rest) = (d :: piece) :: pieces ∧
      blankSeparated (c :: d :: rest) = (c :: d :: piece) :: pieces ∧
      piece.head? = if rest.head? = some ' ' then none else rest.head? := by
  obtain ⟨piece, pieces, hsplit, hhead⟩ := exists_splitAt_cons hd rest
  refine ⟨piece, pieces.filter fun piece => !piece.isEmpty, ?_, ?_, hhead⟩
  · rw [blankSeparated, hsplit]
    rfl
  · rw [blankSeparated, Text.splitAt, if_neg hc, hsplit]
    rfl

/-- **What a substitution leaves between blanks** are the pieces of what was between blanks before,
if the rule sees a blank as it sees an end. -/
theorem blankSeparated_spaced (hleft : ∀ b next, rule ' ' b next = false)
    (hright : ∀ a next, rule a ' ' next = false)
    (hnext : ∀ a b, rule a b (some ' ') = rule a b none) (cs : List Char) :
    blankSeparated (spaced rule cs) = (blankSeparated cs).flatMap (cutWhere rule) := by
  induction cs with
  | nil => rfl
  | cons c cs ih =>
    by_cases hc : c = ' '
    · subst hc
      rw [spaced_cons fun _ _ _ => hleft _ _, blankSeparated_blank, blankSeparated_blank, ih]
    · cases cs with
      | nil =>
        have hsplit : blankSeparated [c] = [[c]] := by
          rw [blankSeparated, Text.splitAt, if_neg hc]
          rfl
        have hspaced : spaced rule [c] = [c] := rfl
        rw [hspaced, hsplit]
        rfl
      | cons d rest =>
        by_cases hd : d = ' '
        · subst hd
          have hblank : spaced rule (' ' :: rest) = ' ' :: spaced rule rest :=
            spaced_cons fun _ _ _ => hleft _ _
          rw [hblank, blankSeparated_blank, blankSeparated_blank] at ih
          rw [spaced_cons fun e tail h => by cases h; exact hright _ _, hblank,
            blankSeparated_single hc, blankSeparated_single hc, ih]
          rfl
        · -- the two characters are in one piece, and the rule sees the same behind them
          obtain ⟨piece, pieces, hshort, hlong, hhead⟩ := exists_blankSeparated_cons hc hd rest
          have hsame : rule c d piece.head? = rule c d rest.head? := by
            rw [hhead]
            split
            · rename_i hblank
              rw [hblank, hnext]
            · rfl
          rw [hshort, List.flatMap_cons] at ih
          rw [hlong, List.flatMap_cons, cutWhere, hsame]
          by_cases hcut : rule c d rest.head? = true
          · rw [spaced, if_pos hcut, blankSeparated_single hc, ih, if_pos hcut, List.cons_append]
          · obtain ⟨first, others, hfirst, _⟩ := exists_cutWhere_cons rule d piece
            obtain ⟨tail, htail⟩ := exists_spaced_cons rule d rest
            obtain ⟨piece', pieces', hshort', hlong', _⟩ := exists_blankSeparated_cons hc hd tail
            rw [hfirst, htail, hshort', List.cons_append] at ih
            obtain ⟨hpiece, hpieces⟩ := List.cons.inj ih
            rw [spaced, if_neg hcut, if_neg hcut, htail, hlong', hfirst, List.modifyHead_cons,
              hpiece, hpieces]
            rfl

/-! ### Both substitutions -/

/-- **The words of a chunk** are what the two substitutions leave between blanks. -/
theorem blankSeparated_substitute {chunk : List Char} (hne : chunk ≠ [])
    (hword : ∀ c ∈ chunk, isWordChar c = true) :
    blankSeparated (substitute findAcronymEnd? (substitute findRise? chunk)) =
      (cutRises chunk).flatMap cutAcronyms := by
  have hchunk : blankSeparated chunk = [chunk] := by
    have hblank : ' ' ∉ chunk := fun h => absurd (hword _ h) (by decide)
    rw [blankSeparated, Text.splitAt_of_not_mem hblank, List.filter_cons_of_pos, List.filter_nil]
    simpa using hne
  have hfirst : blankSeparated (substitute findRise? chunk) = cutRises chunk := by
    rw [substitute_findRise?, blankSeparated_spaced (fun b _ => rfl) (fun a _ => ?_)
      (fun _ _ => rfl), hchunk, List.flatMap_singleton, cutRises_eq]
    exact Bool.and_false _
  rw [substitute_findAcronymEnd?, blankSeparated_spaced (fun b _ => rfl) (fun a next => ?_)
    (fun a b => rfl), hfirst, funext cutAcronyms_eq]
  exact (congrArg (· && next.any isSmall) (Bool.and_false _)).trans (Bool.false_and _)

end TypedApi.Name
