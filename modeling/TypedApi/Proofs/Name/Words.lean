import TypedApi.Proofs.Name.Substitution
/-!
The words of a name, by position.

Where a word begins is decided by three neighbours, so the words of a name can be told by their
positions, without reading it in any order: they are the stretches that hold letters and digits, in
which no word begins, and that cannot be made longer. All of them are words, in the order in which
they stand, and nothing of the name gets lost but the characters between.
-/

set_option autoImplicit false

namespace TypedApi.Name

variable {rule : Char → Char → Option Char → Bool} {c : Char} {cs rest : List Char}

/-! ## Pieces and their positions -/

/-- Whether a rule cuts a text between a position and the one before it. -/
def CutAt (rule : Char → Char → Option Char → Bool) (cs : List Char) (i : Nat) : Prop :=
  ∃ a b, 0 < i ∧ cs[i - 1]? = some a ∧ cs[i]? = some b ∧ rule a b cs[i + 1]? = true

/-- Where pieces stand that follow one another from a position on: a piece has a first position, and
one behind its last. -/
def spansFrom (n : Nat) : List (List Char) → List (Nat × Nat)
  | [] => []
  | piece :: pieces => (n, n + piece.length) :: spansFrom (n + piece.length) pieces

theorem le_of_mem_spansFrom {n : Nat} {pieces : List (List Char)} {p : Nat × Nat}
    (h : p ∈ spansFrom n pieces) : n ≤ p.1 := by
  induction pieces generalizing n with
  | nil => cases h
  | cons piece pieces ih =>
    rcases List.mem_cons.mp h with rfl | h
    · exact le_refl n
    · have hle := ih h
      omega

/-- Each piece stands behind the ones before it. -/
theorem pairwise_spansFrom (n : Nat) (pieces : List (List Char)) :
    (spansFrom n pieces).Pairwise fun p q => p.2 ≤ q.1 := by
  induction pieces generalizing n with
  | nil => exact .nil
  | cons piece pieces ih => exact .cons (fun q hq => le_of_mem_spansFrom hq) (ih _)

/-- The pieces of a text are what it holds where they stand. -/
theorem map_extract_spansFrom {n : Nat} {pieces : List (List Char)}
    (h : cs.drop n = pieces.flatten) :
    (spansFrom n pieces).map (fun p => cs.extract p.1 p.2) = pieces := by
  induction pieces generalizing n with
  | nil => rfl
  | cons piece pieces ih =>
    rw [List.flatten_cons] at h
    have hpiece : cs.extract n (n + piece.length) = piece := by
      rw [List.extract_eq_take_drop, h, Nat.add_sub_cancel_left, List.take_left]
    have hrest : cs.drop (n + piece.length) = pieces.flatten := by
      rw [← List.drop_drop, h, List.drop_left]
    rw [spansFrom, List.map_cons, hpiece, ih hrest]

/-- **Where the pieces stand that a rule cuts a text into**, from a position on: between two cuts,
or between a cut and an end, with no cut inside. -/
theorem mem_spansFrom_cutWhere (n start stop : Nat) :
    (start, stop) ∈ spansFrom n (cutWhere rule (cs.drop n)) ↔
      n ≤ start ∧ start < stop ∧ stop ≤ cs.length ∧ (start = n ∨ CutAt rule cs start) ∧
        (stop = cs.length ∨ CutAt rule cs stop) ∧
        ∀ i, start < i → i < stop → ¬CutAt rule cs i := by
  induction hdrop : cs.drop n generalizing n start with
  | nil =>
    have hlength := List.drop_eq_nil_iff.mp hdrop
    refine iff_of_false List.not_mem_nil ?_
    omega
  | cons c ds ih =>
    have hlength : cs.length = n + (ds.length + 1) := by
      have heq := congrArg List.length hdrop
      rw [List.length_drop, List.length_cons] at heq
      omega
    have hnext : cs.drop (n + 1) = ds := by
      rw [← List.drop_drop, hdrop]
      rfl
    cases ds with
    | nil =>
      -- the last character is a piece of its own, and nothing comes after it
      rw [cutWhere, spansFrom, spansFrom, List.mem_singleton, Prod.mk.injEq, List.length_singleton]
      rw [List.length_nil] at hlength
      constructor
      · rintro ⟨rfl, rfl⟩
        exact ⟨le_refl _, by omega, by omega, .inl rfl, .inl (by omega), fun i hi hi' => by omega⟩
      · rintro ⟨hle, hlt, hstop, _⟩
        omega
    | cons d rest =>
      have hcut : CutAt rule cs (n + 1) ↔ rule c d rest.head? = true := by
        have hc : cs[n]? = some c := by
          rw [← Nat.add_zero n, ← List.getElem?_drop, hdrop]
          rfl
        have hd : cs[n + 1]? = some d := by
          rw [← List.getElem?_drop, hdrop]
          rfl
        have hrest : cs[n + 1 + 1]? = rest.head? := by
          rw [Nat.add_assoc, ← List.getElem?_drop, hdrop, List.head?_eq_getElem?]
          rfl
        constructor
        · rintro ⟨a, b, _, ha, hb, hrule⟩
          cases hc.symm.trans ha
          cases hd.symm.trans hb
          rwa [hrest] at hrule
        · intro hrule
          exact ⟨c, d, Nat.succ_pos n, hc, hd, hrest ▸ hrule⟩
      obtain ⟨piece, pieces, hpieces, _⟩ := exists_cutWhere_cons rule d rest
      have ih := fun start => ih (n + 1) start hnext
      rw [cutWhere, hpieces]
      rw [hpieces, spansFrom] at ih
      by_cases hrule : rule c d rest.head? = true
      · rw [if_pos hrule, spansFrom, List.length_singleton, List.mem_cons, spansFrom, ih,
          Prod.mk.injEq]
        constructor
        · rintro (⟨rfl, rfl⟩ | ⟨hle, hlt, hstop, hstart, hend, hwhole⟩)
          · exact ⟨le_refl _, by omega, by omega, .inl rfl, .inr (hcut.mpr hrule),
              fun i hi hi' => by omega⟩
          · refine ⟨by omega, hlt, hstop, .inr ?_, hend, hwhole⟩
            rcases hstart with rfl | hstart
            · exact hcut.mpr hrule
            · exact hstart
        · rintro ⟨hle, hlt, hstop, hstart, hend, hwhole⟩
          by_cases hfirst : start = n
          · subst hfirst
            refine .inl ⟨rfl, ?_⟩
            by_contra hne
            exact hwhole (start + 1) (by omega) (by omega) (hcut.mpr hrule)
          · exact .inr ⟨by omega, hlt, hstop, .inr (hstart.resolve_left hfirst), hend, hwhole⟩
      · have huncut : ¬CutAt rule cs (n + 1) := fun h => hrule (hcut.mp h)
        have hsum : n + (c :: d :: piece).length = n + 1 + (d :: piece).length := by
          simp only [List.length_cons]
          omega
        have hbehind : ∀ p ∈ spansFrom (n + 1 + (d :: piece).length) pieces, n + 1 < p.1 := by
          intro p hp
          have hle := le_of_mem_spansFrom hp
          rw [List.length_cons] at hle
          omega
        rw [if_neg hrule, List.modifyHead_cons, spansFrom, List.mem_cons, Prod.mk.injEq, hsum]
        constructor
        · rintro (⟨rfl, rfl⟩ | hmem)
          · -- the first piece has become longer by a character that is not cut off
            obtain ⟨_, hlt, hstop, _, hend, hwhole⟩ := (ih (start + 1)).mp List.mem_cons_self
            refine ⟨le_refl _, by omega, hstop, .inl rfl, hend, fun i hi hi' => ?_⟩
            by_cases hfirst : i = start + 1
            · exact hfirst ▸ huncut
            · exact hwhole i (by omega) hi'
          · obtain ⟨hle, hlt, hstop, hstart, hend, hwhole⟩ :=
              (ih start).mp (List.mem_cons_of_mem _ hmem)
            have hfirst : start ≠ n + 1 := fun heq => absurd (hbehind _ hmem) (by simp [heq])
            exact ⟨by omega, hlt, hstop, .inr (hstart.resolve_left hfirst), hend, hwhole⟩
        · rintro ⟨hle, hlt, hstop, hstart, hend, hwhole⟩
          have hne : stop ≠ n + 1 := by
            rintro rfl
            rcases hend with hend | hend
            · rw [List.length_cons] at hlength
              omega
            · exact huncut hend
          by_cases hfirst : start = n
          · subst hfirst
            have hmem := (ih (start + 1)).mpr ⟨le_refl _, by omega, hstop, .inl rfl, hend,
              fun i hi hi' => hwhole i (by omega) hi'⟩
            rcases List.mem_cons.mp hmem with heq | hmem
            · exact .inl ⟨rfl, congrArg Prod.snd heq⟩
            · exact absurd (hbehind _ hmem) (lt_irrefl _)
          · have hstart := hstart.resolve_left hfirst
            have hmem := (ih start).mpr ⟨by omega, hlt, hstop, .inr hstart, hend, hwhole⟩
            rcases List.mem_cons.mp hmem with heq | hmem
            · cases heq
              exact absurd hstart huncut
            · exact .inr hmem

/-! ## The words of a name -/

/-- Whether the positions from one to another hold a word: letters and digits, between which no word
begins, and at both ends either the text ends, or another character stands there, or a word begins
behind it. -/
structure IsWord (cs : List Char) (start stop : Nat) : Prop where
  start_lt_stop : start < stop
  stop_le_length : stop ≤ cs.length
  isWordChar : ∀ i, start ≤ i → i < stop → ∀ c ∈ cs[i]?, isWordChar c = true
  whole : ∀ i, start < i → i < stop → ¬CutAt isBoundary cs i
  begins : start = 0 ∨ (∃ c ∈ cs[start - 1]?, Name.isWordChar c = false) ∨ CutAt isBoundary cs start
  ends : stop = cs.length ∨ (∃ c ∈ cs[stop]?, Name.isWordChar c = false) ∨ CutAt isBoundary cs stop

/-- Whether two neighbours are in no word together: one of them is no letter and no digit, or a word
begins at the second one. -/
def isApart (a b : Char) (next : Option Char) : Bool :=
  !isWordChar a || !isWordChar b || isBoundary a b next

/-- A character that is in no word is a piece of its own. -/
theorem cutWhere_isApart_cons (hc : isWordChar c = false) (cs : List Char) :
    cutWhere isApart (c :: cs) = [c] :: cutWhere isApart cs := by
  cases cs with
  | nil => rfl
  | cons d rest =>
    have hcut : isApart c d rest.head? = true := by simp [isApart, hc]
    rw [cutWhere, if_pos hcut]

/-- A chunk is cut as if nothing came behind it. -/
theorem cutWhere_isApart_append {w : List Char} (hw : ∀ c ∈ w, isWordChar c = true)
    (hrest : ∀ c ∈ rest.head?, isWordChar c = false) :
    cutWhere isApart (w ++ rest) = cutWhere isBoundary w ++ cutWhere isApart rest := by
  induction w with
  | nil => rfl
  | cons a w ih =>
    obtain ⟨ha, hw⟩ := List.forall_mem_cons.mp hw
    cases w with
    | nil =>
      cases rest with
      | nil => rfl
      | cons c rest =>
        have hcut : isApart a c rest.head? = true := by simp [isApart, hrest c rfl]
        have hfirst : cutWhere isApart (a :: c :: rest) = [a] :: cutWhere isApart (c :: rest) := by
          rw [cutWhere, if_pos hcut]
        exact hfirst
    | cons b w =>
      have hb := hw b List.mem_cons_self
      -- a character that is in no word is no small letter, so the rule sees it as an end
      have hsame : isApart a b (w ++ rest).head? = isBoundary a b w.head? := by
        rw [isApart, ha, hb, Bool.not_true, Bool.false_or, Bool.false_or]
        cases w with
        | cons c w => rfl
        | nil =>
          cases rest with
          | nil => rfl
          | cons c rest =>
            have hc := hrest c rfl
            rw [isWordChar, Bool.or_eq_false_iff, Bool.or_eq_false_iff] at hc
            simp [isBoundary, isAcronymEnd, hc.1.2]
      obtain ⟨piece, pieces, hpieces, _⟩ := exists_cutWhere_cons isBoundary b w
      have hnext := ih hw
      rw [List.cons_append] at hnext
      rw [List.cons_append, List.cons_append, cutWhere, cutWhere, hsame, hnext, hpieces]
      by_cases hcut : isBoundary a b w.head? = true
      · rw [if_pos hcut, if_pos hcut]
        rfl
      · rw [if_neg hcut, if_neg hcut]
        rfl

/-- No rule loses a character. -/
theorem flatten_cutWhere (rule : Char → Char → Option Char → Bool) (cs : List Char) :
    (cutWhere rule cs).flatten = cs := by
  induction cs with
  | nil => rfl
  | cons c cs ih =>
    cases cs with
    | nil => rfl
    | cons d rest =>
      obtain ⟨piece, pieces, hpieces, _⟩ := exists_cutWhere_cons rule d rest
      rw [hpieces, List.flatten_cons] at ih
      rw [cutWhere, hpieces]
      by_cases hcut : rule c d rest.head? = true
      · rw [if_pos hcut, List.flatten_cons, List.flatten_cons, ih]
        rfl
      · rw [if_neg hcut, List.modifyHead_cons, List.flatten_cons, List.cons_append, ih]

/-- The chunks of a text that go on from a chunk begun before are cut into those pieces of both that
hold letters and digits. -/
theorem flatMap_cutWhere_chunksFrom {w : List Char} (hw : ∀ c ∈ w, isWordChar c = true)
    (cs : List Char) :
    (chunksFrom w.reverse cs).flatMap (cutWhere isBoundary) =
      (cutWhere isApart (w ++ cs)).filter fun piece => piece.all isWordChar := by
  have hend : ∀ w : List Char, (∀ c ∈ w, isWordChar c = true) →
      (chunksFrom w.reverse []).flatMap (cutWhere isBoundary) =
        (cutWhere isBoundary w).filter fun piece => piece.all isWordChar := by
    intro w hw
    have hkept : ∀ piece ∈ cutWhere isBoundary w, piece.all isWordChar = true := by
      intro piece hpiece
      refine List.all_eq_true.mpr fun c hc => hw c ?_
      rw [← flatten_cutWhere isBoundary w]
      exact List.mem_flatten_of_mem hpiece hc
    rw [List.filter_eq_self.mpr hkept]
    by_cases hne : w = []
    · rw [hne]
      rfl
    · rw [chunksFrom_nil (by simpa using hne), List.reverse_reverse, List.flatMap_singleton]
  induction cs generalizing w with
  | nil =>
    have hnone : ∀ d ∈ ([] : List Char).head?, isWordChar d = false := by
      intro d hd
      cases hd
    rw [cutWhere_isApart_append hw hnone, hend w hw, cutWhere, List.append_nil]
  | cons c cs ih =>
    by_cases hc : isWordChar c = true
    · have hword : ∀ d ∈ w ++ [c], isWordChar d = true := by
        intro d hd
        rcases List.mem_append.mp hd with hd | hd
        · exact hw d hd
        · rwa [List.mem_singleton.mp hd]
      have hrun : c :: w.reverse = (w ++ [c]).reverse := by simp
      rw [chunksFrom, if_pos hc, hrun, ih hword, List.append_assoc, List.singleton_append]
    · have hnot := eq_false_of_ne_true hc
      have hhead : ∀ d ∈ (c :: cs).head?, isWordChar d = false := by
        intro d hd
        rwa [← Option.some.inj hd]
      have hrest := ih (List.forall_mem_nil _)
      rw [List.reverse_nil, List.nil_append] at hrest
      rw [chunksFrom_separator hnot, List.flatMap_append, hend w hw, chunks, hrest,
        cutWhere_isApart_append hw hhead, cutWhere_isApart_cons hnot, List.filter_append,
        List.filter_cons_of_neg (by simp [hnot])]

/-- **The words of a text** are those pieces of it that hold letters and digits, when it is cut
wherever two neighbours are in no word together. -/
theorem wordChars_eq_filter (cs : List Char) :
    wordChars cs = (cutWhere isApart cs).filter fun piece => piece.all isWordChar := by
  rw [wordChars_eq, chunks]
  exact flatMap_cutWhere_chunksFrom (List.forall_mem_nil _) cs

/-! ### Words and pieces -/

theorem CutAt.pos {i : Nat} (h : CutAt rule cs i) : 0 < i := by
  obtain ⟨_, _, hpos, _⟩ := h
  exact hpos

theorem cutAt_isApart_iff {i : Nat} (hpos : 0 < i) (hlt : i < cs.length) :
    CutAt isApart cs i ↔ (∃ c ∈ cs[i - 1]?, isWordChar c = false) ∨
      (∃ c ∈ cs[i]?, isWordChar c = false) ∨ CutAt isBoundary cs i := by
  have ha : cs[i - 1]? = some cs[i - 1] := List.getElem?_eq_getElem (by omega)
  have hb : cs[i]? = some cs[i] := List.getElem?_eq_getElem hlt
  constructor
  · rintro ⟨a, b, _, ha, hb, hcut⟩
    rw [isApart, Bool.or_eq_true_iff, Bool.or_eq_true_iff, Bool.not_eq_true',
      Bool.not_eq_true'] at hcut
    rcases hcut with (hcut | hcut) | hcut
    · exact .inl ⟨a, ha, hcut⟩
    · exact .inr (.inl ⟨b, hb, hcut⟩)
    · exact .inr (.inr ⟨a, b, hpos, ha, hb, hcut⟩)
  · rintro (⟨a, ha, hcut⟩ | ⟨b, hb, hcut⟩ | ⟨a, b, _, ha, hb, hcut⟩)
    · exact ⟨a, cs[i], hpos, ha, hb, by simp [isApart, hcut]⟩
    · exact ⟨cs[i - 1], b, hpos, ha, hb, by simp [isApart, hcut]⟩
    · exact ⟨a, b, hpos, ha, hb, by simp [isApart, hcut]⟩

/-- What stands between two positions passes a test if it does so at each position between. -/
theorem all_extract_iff {test : Char → Bool} {start stop : Nat} :
    (cs.extract start stop).all test = true ↔
      ∀ i, start ≤ i → i < stop → ∀ c ∈ cs[i]?, test c = true := by
  rw [List.extract_eq_take_drop, List.all_eq_true]
  constructor
  · intro h i hle hlt c hc
    refine h c (List.mem_iff_getElem?.mpr ⟨i - start, ?_⟩)
    rw [List.getElem?_take_of_lt (by omega), List.getElem?_drop, Nat.add_sub_cancel' hle]
    exact hc
  · intro h c hc
    obtain ⟨j, hj⟩ := List.mem_iff_getElem?.mp hc
    rw [List.getElem?_take] at hj
    split at hj
    · rw [List.getElem?_drop] at hj
      exact h (start + j) (by omega) (by omega) c hj
    · cases hj

/-- A word is a piece that holds letters and digits. -/
theorem isWord_iff {start stop : Nat} :
    IsWord cs start stop ↔
      (0 ≤ start ∧ start < stop ∧ stop ≤ cs.length ∧ (start = 0 ∨ CutAt isApart cs start) ∧
        (stop = cs.length ∨ CutAt isApart cs stop) ∧
        ∀ i, start < i → i < stop → ¬CutAt isApart cs i) ∧
      (cs.extract start stop).all isWordChar = true := by
  constructor
  · intro h
    have hlt := h.start_lt_stop
    have hle := h.stop_le_length
    refine ⟨⟨Nat.zero_le _, hlt, hle, ?_, ?_, fun i hi hi' hcut => ?_⟩,
      all_extract_iff.mpr h.isWordChar⟩
    · by_cases hzero : start = 0
      · exact .inl hzero
      · refine .inr ((cutAt_isApart_iff (by omega) (by omega)).mpr ?_)
        rcases h.begins.resolve_left hzero with hother | hcut
        · exact .inl hother
        · exact .inr (.inr hcut)
    · by_cases hlast : stop = cs.length
      · exact .inl hlast
      · refine .inr ((cutAt_isApart_iff (by omega) (by omega)).mpr ?_)
        exact .inr (h.ends.resolve_left hlast)
    · rcases (cutAt_isApart_iff (by omega) (by omega)).mp hcut with
        ⟨c, hc, hnot⟩ | ⟨c, hc, hnot⟩ | hcut
      · exact absurd (h.isWordChar (i - 1) (by omega) (by omega) c hc) (by simp [hnot])
      · exact absurd (h.isWordChar i (by omega) hi' c hc) (by simp [hnot])
      · exact h.whole i hi hi' hcut
  · rintro ⟨⟨_, hlt, hle, hstart, hstop, hwhole⟩, hall⟩
    have hword := all_extract_iff.mp hall
    refine ⟨hlt, hle, hword, fun i hi hi' hcut => ?_, ?_, ?_⟩
    · exact hwhole i hi hi' ((cutAt_isApart_iff (by omega) (by omega)).mpr (.inr (.inr hcut)))
    · refine hstart.imp_right fun hcut => ?_
      rcases (cutAt_isApart_iff hcut.pos (by omega)).mp hcut with hother | ⟨c, hc, hnot⟩ | hcut
      · exact .inl hother
      · exact absurd (hword start (le_refl _) hlt c hc) (by simp [hnot])
      · exact .inr hcut
    · by_cases hlast : stop = cs.length
      · exact .inl hlast
      · have hcut := hstop.resolve_left hlast
        rcases (cutAt_isApart_iff hcut.pos (by omega)).mp hcut with ⟨c, hc, hnot⟩ | hother
        · exact absurd (hword (stop - 1) (by omega) (by omega) c hc) (by simp [hnot])
        · exact .inr hother

/-- **Where the words of a text stand**: one after the other, and they are all the words that there
are. -/
theorem exists_spans (cs : List Char) :
    ∃ spans : List (Nat × Nat), spans.Pairwise (fun p q => p.2 ≤ q.1) ∧
      (∀ start stop, (start, stop) ∈ spans ↔ IsWord cs start stop) ∧
      wordChars cs = spans.map fun p => cs.extract p.1 p.2 := by
  refine ⟨(spansFrom 0 (cutWhere isApart cs)).filter fun p => (cs.extract p.1 p.2).all isWordChar,
    (pairwise_spansFrom 0 _).filter _, fun start stop => ?_, ?_⟩
  · rw [List.mem_filter, isWord_iff]
    exact and_congr_left' (mem_spansFrom_cutWhere 0 start stop)
  · have hpieces : (spansFrom 0 (cutWhere isApart cs)).map (fun p => cs.extract p.1 p.2) =
        cutWhere isApart cs := map_extract_spansFrom (flatten_cutWhere isApart cs).symm
    rw [wordChars_eq_filter]
    conv_lhs => rw [← hpieces]
    rw [List.filter_map]
    rfl

theorem ne_nil_of_mem_chunksFrom {run chunk : List Char} (h : chunk ∈ chunksFrom run cs) :
    chunk ≠ [] := by
  induction cs generalizing run with
  | nil =>
    rw [chunksFrom] at h
    split at h
    · cases h
    · rename_i hne
      rw [List.mem_singleton.mp h]
      simpa using hne
  | cons c cs ih =>
    rw [chunksFrom] at h
    split at h
    · exact ih h
    · split at h
      · exact ih h
      · rename_i hne
        rcases List.mem_cons.mp h with rfl | h
        · simpa using hne
        · exact ih h

/-- A chunk is not empty, and has letters and digits only. -/
theorem of_mem_chunks {chunk : List Char} (h : chunk ∈ chunks cs) :
    chunk ≠ [] ∧ ∀ c ∈ chunk, isWordChar c = true := by
  refine ⟨ne_nil_of_mem_chunksFrom h, fun c hc => ?_⟩
  have hmem : c ∈ (chunks cs).flatten := List.mem_flatten_of_mem h hc
  rw [chunks, flatten_chunksFrom] at hmem
  exact (List.mem_filter.mp hmem).2

/-- A name in lower-case words stays as it is when it is converted again. -/
theorem snake_snake (name : String) : snake (snake name) = snake name := by
  have hname : (snake name).toList =
      List.intercalate ['_'] ((wordChars name.toList).map fun w => w.map Char.toLower) ++
        List.replicate 0 '_' := by
    rw [snake, String.toList_ofList, List.replicate_zero, List.append_nil]
  have htwice := snake_intercalate (lower_wordChars name.toList) 0 hname
  rw [← String.toList_inj, htwice, snake, String.toList_ofList]

/-- **The words of a name**, which the two substitutions find in its chunks, are those stretches of
it that hold letters and digits and in which no word begins, all of them and in order. None of them
is empty, together they are the name without all other characters, and the name in lower-case words
stays as it is when it is converted again. -/
theorem words_by_position (name : String) :
    ((words name).map String.toList = (chunks name.toList).flatMap fun chunk =>
        blankSeparated (substitute findAcronymEnd? (substitute findRise? chunk))) ∧
    (∃ spans : List (Nat × Nat), spans.Pairwise (fun p q => p.2 ≤ q.1) ∧
      (∀ start stop, (start, stop) ∈ spans ↔ IsWord name.toList start stop) ∧
      (words name).map String.toList = spans.map fun p => name.toList.extract p.1 p.2) ∧
    (∀ word ∈ words name, word ≠ "") ∧
    (String.join (words name)).toList = name.toList.filter isWordChar ∧
    snake (snake name) = snake name := by
  have hwords : (words name).map String.toList = wordChars name.toList := by
    simp [words, Function.comp_def]
  refine ⟨?_, ?_, ?_, ?_, snake_snake name⟩
  · rw [hwords, wordChars]
    refine List.flatMap_congr fun chunk hchunk => ?_
    obtain ⟨hne, hword⟩ := of_mem_chunks hchunk
    exact (blankSeparated_substitute hne hword).symm
  · rw [hwords]
    exact exists_spans name.toList
  · intro word hword hempty
    obtain ⟨letters, hletters, rfl⟩ := List.mem_map.mp hword
    refine ne_nil_of_mem_wordChars hletters ?_
    rw [← String.toList_ofList (l := letters), hempty]
    rfl
  · rw [String.toList_join, List.flatMap_def, hwords, flatten_wordChars]

/-- An acronym ends before the capital that begins the next word, and a digit begins no word. -/
example : words "getHTTPServer2Go" = ["get", "HTTP", "Server2", "Go"] := by decide

end TypedApi.Name
