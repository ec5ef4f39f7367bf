import TypedApi.Proofs.Name.Plain
/-!
Names in lower-case words.

A name in lower-case words has no capitals, so nothing is left to cut but the
words that it is made of: whatever underscores stand after it, its words are the
same again, and so is the name.
-/

set_option autoImplicit false

namespace TypedApi.Name

/-- What stands one after the other with one element between. -/
theorem intercalate_singleton_cons {α : Type} (separator : α) (first : List α)
    (later : List (List α)) :
    List.intercalate [separator] (first :: later) = first ++ later.flatMap (separator :: ·) := by
  induction later generalizing first with
  | nil => rw [List.intercalate_singleton, List.flatMap_nil, List.append_nil]
  | cons second later ih =>
    rw [List.intercalate_cons_cons, ih, List.append_assoc, List.flatMap_cons]
    rfl

/-! ## Words without capitals -/

/-- Words without capitals: none is empty, and they have small letters and digits only. -/
structure Lower (ws : List (List Char)) : Prop where
  nonempty : ∀ w ∈ ws, w ≠ []
  lower : ∀ w ∈ ws, ∀ c ∈ w, (isSmall c || isNumeric c) = true

theorem isWordChar_of_lower {c : Char} (h : (isSmall c || isNumeric c) = true) :
    isWordChar c = true := by
  rw [isWordChar, Bool.or_assoc, h, Bool.or_true]

theorem not_isCapital_of_lower {c : Char} (h : (isSmall c || isNumeric c) = true) :
    isCapital c = false := by
  have hall : ∀ n < 128, (isSmall (Char.ofNat n) || isNumeric (Char.ofNat n)) = true →
      isCapital (Char.ofNat n) = false := by
    decide
  exact forall_ascii (p := fun d => (isSmall d || isNumeric d) = true → isCapital d = false) hall
    (toNat_lt_of_isWordChar (isWordChar_of_lower h)) h

theorem Lower.tail {w : List Char} {ws : List (List Char)} (h : Lower (w :: ws)) : Lower ws :=
  ⟨fun w' hw' => h.nonempty w' (List.mem_cons_of_mem _ hw'),
    fun w' hw' => h.lower w' (List.mem_cons_of_mem _ hw')⟩

theorem Lower.nil : Lower [] :=
  ⟨fun _ h => absurd h List.not_mem_nil, fun _ h => absurd h List.not_mem_nil⟩

theorem Lower.cons {w : List Char} {ws : List (List Char)} (hne : w ≠ [])
    (hw : ∀ c ∈ w, (isSmall c || isNumeric c) = true) (h : Lower ws) : Lower (w :: ws) :=
  ⟨List.forall_mem_cons.mpr ⟨hne, h.nonempty⟩, List.forall_mem_cons.mpr ⟨hw, h.lower⟩⟩

/-- A word is read into the run begun so far. -/
theorem chunksFrom_append {run w rest : List Char} (h : ∀ c ∈ w, isWordChar c = true) :
    chunksFrom run (w ++ rest) = chunksFrom (w.reverse ++ run) rest := by
  induction w generalizing run with
  | nil => rfl
  | cons c w ih =>
    rw [List.forall_mem_cons] at h
    rw [List.cons_append, chunksFrom, if_pos h.1, ih h.2, List.reverse_cons, List.append_assoc]
    rfl

/-- A character that separates ends the run begun so far. -/
theorem chunksFrom_separator {run rest : List Char} {c : Char} (h : isWordChar c = false) :
    chunksFrom run (c :: rest) = chunksFrom run [] ++ chunks rest := by
  rw [chunksFrom.eq_2, h, if_neg Bool.false_ne_true, chunksFrom]
  cases run with
  | nil => rfl
  | cons d run => rfl

theorem chunksFrom_nil {run : List Char} (h : run ≠ []) : chunksFrom run [] = [run.reverse] := by
  simp [chunksFrom, h]

theorem chunks_underscores (n : Nat) : chunks (List.replicate n '_') = [] := by
  induction n with
  | zero => rfl
  | succ n ih =>
    rw [List.replicate_succ, chunks, chunksFrom_separator (by decide), ih]
    rfl

/-- **The chunks of words** that are put together are the words, with underscores after them or
not. -/
theorem chunks_intercalate {ws : List (List Char)} (h : Lower ws) (n : Nat) :
    chunks (List.intercalate ['_'] ws ++ List.replicate n '_') = ws := by
  cases ws with
  | nil => exact chunks_underscores n
  | cons w ws =>
    rw [intercalate_singleton_cons]
    induction ws generalizing w with
    | nil =>
      have hword := h.lower w List.mem_cons_self
      have hne : w.reverse ≠ [] := by simpa using h.nonempty w List.mem_cons_self
      rw [List.flatMap_nil, List.append_nil, chunks,
        chunksFrom_append fun c hc => isWordChar_of_lower (hword c hc), List.append_nil]
      cases n with
      | zero =>
        rw [List.replicate_zero, chunksFrom_nil hne, List.reverse_reverse]
      | succ n =>
        rw [List.replicate_succ, chunksFrom_separator (by decide), chunks_underscores,
          List.append_nil, chunksFrom_nil hne, List.reverse_reverse]
    | cons second ws ih =>
      have hword := h.lower w List.mem_cons_self
      have hne : w.reverse ≠ [] := by simpa using h.nonempty w List.mem_cons_self
      rw [List.flatMap_cons, List.append_assoc, chunks,
        chunksFrom_append fun c hc => isWordChar_of_lower (hword c hc), List.append_nil,
        List.cons_append, List.cons_append, chunksFrom_separator (by decide), chunksFrom_nil hne,
        List.reverse_reverse, ih second h.tail]
      rfl

/-- A word without capitals is not cut at rises. -/
theorem cutRises_of_lower {w : List Char} (hne : w ≠ [])
    (h : ∀ c ∈ w, (isSmall c || isNumeric c) = true) : cutRises w = [w] := by
  induction w with
  | nil => exact absurd rfl hne
  | cons c w ih =>
    rw [List.forall_mem_cons] at h
    cases w with
    | nil => rfl
    | cons d w =>
      have hcapital := not_isCapital_of_lower (h.2 d List.mem_cons_self)
      have hrest := ih (List.cons_ne_nil d w) h.2
      rw [cutRises.eq_def]
      dsimp only
      rw [hrest]
      simp [hcapital]

/-- A word without capitals is not cut at acronyms. -/
theorem cutAcronymsFrom_of_lower (word : List Char) {w : List Char} (hne : word ++ w ≠ [])
    (h : ∀ c ∈ w, (isSmall c || isNumeric c) = true) :
    cutAcronymsFrom word 0 w = [word.reverse ++ w] := by
  induction w generalizing word with
  | nil =>
    rw [List.append_nil] at hne
    simp [cutAcronymsFrom, hne]
  | cons c w ih =>
    rw [List.forall_mem_cons] at h
    have hcapital := not_isCapital_of_lower h.1
    have hnext := ih (c :: word) (by simp) h.2
    rw [List.reverse_cons, List.append_assoc] at hnext
    rw [cutAcronymsFrom.eq_def]
    dsimp only
    rw [hcapital, if_neg Bool.false_ne_true]
    cases word with
    | nil => exact hnext
    | cons last before => simpa using hnext

theorem flatMap_cut_of_lower {ws : List (List Char)} (h : Lower ws) :
    (ws.flatMap fun chunk => (cutRises chunk).flatMap cutAcronyms) = ws := by
  induction ws with
  | nil => rfl
  | cons w ws ih =>
    have hne := h.nonempty w List.mem_cons_self
    have hword := h.lower w List.mem_cons_self
    have hacronyms := cutAcronymsFrom_of_lower [] hne hword
    rw [List.flatMap_cons, cutRises_of_lower hne hword, List.flatMap_singleton, cutAcronyms,
      hacronyms, ih h.tail]
    rfl

theorem toLower_of_lower {c : Char} (h : (isSmall c || isNumeric c) = true) : c.toLower = c := by
  have hall : ∀ n < 128, (isSmall (Char.ofNat n) || isNumeric (Char.ofNat n)) = true →
      (Char.ofNat n).toLower = Char.ofNat n := by
    decide
  exact forall_ascii (p := fun d => (isSmall d || isNumeric d) = true → d.toLower = d) hall
    (toNat_lt_of_isWordChar (isWordChar_of_lower h)) h

theorem map_toLower_of_lower {ws : List (List Char)} (h : Lower ws) :
    ws.map (fun w => w.map Char.toLower) = ws := by
  rw [List.map_congr_left (g := id), List.map_id]
  intro w hw
  rw [List.map_congr_left (g := id), List.map_id, id]
  exact fun c hc => toLower_of_lower (h.lower w hw c hc)

/-- **A name in lower-case words is one already**, with underscores after it or not. -/
theorem snake_intercalate {ws : List (List Char)} (h : Lower ws) (n : Nat) {name : String}
    (hname : name.toList = List.intercalate ['_'] ws ++ List.replicate n '_') :
    (snake name).toList = List.intercalate ['_'] ws := by
  rw [snake, String.toList_ofList, hname, wordChars, chunks_intercalate h n, flatMap_cut_of_lower h,
    map_toLower_of_lower h]

/-! ## The words of a name -/

/-- No cut leaves an empty word. At most all letters of the word begun are capitals. -/
theorem ne_nil_of_mem_cutAcronymsFrom {word cs : List Char} {capitals : Nat}
    (h : capitals ≤ word.length) : ∀ w ∈ cutAcronymsFrom word capitals cs, w ≠ [] := by
  induction cs generalizing word capitals with
  | nil =>
    intro w hw
    rw [cutAcronymsFrom.eq_def] at hw
    dsimp only at hw
    split at hw
    · cases hw
    · rename_i hne
      rw [List.mem_singleton.mp hw]
      simpa using hne
  | cons c cs ih =>
    rw [cutAcronymsFrom.eq_def]
    dsimp only
    split
    · exact ih (Nat.succ_le_succ h)
    · cases word with
      | nil => exact ih (Nat.zero_le _)
      | cons last before =>
        dsimp only
        split
        · rename_i hcut
          rw [Bool.and_eq_true, decide_eq_true_iff] at hcut
          refine List.forall_mem_cons.mpr ⟨?_, ih (Nat.zero_le _)⟩
          -- two capitals leave a letter before the last
          rintro hempty
          rw [List.reverse_eq_nil_iff] at hempty
          rw [hempty, List.length_singleton] at h
          omega
        · exact ih (Nat.zero_le _)

theorem lower_toLower {c : Char} (h : isWordChar c = true) :
    (isSmall c.toLower || isNumeric c.toLower) = true := by
  have hall : ∀ n < 128, isWordChar (Char.ofNat n) = true →
      (isSmall (Char.ofNat n).toLower || isNumeric (Char.ofNat n).toLower) = true := by
    decide
  exact forall_ascii (p := fun d => isWordChar d = true →
    (isSmall d.toLower || isNumeric d.toLower) = true) hall (toNat_lt_of_isWordChar h) h

/-- No word of a name is empty. -/
theorem ne_nil_of_mem_wordChars {cs w : List Char} (h : w ∈ wordChars cs) : w ≠ [] := by
  obtain ⟨chunk, _, h⟩ := List.mem_flatMap.mp h
  obtain ⟨piece, _, h⟩ := List.mem_flatMap.mp h
  exact ne_nil_of_mem_cutAcronymsFrom (Nat.zero_le _) w h

/-- **The words of a name**, in small letters, have no capitals. -/
theorem lower_wordChars (cs : List Char) :
    Lower ((wordChars cs).map fun w => w.map Char.toLower) where
  nonempty := by
    refine List.forall_mem_map.mpr fun w hw => ?_
    simpa using ne_nil_of_mem_wordChars hw
  lower := by
    refine List.forall_mem_map.mpr fun w hw => List.forall_mem_map.mpr fun c hc => ?_
    exact lower_toLower (isWordChar_of_mem_wordChars hw hc)

end TypedApi.Name
