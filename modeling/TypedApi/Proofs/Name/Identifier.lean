import TypedApi.Proofs.Name.Safe
/-!
Names made of words are identifiers.

The words of a text are its letters and digits and nothing else: cutting a
text into words loses no letter and no digit and adds none. A name made of
words is therefore plain ASCII, and escaping it makes it an identifier that is
not reserved. The display names of variants are all made in this way.
-/

set_option autoImplicit false

namespace TypedApi.Name

/-! ## The letters of words -/

/-- The pieces between separators, put together, are the letters and digits. -/
theorem flatten_chunksFrom (run cs : List Char) :
    (chunksFrom run cs).flatten = run.reverse ++ cs.filter isWordChar := by
  induction cs generalizing run with
  | nil =>
    rw [chunksFrom]
    split
    · rename_i h
      simp [List.isEmpty_iff.mp h]
    · simp
  | cons c rest ih =>
    rw [chunksFrom]
    split
    · rename_i h
      simp [ih, h]
    · rename_i h
      split
      · rename_i hrun
        simp [ih, h, List.isEmpty_iff.mp hrun]
      · simp [ih, h]

/-- Cutting at rises keeps every letter. -/
theorem flatten_cutRises (cs : List Char) : (cutRises cs).flatten = cs := by
  induction cs with
  | nil => rfl
  | cons c rest ih =>
    rw [cutRises.eq_def]
    cases rest with
    | nil => rfl
    | cons d tail =>
      cases hpieces : cutRises (d :: tail) with
      | nil =>
        rw [hpieces] at ih
        cases ih
      | cons piece pieces =>
        rw [hpieces, List.flatten_cons] at ih
        dsimp only
        rw [hpieces]
        dsimp only
        split
        · simp [ih]
        · simp [ih]

/-- Cutting acronyms keeps every letter. -/
theorem flatten_cutAcronymsFrom (word : List Char) (capitals : Nat) (cs : List Char) :
    (cutAcronymsFrom word capitals cs).flatten = word.reverse ++ cs := by
  induction cs generalizing word capitals with
  | nil =>
    rw [cutAcronymsFrom.eq_def]
    dsimp only
    split
    · rename_i h
      simp [List.isEmpty_iff.mp h]
    · simp
  | cons c rest ih =>
    rw [cutAcronymsFrom.eq_def]
    dsimp only
    split
    · simp [ih]
    · cases word with
      | nil => simp [ih]
      | cons last before =>
        dsimp only
        split
        · simp [ih]
        · simp [ih]

/-- **Words are made of all letters and digits of a text and of nothing else.** -/
theorem flatten_wordChars (cs : List Char) : (wordChars cs).flatten = cs.filter isWordChar := by
  -- the two cuts are made one inside the other, and neither loses a letter
  have hpieces : ∀ pieces : List (List Char),
      (pieces.flatMap fun chunk => (cutRises chunk).flatMap cutAcronyms).flatten
        = pieces.flatten := by
    have hcut : ∀ pieces : List (List Char), (pieces.flatMap cutAcronyms).flatten
        = pieces.flatten := by
      intro pieces
      induction pieces with
      | nil => rfl
      | cons piece pieces ih =>
        rw [List.flatMap_cons, List.flatten_append, ih, cutAcronyms, flatten_cutAcronymsFrom]
        rfl
    intro pieces
    induction pieces with
    | nil => rfl
    | cons piece pieces ih =>
      rw [List.flatMap_cons, List.flatten_append, ih, hcut, flatten_cutRises]
      rfl
  rw [wordChars, hpieces, chunks, flatten_chunksFrom]
  rfl

/-- A fact about ASCII characters is checked on their 128 codes. -/
theorem forall_ascii {p : Char → Prop} (h : ∀ n < 128, p (Char.ofNat n)) {c : Char}
    (hc : c.toNat < 128) : p c := by
  have := h c.toNat hc
  rwa [Char.ofNat_toNat] at this

/-- A letter or digit is plain ASCII. -/
theorem toNat_lt_of_isWordChar {c : Char} (h : isWordChar c = true) : c.toNat < 128 := by
  simp only [isWordChar, isCapital, isSmall, isNumeric, Bool.or_eq_true, Bool.and_eq_true,
    decide_eq_true_eq, Char.le_def, UInt32.le_iff_toNat_le] at h
  have : c.toNat = c.val.toNat := rfl
  simp at h
  omega

/-- In either case a letter stays a letter. -/
theorem isWordChar_case {c : Char} (h : isWordChar c = true) :
    isWordChar c.toUpper = true ∧ isWordChar c.toLower = true := by
  have hall : ∀ n < 128, isWordChar (Char.ofNat n) = true →
      isWordChar (Char.ofNat n).toUpper = true ∧ isWordChar (Char.ofNat n).toLower = true := by
    decide
  exact forall_ascii (p := fun d => isWordChar d = true → isWordChar d.toUpper = true ∧
    isWordChar d.toLower = true) hall (toNat_lt_of_isWordChar h) h

/-- A character that is a letter or digit but no digit is a letter. -/
theorem isLetter_of_isWordChar {c : Char} (h : isWordChar c = true)
    (hdigit : Text.isDigit c = false) : (isCapital c || isSmall c) = true := by
  have hall : ∀ n < 128, isWordChar (Char.ofNat n) = true → Text.isDigit (Char.ofNat n) = false →
      (isCapital (Char.ofNat n) || isSmall (Char.ofNat n)) = true := by
    decide
  exact forall_ascii (p := fun d => isWordChar d = true → Text.isDigit d = false →
    (isCapital d || isSmall d) = true) hall
    (toNat_lt_of_isWordChar h) h hdigit

/-- A letter of a word is one of those that the words are made of. -/
theorem isWordChar_of_mem_wordChars {cs word : List Char} (hword : word ∈ wordChars cs) {c : Char}
    (hc : c ∈ word) : isWordChar c = true := by
  have hmem : c ∈ (wordChars cs).flatten := List.mem_flatten.mpr ⟨word, hword, hc⟩
  rw [flatten_wordChars] at hmem
  exact (List.mem_filter.mp hmem).2

/-- A name in words has letters and digits only. -/
theorem isWordChar_of_mem_upperCamel {name : String} {c : Char}
    (h : c ∈ (upperCamel name).toList) : isWordChar c = true := by
  rw [upperCamel, String.toList_ofList, List.mem_flatMap] at h
  obtain ⟨word, hword, hc⟩ := h
  have hall : ∀ d ∈ word, isWordChar d = true := fun d hd => isWordChar_of_mem_wordChars hword hd
  cases word with
  | nil => cases hc
  | cons d rest =>
    rcases List.mem_cons.mp hc with rfl | hc
    · exact (isWordChar_case (hall d List.mem_cons_self)).1
    · obtain ⟨e, he, rfl⟩ := List.mem_map.mp hc
      exact (isWordChar_case (hall e (List.mem_cons_of_mem _ he))).2

/-! ## Identifiers -/

/-- A plain identifier: an ASCII letter or an underscore, then ASCII letters, digits and
underscores. -/
def IsIdentifier (name : String) : Prop :=
  ∃ c rest, name.toList = c :: rest ∧ ((isCapital c || isSmall c) = true ∨ c = '_') ∧
    ∀ d ∈ rest, isWordChar d = true ∨ d = '_'

/-- **Escaping a name made of letters and digits makes it an identifier.** -/
theorem isIdentifier_escape {name : String} (h : ∀ c ∈ name.toList, isWordChar c = true) :
    IsIdentifier (escape name) := by
  unfold escape
  split
  · exact ⟨'_', [], rfl, .inr rfl, by simp⟩
  · rename_i c rest hname
    extract_lets started
    rw [hname] at h
    have hstarted : ∃ d tail, started.toList = d :: tail ∧
        ((isCapital d || isSmall d) = true ∨ d = '_') ∧ ∀ e ∈ tail, isWordChar e = true := by
      simp only [started]
      split
      · exact ⟨'_', name.toList, by simp, .inr rfl, by rwa [hname]⟩
      · rename_i hc
        have hletter := isLetter_of_isWordChar (h c List.mem_cons_self) (eq_false_of_ne_true hc)
        exact ⟨c, rest, hname, .inl hletter, fun e he => h e (List.mem_cons_of_mem _ he)⟩
    obtain ⟨d, tail, hd, hfirst, htail⟩ := hstarted
    clear_value started
    split
    · refine ⟨d, tail ++ ['_'], ?_, hfirst, fun e he => ?_⟩
      · rw [String.toList_append, hd]
        rfl
      · rcases List.mem_append.mp he with he | he
        · exact .inl (htail e he)
        · exact .inr (List.mem_singleton.mp he)
    · exact ⟨d, tail, hd, hfirst, fun e he => .inl (htail e he)⟩

end TypedApi.Name

namespace TypedApi.Variant

/-- A name by position has letters and digits only. -/
theorem isWordChar_of_mem_positional {index : Nat} {c : Char}
    (h : c ∈ (positional index).toList) : Name.isWordChar c = true := by
  have hdigit : ∀ d : Char, d.isDigit = true → Name.isWordChar d = true := by
    intro d hd
    rw [Name.isWordChar, Bool.or_eq_true]
    refine .inr ?_
    simpa [Name.isNumeric, Char.isDigit, Char.le_def] using hd
  have hword : "Variant".toList.all Name.isWordChar = true := by decide
  rw [positional, String.toList_append, String.toList_append, List.append_assoc] at h
  rcases List.mem_append.mp h with h | h
  · exact List.all_eq_true.mp hword c h
  · rcases List.mem_append.mp h with h | h
    · split at h
      · exact hdigit c (by simp at h; subst h; decide)
      · cases h
    · have hmem : c ∈ Nat.toDigits 10 index := by
        simpa only [toString, Nat.toList_repr] using h
      exact hdigit c (Nat.isDigit_of_mem_toDigits (by decide) (by decide) hmem)

/-- **The display names of variants are identifiers and not reserved.** -/
theorem nameFrom_isIdentifier (index : Nat) (base : Option String) :
    Name.IsIdentifier (nameFrom index base) ∧ Name.isReserved (nameFrom index base) = false := by
  have hplain : ∀ name : String, (∀ c ∈ name.toList, Name.isWordChar c = true) →
      Name.IsIdentifier (Name.escape name) ∧ Name.isReserved (Name.escape name) = false :=
    fun name h => ⟨Name.isIdentifier_escape h, (Name.safe_escape name).free⟩
  unfold nameFrom
  refine hplain _ fun c hc => ?_
  split at hc
  · exact isWordChar_of_mem_positional hc
  · exact Name.isWordChar_of_mem_upperCamel hc

end TypedApi.Variant

namespace TypedApi

/-! # The letters of a name

Two names that a reader can tell apart may still have one display name, for a
name is cut into words and capitalized again, and that does not give back what
it was. What it does give back is the letters and digits in their order, up to
case: neither cutting and capitalizing nor escaping adds or drops any. So names
that differ in more than case and underscores have different display names.
-/

namespace Name

/-- The letters and digits of a name, all letters small. -/
def letters (name : String) : List Char :=
  (name.toList.filter isWordChar).map Char.toLower

/-- The case of a letter does not matter for its small letter. -/
theorem toLower_case {c : Char} (h : isWordChar c = true) :
    c.toUpper.toLower = c.toLower ∧ c.toLower.toLower = c.toLower := by
  have hall : ∀ n < 128, isWordChar (Char.ofNat n) = true →
      (Char.ofNat n).toUpper.toLower = (Char.ofNat n).toLower ∧
        (Char.ofNat n).toLower.toLower = (Char.ofNat n).toLower := by
    decide
  exact forall_ascii (p := fun d => isWordChar d = true → d.toUpper.toLower = d.toLower ∧
    d.toLower.toLower = d.toLower) hall (toNat_lt_of_isWordChar h) h

/-- A word has its letters also with a capital first. -/
theorem lower_capitalize {word : List Char} (h : ∀ c ∈ word, isWordChar c = true) :
    ((capitalize word).filter isWordChar).map Char.toLower = word.map Char.toLower := by
  cases word with
  | nil => rfl
  | cons c rest =>
    obtain ⟨hc, hrest⟩ := List.forall_mem_cons.mp h
    have hkept : (rest.map Char.toLower).filter isWordChar = rest.map Char.toLower := by
      refine List.filter_eq_self.mpr fun d hd => ?_
      obtain ⟨e, he, rfl⟩ := List.mem_map.mp hd
      exact (isWordChar_case (hrest e he)).2
    have hlower : (rest.map Char.toLower).map Char.toLower = rest.map Char.toLower := by
      rw [List.map_map]
      exact List.map_congr_left fun d hd => (toLower_case (hrest d hd)).2
    rw [capitalize, List.filter_cons_of_pos (isWordChar_case hc).1, hkept, List.map_cons,
      List.map_cons, hlower, (toLower_case hc).1]

/-- **A name in words has the letters of the name.** -/
theorem letters_upperCamel (name : String) : letters (upperCamel name) = letters name := by
  have hwords : ∀ ws : List (List Char), (∀ word ∈ ws, ∀ c ∈ word, isWordChar c = true) →
      ((ws.flatMap capitalize).filter isWordChar).map Char.toLower =
        ws.flatten.map Char.toLower := by
    intro ws h
    induction ws with
    | nil => rfl
    | cons word ws ih =>
      obtain ⟨hword, hrest⟩ := List.forall_mem_cons.mp h
      rw [List.flatMap_cons, List.filter_append, List.map_append, lower_capitalize hword, ih hrest,
        List.flatten_cons, List.map_append]
  rw [letters, upperCamel, String.toList_ofList,
    hwords _ fun _ hword _ hc => isWordChar_of_mem_wordChars hword hc, flatten_wordChars, letters]

theorem letters_append (a b : String) : letters (a ++ b) = letters a ++ letters b := by
  simp [letters]

/-- An underscore is no letter. -/
theorem letters_underscore : letters "_" = [] := by
  decide

/-- **So has an escaped name.** -/
theorem letters_escape (name : String) : letters (escape name) = letters name := by
  unfold escape
  split
  · rename_i hname
    rw [letters_underscore, letters, hname]
    rfl
  · extract_lets started
    have hstarted : letters started = letters name := by
      simp only [started]
      split
      · rw [letters_append, letters_underscore, List.nil_append]
      · rfl
    split
    · rw [letters_append, letters_underscore, List.append_nil, hstarted]
    · exact hstarted

/-- A name without letters has no words. -/
theorem upperCamel_eq_empty_iff {name : String} : upperCamel name = "" ↔ letters name = [] := by
  refine ⟨fun h => ?_, fun h => ?_⟩
  · rw [← letters_upperCamel, h]
    rfl
  · have hflat : (wordChars name.toList).flatten = [] := by
      rw [flatten_wordChars]
      exact List.map_eq_nil_iff.mp h
    rw [upperCamel, ← String.toList_inj, String.toList_ofList, String.toList_empty,
      List.flatMap_eq_nil_iff]
    intro word hword
    rw [List.flatten_eq_nil_iff.mp hflat word hword]
    rfl

end Name

/-- The letters and digits of the display name made from the name of an item at a position: those of
the name, or those of the position if the name has none. -/
def Variant.spelling (p : String × Nat) : List Char :=
  if Name.letters p.1 = [] then Name.letters (positional p.2) else Name.letters p.1

/-- **A display name is spelled like the name that it is made from**, up to case and underscores. -/
theorem Variant.letters_nameFrom (p : String × Nat) :
    Name.letters (nameFrom p.2 (some p.1)) = spelling p := by
  rw [nameFrom, Option.getD_some, Name.letters_escape, spelling]
  by_cases hempty : Name.letters p.1 = []
  · rw [if_pos (Name.upperCamel_eq_empty_iff.mpr hempty), if_pos hempty]
  · rw [if_neg (mt Name.upperCamel_eq_empty_iff.mp hempty), if_neg hempty, Name.letters_upperCamel]

/-- The letters and digits of a display name. -/
def VariantName.letters : VariantName → List Char
  | .named value => Name.letters value
  | .unnamed => []

/-- Display names that are spelled differently are different. -/
theorem Variant.nodup_of_spelling {l : List (String × Nat)} (h : (l.map spelling).Nodup) :
    (l.map fun p => VariantName.named (nameFrom p.2 (some p.1))).Nodup := by
  refine List.Nodup.of_map VariantName.letters ?_
  rw [List.map_map]
  simpa only [Function.comp_def, VariantName.letters, letters_nameFrom] using h

end TypedApi
