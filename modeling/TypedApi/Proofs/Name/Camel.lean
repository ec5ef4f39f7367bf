import TypedApi.Proofs.Name.Snake
import Mathlib.Data.List.Chain
/-!
Names in words, converted again.

A name in words has no separators, so the words in it are told apart by their
capitals alone. A word of one letter is lost there: before a word that goes on with
a small letter it still shows, but with any other letter after it the two make an
acronym, and converting the name again gives this one capital only. Nothing else is
lost, and what an acronym has become shows its words: a name that has been converted
twice stays as it is.

`Segmented` is the normal form behind this: every capital but a first one stands
where a word begins. A chunk keeps its form exactly if it is segmented, and
converting a chunk makes it so.
-/

set_option autoImplicit false

/-! # Where words begin

A chunk of letters and digits is cut in two passes, the second one on the pieces of
the first. Both look at neighbours only: whether a word begins at a character is
decided by the character before it, by itself and by the one after it. The two
passes together are therefore one pass that cuts at these boundaries.
-/

namespace TypedApi.Name

/-! ## One pass -/

/-- Cut before a character wherever a rule says so, given the character before it, itself and the
one after it. -/
def cutWhere (rule : Char → Char → Option Char → Bool) : List Char → List (List Char)
  | [] => []
  | [c] => [[c]]
  | c :: d :: rest =>
    if rule c d rest.head? then [c] :: cutWhere rule (d :: rest)
    else (cutWhere rule (d :: rest)).modifyHead (c :: ·)

variable {rule later : Char → Char → Option Char → Bool} {c d : Char} {cs rest : List Char}

/-- The first piece begins with the first character, and goes on with the second one unless there is
a cut between the two. -/
theorem exists_cutWhere_cons (rule : Char → Char → Option Char → Bool) (c : Char) (cs : List Char) :
    ∃ piece pieces, cutWhere rule (c :: cs) = (c :: piece) :: pieces ∧
      ∀ d rest, cs = d :: rest → piece.head? = if rule c d rest.head? then none else some d := by
  induction cs generalizing c with
  | nil => exact ⟨[], [], rfl, nofun⟩
  | cons d rest ih =>
    obtain ⟨piece, pieces, hpieces, _⟩ := ih d
    rw [cutWhere, hpieces]
    by_cases hrule : rule c d rest.head? = true
    · rw [if_pos hrule]
      refine ⟨[], _, rfl, fun _ _ heq => ?_⟩
      cases heq
      rw [if_pos hrule, List.head?_nil]
    · rw [if_neg hrule]
      refine ⟨d :: piece, pieces, rfl, fun _ _ heq => ?_⟩
      cases heq
      rw [if_neg hrule, List.head?_cons]

/-- Cutting the pieces again is cutting once by both rules, if the later rule needs a character
after the cut that the earlier one does not cut off. -/
theorem flatMap_cutWhere (hnone : ∀ a b, later a b none = false)
    (hkept : ∀ a b e next, later a b (some e) = true → rule b e next = false) (cs : List Char) :
    (cutWhere rule cs).flatMap (cutWhere later) =
      cutWhere (fun a b next => rule a b next || later a b next) cs := by
  induction cs with
  | nil => rfl
  | cons c cs ih =>
    cases cs with
    | nil => rfl
    | cons d rest =>
      obtain ⟨piece, pieces, hpieces, hhead⟩ := exists_cutWhere_cons rule d rest
      rw [hpieces, List.flatMap_cons] at ih
      rw [cutWhere, hpieces, cutWhere, ← ih]
      by_cases hrule : rule c d rest.head? = true
      · simp only [hrule, if_true, Bool.true_or]
        rfl
      · -- within one piece the later rule sees the same neighbours
        have hsame : later c d piece.head? = later c d rest.head? := by
          cases rest with
          | nil =>
            obtain rfl : piece = [] := by
              rw [cutWhere] at hpieces
              cases hpieces
              rfl
            rfl
          | cons e rest =>
            rw [hhead e rest rfl, List.head?_cons]
            cases hcut : rule d e rest.head? with
            | false => rfl
            | true =>
              rw [if_pos rfl, hnone]
              cases hlater : later c d (some e) with
              | false => rfl
              | true =>
                rw [hkept c d e _ hlater] at hcut
                cases hcut
        rw [eq_false_of_ne_true hrule, if_neg Bool.false_ne_true, Bool.false_or,
          List.modifyHead_cons, List.flatMap_cons, cutWhere, hsame]
        by_cases hlater : later c d rest.head? = true
        · rw [if_pos hlater, if_pos hlater, List.cons_append]
        · obtain ⟨first, others, hfirst, _⟩ := exists_cutWhere_cons later d piece
          rw [if_neg hlater, if_neg hlater, hfirst]
          rfl

/-! ## The two passes -/

/-- Whether a capital follows a small letter or a digit. -/
def isRise (a b : Char) : Bool :=
  (isSmall a || isNumeric a) && isCapital b

/-- Whether a capital follows another one and comes before a small letter. -/
def isAcronymEnd (a b : Char) (next : Option Char) : Bool :=
  isCapital a && isCapital b && next.any isSmall

/-- Whether a word begins at a character, given the one before it and the one after it. -/
def isBoundary (a b : Char) (next : Option Char) : Bool :=
  isRise a b || isAcronymEnd a b next

theorem not_isSmall_of_isCapital (h : isCapital c = true) : isSmall c = false := by
  have hall : ∀ n < 128, isCapital (Char.ofNat n) = true → isSmall (Char.ofNat n) = false := by
    decide
  have hword : isWordChar c = true := by simp [isWordChar, h]
  exact forall_ascii (p := fun d => isCapital d = true → isSmall d = false) hall
    (toNat_lt_of_isWordChar hword) h

/-- The first pass cuts at rises. -/
theorem cutRises_eq (cs : List Char) : cutRises cs = cutWhere (fun a b _ => isRise a b) cs := by
  induction cs with
  | nil => rfl
  | cons c cs ih =>
    cases cs with
    | nil => rfl
    | cons d rest =>
      obtain ⟨piece, pieces, hpieces, _⟩ :=
        exists_cutWhere_cons (fun a b _ => isRise a b) d rest
      rw [cutRises.eq_def]
      dsimp only
      rw [ih, cutWhere, hpieces]
      rfl

/-- The second pass, when a word has been begun whose last letter is `b`: a small letter that comes
next after two capitals shows that a word begins at `b`. -/
theorem cutAcronymsFrom_cons (b : Char) (before : List Char) (capitals : Nat) (cs : List Char)
    (h : capitals = ((b :: before).takeWhile isCapital).length) :
    cutAcronymsFrom (b :: before) capitals cs =
      if 2 ≤ capitals ∧ cs.head?.any isSmall = true then
        before.reverse :: cutWhere isAcronymEnd (b :: cs)
      else (cutWhere isAcronymEnd (b :: cs)).modifyHead (before.reverse ++ ·) := by
  induction cs generalizing b before capitals with
  | nil => simp [cutAcronymsFrom, cutWhere]
  | cons c rest ih =>
    obtain ⟨piece, pieces, hpieces, _⟩ := exists_cutWhere_cons isAcronymEnd c rest
    rw [cutAcronymsFrom.eq_def]
    dsimp only
    by_cases hc : isCapital c = true
    · rw [if_pos hc, ih c (b :: before) (capitals + 1) (by simp [hc, h])]
      have hsmall := not_isSmall_of_isCapital hc
      -- there are two capitals now exactly if the letter before this one is a capital
      have hcount : 2 ≤ capitals + 1 ↔ isCapital b = true := by
        rw [h]
        by_cases hb : isCapital b = true <;> simp [hb]
      rw [cutWhere, hpieces]
      by_cases hb : isCapital b = true <;> by_cases hnext : rest.head?.any isSmall = true <;>
        simp [isAcronymEnd, hcount, hb, hc, hnext, hsmall]
    · have hnone : isAcronymEnd b c rest.head? = false := by simp [isAcronymEnd, hc]
      have hzero : ∀ word : List Char, (c :: word).takeWhile isCapital = [] := by simp [hc]
      rw [if_neg hc, cutWhere, hnone, if_neg Bool.false_ne_true, hpieces]
      by_cases hcut : 2 ≤ capitals ∧ isSmall c = true
      · rw [ih c [b] 0 (by simp [hc])]
        simp [hcut, hpieces]
      · have hcut' : (isSmall c && decide (2 ≤ capitals)) = false := by
          refine Bool.eq_false_iff.mpr fun h => hcut ?_
          rw [Bool.and_eq_true, decide_eq_true_iff] at h
          exact h.symm
        rw [hcut', if_neg Bool.false_ne_true, ih c (b :: before) 0 (by simp [hc])]
        simp [hcut, hpieces]

/-- The second pass cuts at the ends of acronyms. -/
theorem cutAcronyms_eq (cs : List Char) : cutAcronyms cs = cutWhere isAcronymEnd cs := by
  cases cs with
  | nil => rfl
  | cons c rest =>
    obtain ⟨piece, pieces, hpieces, _⟩ := exists_cutWhere_cons isAcronymEnd c rest
    rw [cutAcronyms, cutAcronymsFrom.eq_def]
    dsimp only
    split
    · rename_i hc
      rw [cutAcronymsFrom_cons c [] 1 rest (by simp [hc]), hpieces]
      simp
    · rename_i hc
      rw [cutAcronymsFrom_cons c [] 0 rest (by simp [hc]), hpieces]
      simp

/-- **A chunk is cut exactly at the boundaries in it.** -/
theorem flatMap_cutAcronyms (chunk : List Char) :
    (cutRises chunk).flatMap cutAcronyms = cutWhere isBoundary chunk := by
  rw [cutRises_eq, funext cutAcronyms_eq]
  refine flatMap_cutWhere (fun a b => by simp [isAcronymEnd]) (fun a b e _ h => ?_) chunk
  -- a small letter after the cut is no capital, so there is no rise to it
  have he : isSmall e = true := by
    simp only [isAcronymEnd, Option.any_some, Bool.and_eq_true] at h
    exact h.2
  rw [isRise, not_isCapital_of_lower (by rw [he, Bool.true_or]), Bool.and_false]

/-- **The words of a text** are its chunks, cut at the boundaries in them. -/
theorem wordChars_eq (cs : List Char) :
    wordChars cs = (chunks cs).flatMap (cutWhere isBoundary) := by
  rw [wordChars]
  exact congrArg (chunks cs).flatMap (funext flatMap_cutAcronyms)

end TypedApi.Name

/-! # Converting a name again -/

namespace TypedApi.Name

variable {a b c d : Char} {cs rest : List Char} {name : String}

/-! ## Letters and their case -/

/-- Whether a character is a letter. -/
def isLetter (c : Char) : Bool :=
  isCapital c || isSmall c

/-- A letter or digit is a capital if and only if it is neither a small letter nor a digit. -/
theorem isCapital_eq_not (h : isWordChar c = true) : isCapital c = !(isSmall c || isNumeric c) := by
  have hall : ∀ n < 128, isWordChar (Char.ofNat n) = true →
      isCapital (Char.ofNat n) = !(isSmall (Char.ofNat n) || isNumeric (Char.ofNat n)) := by
    decide
  exact forall_ascii (p := fun d => isWordChar d = true →
    isCapital d = !(isSmall d || isNumeric d)) hall (toNat_lt_of_isWordChar h) h

/-- Only small letters have another capital. -/
theorem toUpper_eq_self_iff (h : isWordChar c = true) : c.toUpper = c ↔ isSmall c = false := by
  have hall : ∀ n < 128, isWordChar (Char.ofNat n) = true →
      ((Char.ofNat n).toUpper = Char.ofNat n ↔ isSmall (Char.ofNat n) = false) := by
    decide
  exact forall_ascii (p := fun d => isWordChar d = true → (d.toUpper = d ↔ isSmall d = false)) hall
    (toNat_lt_of_isWordChar h) h

/-- Only capitals have another small letter. -/
theorem toLower_eq_self_iff (h : isWordChar c = true) : c.toLower = c ↔ isCapital c = false := by
  have hall : ∀ n < 128, isWordChar (Char.ofNat n) = true →
      ((Char.ofNat n).toLower = Char.ofNat n ↔ isCapital (Char.ofNat n) = false) := by
    decide
  exact forall_ascii (p := fun d => isWordChar d = true → (d.toLower = d ↔ isCapital d = false))
    hall (toNat_lt_of_isWordChar h) h

/-- In either case a letter stays a letter, and a digit a digit. -/
theorem isLetter_case (h : isWordChar c = true) :
    isLetter c.toUpper = isLetter c ∧ isLetter c.toLower = isLetter c := by
  have hall : ∀ n < 128, isWordChar (Char.ofNat n) = true →
      isLetter (Char.ofNat n).toUpper = isLetter (Char.ofNat n) ∧
        isLetter (Char.ofNat n).toLower = isLetter (Char.ofNat n) := by
    decide
  exact forall_ascii (p := fun d => isWordChar d = true →
    isLetter d.toUpper = isLetter d ∧ isLetter d.toLower = isLetter d) hall
    (toNat_lt_of_isWordChar h) h

/-- A capital becomes a small letter. -/
theorem isSmall_toLower_of_isCapital (h : isCapital c = true) : isSmall c.toLower = true := by
  have hall : ∀ n < 128, isCapital (Char.ofNat n) = true →
      isSmall (Char.ofNat n).toLower = true := by
    decide
  exact forall_ascii (p := fun d => isCapital d = true → isSmall d.toLower = true) hall
    (toNat_lt_of_isWordChar (by simp [isWordChar, h])) h

/-! ## Chunks -/

/-- What follows a character of a chunk, with a capital wherever a word begins and small letters
elsewhere. -/
def recaseFrom (previous : Char) : List Char → List Char
  | [] => []
  | c :: rest =>
    (if isBoundary previous c rest.head? then c.toUpper else c.toLower) :: recaseFrom c rest

/-- Whether every capital of a chunk, but for a first one, stands where a word begins. -/
def Segmented : List Char → Prop
  | a :: b :: rest => (isCapital b = true → isBoundary a b rest.head? = true) ∧ Segmented (b :: rest)
  | _ => True

/-- Words begin at capitals. -/
theorem isCapital_of_isBoundary {next : Option Char} (h : isBoundary a b next = true) :
    isCapital b = true := by
  by_contra hb
  simp [isBoundary, isRise, isAcronymEnd, hb] at h

/-- The words of a chunk, with their capitals, are the chunk with capitals at the boundaries. -/
theorem flatMap_capitalize_cutWhere (c : Char) (cs : List Char) :
    (cutWhere isBoundary (c :: cs)).flatMap capitalize = c.toUpper :: recaseFrom c cs := by
  induction cs generalizing c with
  | nil => rfl
  | cons d rest ih =>
    obtain ⟨piece, pieces, hpieces, _⟩ := exists_cutWhere_cons isBoundary d rest
    have hnext := ih d
    rw [hpieces, List.flatMap_cons, capitalize, List.cons_append, List.cons_inj_right] at hnext
    rw [cutWhere, hpieces, recaseFrom, ← hnext]
    by_cases hcut : isBoundary c d rest.head? = true
    · rw [if_pos hcut, if_pos hcut]
      rfl
    · rw [if_neg hcut, if_neg hcut]
      rfl

/-- A text of letters and digits only is one chunk. -/
theorem chunks_of_isWordChar (hne : cs ≠ []) (h : ∀ c ∈ cs, isWordChar c = true) :
    chunks cs = [cs] := by
  have hread : chunksFrom [] cs = chunksFrom cs.reverse [] := by
    simpa using @chunksFrom_append [] cs [] h
  rw [chunks, hread, chunksFrom_nil (by simpa using hne), List.reverse_reverse]

/-- A name that is one chunk, in words. -/
theorem toList_upperCamel_of_chunk (hname : name.toList = c :: rest)
    (hword : ∀ d ∈ c :: rest, isWordChar d = true) :
    (upperCamel name).toList = c.toUpper :: recaseFrom c rest := by
  rw [upperCamel, String.toList_ofList, wordChars_eq, hname,
    chunks_of_isWordChar (List.cons_ne_nil _ _) hword, List.flatMap_singleton,
    flatMap_capitalize_cutWhere]

/-- A chunk keeps its capitals and its small letters exactly if it is segmented. -/
theorem recaseFrom_eq_self_iff (hword : ∀ d ∈ rest, isWordChar d = true) :
    recaseFrom c rest = rest ↔ Segmented (c :: rest) := by
  induction rest generalizing c with
  | nil => exact iff_of_true rfl trivial
  | cons d rest ih =>
    obtain ⟨hd, hrest⟩ := List.forall_mem_cons.mp hword
    rw [recaseFrom, List.cons.injEq, ih hrest, Segmented]
    refine and_congr_left' ?_
    by_cases hcut : isBoundary c d rest.head? = true
    · have hcapital := isCapital_of_isBoundary hcut
      rw [if_pos hcut, toUpper_eq_self_iff hd]
      exact iff_of_true (not_isSmall_of_isCapital hcapital) fun _ => hcut
    · rw [if_neg hcut, toLower_eq_self_iff hd]
      simp [hcut]

/-- A chunk with no small letter in front keeps its form exactly if it is segmented. -/
theorem upperCamel_eq_self_iff (hname : name.toList = c :: rest)
    (hword : ∀ d ∈ c :: rest, isWordChar d = true) (hsmall : isSmall c = false) :
    upperCamel name = name ↔ Segmented (c :: rest) := by
  obtain ⟨hc, hrest⟩ := List.forall_mem_cons.mp hword
  rw [← String.toList_inj, toList_upperCamel_of_chunk hname hword, hname,
    (toUpper_eq_self_iff hc).mpr hsmall, List.cons_inj_right, recaseFrom_eq_self_iff hrest]

/-- Whether a word can begin after the second character wherever one can after the first: a small
letter or a digit stays one, and a capital stays a letter. -/
structure StandsFor (a b : Char) : Prop where
  low : (isSmall a || isNumeric a) = true → (isSmall b || isNumeric b) = true
  letter : isCapital a = true → isLetter b = true

/-- **What has been converted is segmented.** -/
theorem segmented_recaseFrom (h : StandsFor a b) (hword : ∀ d ∈ rest, isWordChar d = true) :
    Segmented (b :: recaseFrom a rest) := by
  induction rest generalizing a b with
  | nil => trivial
  | cons c rest ih =>
    obtain ⟨hc, hrest⟩ := List.forall_mem_cons.mp hword
    rw [recaseFrom, Segmented]
    by_cases hcut : isBoundary a c rest.head? = true
    · have hcapital := isCapital_of_isBoundary hcut
      have hkept := (toUpper_eq_self_iff hc).mpr (not_isSmall_of_isCapital hcapital)
      rw [if_pos hcut, hkept]
      refine ⟨fun _ => ?_, ih ⟨id, fun h => by simp [isLetter, h]⟩ hrest⟩
      rw [isBoundary, Bool.or_eq_true] at hcut ⊢
      rcases hcut with hrise | hacronym
      · rw [isRise, Bool.and_eq_true] at hrise
        exact .inl (by rw [isRise, h.low hrise.1, hcapital]; rfl)
      · simp only [isAcronymEnd, Bool.and_eq_true] at hacronym
        obtain ⟨⟨ha, _⟩, hnext⟩ := hacronym
        -- the small letter after the capital stays small
        have hnext' : (recaseFrom c rest).head?.any isSmall = true := by
          cases rest with
          | nil => cases hnext
          | cons e rest =>
            have he : isSmall e = true := hnext
            have hlower : isCapital e = false := not_isCapital_of_lower (by simp [he])
            have hnocut : isBoundary c e rest.head? = false := by
              simp [isBoundary, isRise, isAcronymEnd, hlower]
            rw [recaseFrom, hnocut, if_neg Bool.false_ne_true, List.head?_cons, Option.any_some,
              toLower_of_lower (by simp [he]), he]
        have hb := h.letter ha
        rw [isLetter, Bool.or_eq_true] at hb
        rcases hb with hb | hb
        · exact .inr (by simp [isAcronymEnd, hb, hcapital, hnext'])
        · exact .inl (by simp [isRise, hb, hcapital])
    · rw [if_neg hcut]
      refine ⟨fun hcapital => ?_, ih ⟨fun hlow => ?_, fun hcapital => ?_⟩ hrest⟩
      · rw [not_isCapital_of_lower (lower_toLower hc)] at hcapital
        cases hcapital
      · rw [toLower_of_lower hlow]
        exact hlow
      · rw [isLetter, isSmall_toLower_of_isCapital hcapital, Bool.or_true]

/-- A converted chunk has letters and digits only. -/
theorem isWordChar_of_mem_recaseFrom (hword : ∀ d ∈ rest, isWordChar d = true) :
    ∀ d ∈ recaseFrom c rest, isWordChar d = true := by
  induction rest generalizing c with
  | nil => nofun
  | cons d rest ih =>
    obtain ⟨hd, hrest⟩ := List.forall_mem_cons.mp hword
    rw [recaseFrom]
    refine List.forall_mem_cons.mpr ⟨?_, ih hrest⟩
    split
    · exact (isWordChar_case hd).1
    · exact (isWordChar_case hd).2

/-- **A chunk with no small letter in front needs to be converted once only.** -/
theorem upperCamel_upperCamel_of_chunk (hword : ∀ d ∈ name.toList, isWordChar d = true)
    (hsmall : ∀ d ∈ name.toList.head?, isSmall d = false) :
    upperCamel (upperCamel name) = upperCamel name := by
  cases hname : name.toList with
  | nil =>
    obtain rfl : name = "" := by rwa [← String.toList_inj]
    rfl
  | cons c rest =>
    rw [hname] at hword hsmall
    obtain ⟨hc, hrest⟩ := List.forall_mem_cons.mp hword
    have hkept := (toUpper_eq_self_iff hc).mpr (hsmall c rfl)
    have hchunk := toList_upperCamel_of_chunk hname hword
    rw [hkept] at hchunk
    refine (upperCamel_eq_self_iff hchunk ?_ (hsmall c rfl)).mpr ?_
    · exact List.forall_mem_cons.mpr ⟨hc, isWordChar_of_mem_recaseFrom hrest⟩
    · exact segmented_recaseFrom ⟨id, fun h => by simp [isLetter, h]⟩ hrest

/-! ## Words that run together -/

/-- Whether two words become one when they are put together: the first one is a single letter, and
the second one begins with a letter and does not go on with another. -/
def runsInto (v w : List Char) : Bool :=
  match v, w with
  | [a], b :: rest => isLetter a && isLetter b && !rest.head?.any isLetter
  | _, _ => false

/-- A word with a capital or a digit first, and small letters and digits after it. -/
structure Titled (w : List Char) : Prop where
  nonempty : w ≠ []
  word : ∀ c ∈ w, isWordChar c = true
  head : ∀ c ∈ w.head?, isSmall c = false
  tail : ∀ c ∈ w.tail, isCapital c = false

/-- A word of a name is so once it is capitalized. -/
theorem titled_capitalize {w : List Char} (hne : w ≠ []) (hword : ∀ c ∈ w, isWordChar c = true) :
    Titled (capitalize w) := by
  cases w with
  | nil => exact absurd rfl hne
  | cons c rest =>
    obtain ⟨hc, hrest⟩ := List.forall_mem_cons.mp hword
    refine ⟨List.cons_ne_nil _ _, ?_, fun d hd => ?_, ?_⟩
    · refine List.forall_mem_cons.mpr ⟨(isWordChar_case hc).1, List.forall_mem_map.mpr ?_⟩
      exact fun d hd => (isWordChar_case (hrest d hd)).2
    · cases hd
      exact isSmall_toUpper c
    · refine List.forall_mem_map.mpr fun d hd => ?_
      exact not_isCapital_of_lower (lower_toLower (hrest d hd))

/-- Words run together with their capitals as they do without. -/
theorem runsInto_capitalize {v w : List Char} (hv : ∀ c ∈ v, isWordChar c = true)
    (hw : ∀ c ∈ w, isWordChar c = true) :
    runsInto (capitalize v) (capitalize w) = runsInto v w := by
  rcases v with _ | ⟨a, _ | ⟨a', v⟩⟩ <;> try rfl
  cases w with
  | nil => rfl
  | cons b rest =>
    obtain ⟨hb, hrest⟩ := List.forall_mem_cons.mp hw
    have hnext : (rest.map Char.toLower).head?.any isLetter = rest.head?.any isLetter := by
      cases rest with
      | nil => rfl
      | cons c rest => exact (isLetter_case (hrest c List.mem_cons_self)).2
    simp only [capitalize, List.map_nil, runsInto, hnext,
      (isLetter_case (hv a List.mem_cons_self)).1, (isLetter_case hb).1]

/-- A chunk that begins with a word is segmented if the rest is, and if the rest does not begin with
a capital that is no boundary. -/
theorem segmented_append {w : List Char} (hw : ∀ d ∈ w, isCapital d = false) :
    Segmented (a :: (w ++ b :: rest)) ↔
      (isCapital b = true → isBoundary (w.getLastD a) b rest.head? = true) ∧
        Segmented (b :: rest) := by
  induction w generalizing a with
  | nil => rw [List.nil_append, Segmented, List.getLastD_nil]
  | cons d w ih =>
    obtain ⟨hd, hw⟩ := List.forall_mem_cons.mp hw
    rw [List.cons_append, Segmented, ih hw, List.getLastD_cons]
    refine and_iff_right fun hcapital => ?_
    rw [hd] at hcapital
    cases hcapital

/-- A word alone is segmented. -/
theorem segmented_of_tail {w : List Char} (hw : ∀ d ∈ w, isCapital d = false) :
    Segmented (a :: w) := by
  induction w generalizing a with
  | nil => trivial
  | cons d w ih =>
    obtain ⟨hd, hw⟩ := List.forall_mem_cons.mp hw
    exact ⟨fun hcapital => absurd (hd.symm.trans hcapital) Bool.false_ne_true, ih hw⟩

/-- The capital of a second word is a boundary unless the two words run together. What comes after
them does not begin with a small letter. -/
theorem isBoundary_iff_of_titled {v w : List Char} (hv : Titled (a :: v)) (hw : Titled (b :: w))
    (hrest : ∀ d ∈ rest.head?, isSmall d = false) :
    (isCapital b = true → isBoundary (v.getLastD a) b (w ++ rest).head? = true) ↔
      runsInto (a :: v) (b :: w) = false := by
  have hb := isCapital_eq_not (hw.word b List.mem_cons_self)
  have hbsmall : isSmall b = false := hw.head b rfl
  have hasmall : isSmall a = false := hv.head a rfl
  cases v with
  | nil =>
    have ha := isCapital_eq_not (hv.word a List.mem_cons_self)
    have hnext : (w ++ rest).head?.any isSmall = w.head?.any isLetter := by
      cases w with
      | nil =>
        cases rest with
        | nil => rfl
        | cons e rest => exact hrest e rfl
      | cons e w =>
        have he : isCapital e = false := hw.tail e List.mem_cons_self
        simp [isLetter, he]
    rw [List.getLastD_nil, isBoundary, isRise, isAcronymEnd, runsInto, hnext]
    cases hnumeric : isNumeric a <;> cases hbnumeric : isNumeric b <;>
      simp [isLetter, ha, hb, hasmall, hbsmall, hnumeric, hbnumeric]
  | cons d v =>
    -- a longer word ends with a small letter or a digit
    have hlow : (isSmall (v.getLastD d) || isNumeric (v.getLastD d)) = true := by
      have hmem : v.getLastD d ∈ d :: v := List.getLastD_mem_cons
      have hlast := isCapital_eq_not (hv.word _ (List.mem_cons_of_mem _ hmem))
      rwa [hv.tail _ hmem, eq_comm, Bool.not_eq_false'] at hlast
    rw [List.getLastD_cons]
    exact iff_of_true (fun hcapital => by rw [isBoundary, isRise, hlow, hcapital]; rfl) rfl

/-- **Words that are put together are segmented** exactly if no two of them run together. -/
theorem segmented_flatten_iff {ws : List (List Char)} (h : ∀ w ∈ ws, Titled w) :
    Segmented ws.flatten ↔ ws.IsChain fun v w => runsInto v w = false := by
  induction ws with
  | nil => exact iff_of_true trivial .nil
  | cons v ws ih =>
    obtain ⟨hv, hws⟩ := List.forall_mem_cons.mp h
    obtain ⟨a, v, rfl⟩ := List.exists_cons_of_ne_nil hv.nonempty
    cases ws with
    | nil =>
      rw [List.flatten_cons, List.flatten_nil, List.append_nil]
      exact iff_of_true (segmented_of_tail hv.tail) (.singleton _)
    | cons w ws =>
      obtain ⟨hw, hrest⟩ := List.forall_mem_cons.mp hws
      obtain ⟨b, w, rfl⟩ := List.exists_cons_of_ne_nil hw.nonempty
      have hnext : ∀ d ∈ ws.flatten.head?, isSmall d = false := by
        cases ws with
        | nil => nofun
        | cons u ws =>
          have hu := hrest u List.mem_cons_self
          obtain ⟨c, u, rfl⟩ := List.exists_cons_of_ne_nil hu.nonempty
          exact hu.head
      rw [List.isChain_cons_cons, ← ih hws, ← isBoundary_iff_of_titled hv hw hnext]
      exact segmented_append hv.tail

/-- **Converting a name again changes nothing** exactly if no two words of the name run together: none
of them is a single letter before a word that begins with a letter and does not go on with another.
On a name that has been converted twice it changes nothing at all. -/
theorem upperCamel_upperCamel_iff (name : String) :
    (upperCamel (upperCamel name) = upperCamel name ↔
      (wordChars name.toList).IsChain fun v w => runsInto v w = false) ∧
    upperCamel (upperCamel (upperCamel name)) = upperCamel (upperCamel name) := by
  have hword : ∀ d ∈ (upperCamel name).toList, isWordChar d = true :=
    fun d => isWordChar_of_mem_upperCamel
  have hhead : ∀ d ∈ (upperCamel name).toList.head?, isSmall d = false := by
    intro d hd
    have hproper := (proper_upperCamel name).head
    rwa [List.headD_eq_head?_getD, hd] at hproper
  refine ⟨?_, upperCamel_upperCamel_of_chunk hword hhead⟩
  -- the words of the name, with their capitals, are what the second conversion has to find again
  have hwords : ∀ w ∈ wordChars name.toList, w ≠ [] ∧ ∀ c ∈ w, isWordChar c = true :=
    fun w hw => ⟨ne_nil_of_mem_wordChars hw, fun c => isWordChar_of_mem_wordChars hw⟩
  have htitled : ∀ w ∈ (wordChars name.toList).map capitalize, Titled w :=
    List.forall_mem_map.mpr fun w hw => titled_capitalize (hwords w hw).1 (hwords w hw).2
  have hchain : ((wordChars name.toList).map capitalize).IsChain (fun v w => runsInto v w = false) ↔
      (wordChars name.toList).IsChain fun v w => runsInto v w = false := by
    refine (List.isChain_map capitalize).trans (List.IsChain.iff_of_mem_imp fun v w hv hw => ?_)
    rw [runsInto_capitalize (hwords v hv).2 (hwords w hw).2]
  have hflatten : (upperCamel name).toList = ((wordChars name.toList).map capitalize).flatten := by
    rw [upperCamel, String.toList_ofList, List.flatMap_def]
  rw [← hchain, ← segmented_flatten_iff htitled, ← hflatten]
  cases hname : (upperCamel name).toList with
  | nil =>
    obtain heq : upperCamel name = "" := by rwa [← String.toList_inj]
    rw [heq]
    exact iff_of_true rfl trivial
  | cons c rest =>
    rw [hname] at hword hhead
    exact upperCamel_eq_self_iff hname hword (hhead c rfl)

/-- Two words of one letter become an acronym, and the acronym becomes one word. -/
theorem upperCamel_acronym :
    upperCamel "a b" = "AB" ∧ upperCamel (upperCamel "a b") = "Ab" ∧
      ¬∀ name, upperCamel (upperCamel name) = upperCamel name := by
  refine ⟨by decide, by decide, fun h => ?_⟩
  exact absurd (h "a b") (by decide)

end TypedApi.Name
