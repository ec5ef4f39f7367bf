import TypedApi.Proofs.Name.Identifier
/-!
Plain names.

A name is plain if it is made of ASCII letters, digits and underscores. Names in
words are plain, and putting names together, escaping them and counting them up
keeps them so. A plain name that is safe is an identifier: the check that a safe
name starts with no digit is all that it lacks.

A plain name is proper if it does not begin with a small letter either. The names
that a generated module makes for types are proper, which keeps them apart from
the types that the generated language has itself.
-/

set_option autoImplicit false

namespace TypedApi.Name

/-- A name of ASCII letters, digits and underscores. -/
def Plain (name : String) : Prop :=
  ∀ c ∈ name.toList, isWordChar c = true ∨ c = '_'

instance (name : String) : Decidable (Plain name) :=
  List.decidableBAll (fun c => isWordChar c = true ∨ c = '_') name.toList

/-- A plain name that does not begin with a small letter. -/
structure Proper (name : String) : Prop where
  plain : Plain name
  head : isSmall (name.toList.headD '_') = false

instance (name : String) : Decidable (Proper name) :=
  decidable_of_iff (Plain name ∧ isSmall (name.toList.headD '_') = false)
    ⟨fun h => ⟨h.1, h.2⟩, fun h => ⟨h.plain, h.head⟩⟩

variable {a b name : String}

/-! ## What is plain -/

theorem Plain.append (ha : Plain a) (hb : Plain b) : Plain (a ++ b) := by
  intro c hc
  rw [String.toList_append] at hc
  rcases List.mem_append.mp hc with hc | hc
  · exact ha c hc
  · exact hb c hc

/-- A name in words is plain. -/
theorem plain_upperCamel (name : String) : Plain (upperCamel name) :=
  fun _ hc => .inl (isWordChar_of_mem_upperCamel hc)

/-- What stands between is one of the elements or the separator. -/
theorem mem_intercalate {α : Type} {separator : List α} {pieces : List (List α)} {x : α}
    (h : x ∈ List.intercalate separator pieces) :
    x ∈ separator ∨ ∃ piece ∈ pieces, x ∈ piece := by
  rw [List.intercalate, List.mem_flatten] at h
  obtain ⟨piece, hpiece, hx⟩ := h
  -- the pieces and the separator alternate
  have hmem : ∀ l : List (List α), piece ∈ l.intersperse separator →
      piece = separator ∨ piece ∈ l := by
    intro l
    induction l with
    | nil => simp
    | cons first rest ih =>
      cases rest with
      | nil => simp +contextual
      | cons second rest =>
        rw [List.intersperse_cons_cons, List.mem_cons, List.mem_cons]
        rintro (h | h | h)
        · exact .inr (h ▸ List.mem_cons_self)
        · exact .inl h
        · rcases ih h with h | h
          · exact .inl h
          · exact .inr (List.mem_cons_of_mem _ h)
  rcases hmem pieces hpiece with rfl | hpiece
  · exact .inl hx
  · exact .inr ⟨piece, hpiece, hx⟩

/-- A name in lower-case words is plain. -/
theorem plain_snake (name : String) : Plain (snake name) := by
  intro c hc
  rw [snake, String.toList_ofList] at hc
  rcases mem_intercalate hc with hc | ⟨word, hword, hc⟩
  · exact .inr (List.mem_singleton.mp hc)
  · obtain ⟨letters, hletters, rfl⟩ := List.mem_map.mp hword
    obtain ⟨d, hd, rfl⟩ := List.mem_map.mp hc
    exact .inl (isWordChar_case (isWordChar_of_mem_wordChars hletters hd)).2

theorem Plain.escape (h : Plain name) : Plain (escape name) := by
  unfold Name.escape
  split
  · decide
  · extract_lets started
    have hstarted : Plain started := by
      simp only [started]
      split
      · exact .append (by decide) h
      · exact h
    clear_value started
    split
    · exact hstarted.append (by decide)
    · exact hstarted

/-- A counter has digits only. -/
theorem isNumeric_of_mem_toString {n : Nat} {c : Char} (hc : c ∈ (toString n).toList) :
    isNumeric c = true := by
  have hmem : c ∈ Nat.toDigits 10 n := by
    simpa only [toString, Nat.toList_repr] using hc
  have hdigit := Nat.isDigit_of_mem_toDigits (by decide) (by decide) hmem
  simpa [isNumeric, Char.isDigit, Char.le_def] using hdigit

theorem plain_toString (n : Nat) : Plain (toString n) := by
  intro c hc
  refine .inl ?_
  rw [isWordChar, Bool.or_eq_true]
  exact .inr (isNumeric_of_mem_toString hc)

theorem Plain.deconflict (h : Plain name) (taken : List String) :
    Plain (deconflict name taken) := by
  rw [Name.deconflict]
  split
  · obtain ⟨n, hn⟩ := exists_firstFree_eq taken (Name.escape name) 1 taken.length
    rw [hn]
    exact h.escape.append (plain_toString n)
  · exact h.escape

/-! ## What is proper -/

/-- Nothing is a small letter once it is a capital. -/
theorem isSmall_toUpper (c : Char) : isSmall c.toUpper = false := by
  by_cases h : isSmall c = true
  · have hall : ∀ n < 128, isSmall (Char.ofNat n) = true →
        isSmall (Char.ofNat n).toUpper = false := by
      decide
    exact forall_ascii (p := fun d => isSmall d = true → isSmall d.toUpper = false) hall
      (toNat_lt_of_isWordChar (by simp [isWordChar, h])) h
  · have hkept : c.toUpper = c := by
      refine dif_neg fun hsmall => ?_
      rw [isSmall, Bool.and_eq_true, decide_eq_true_eq, decide_eq_true_eq] at h
      exact h hsmall
    rw [hkept]
    simpa using h

/-- A name in words with capitals is proper. -/
theorem proper_upperCamel (name : String) : Proper (upperCamel name) := by
  refine ⟨plain_upperCamel name, ?_⟩
  rw [upperCamel, String.toList_ofList]
  induction wordChars name.toList with
  | nil => rfl
  | cons word words ih =>
    cases word with
    | nil => exact ih
    | cons c rest => exact isSmall_toUpper c

theorem Proper.append (ha : Proper a) (hb : Proper b) : Proper (a ++ b) := by
  refine ⟨ha.plain.append hb.plain, ?_⟩
  have hhead := ha.head
  rw [String.toList_append]
  cases htext : a.toList with
  | nil => exact hb.head
  | cons c rest =>
    rw [htext] at hhead
    exact hhead

theorem Proper.escape (h : Proper name) : Proper (escape name) := by
  unfold Name.escape
  split
  · decide
  · extract_lets started
    have hstarted : Proper started := by
      simp only [started]
      split
      · exact .append (by decide) h
      · exact h
    clear_value started
    split
    · exact hstarted.append (by decide)
    · exact hstarted

theorem proper_toString (n : Nat) : Proper (toString n) := by
  refine ⟨plain_toString n, ?_⟩
  cases htext : (toString n).toList with
  | nil => rfl
  | cons c rest =>
    have hc : c ∈ (toString n).toList := htext ▸ List.mem_cons_self
    have hnumeric := isNumeric_of_mem_toString hc
    have hall : ∀ n < 128, isNumeric (Char.ofNat n) = true → isSmall (Char.ofNat n) = false := by
      decide
    exact forall_ascii (p := fun d => isNumeric d = true → isSmall d = false) hall
      (toNat_lt_of_isWordChar (by simp [isWordChar, hnumeric])) hnumeric

theorem Proper.deconflict (h : Proper name) (taken : List String) :
    Proper (deconflict name taken) := by
  rw [Name.deconflict]
  split
  · obtain ⟨n, hn⟩ := exists_firstFree_eq taken (Name.escape name) 1 taken.length
    rw [hn]
    exact h.escape.append (proper_toString n)
  · exact h.escape

/-! ## Identifiers -/

instance (name : String) : Decidable (IsIdentifier name) :=
  match h : name.toList with
  | [] => isFalse (by
      rintro ⟨c, rest, hname, _⟩
      cases h.symm.trans hname)
  | c :: rest =>
    let _ : Decidable (∀ d ∈ rest, isWordChar d = true ∨ d = '_') :=
      List.decidableBAll (fun d => isWordChar d = true ∨ d = '_') rest
    decidable_of_iff (((isCapital c || isSmall c) = true ∨ c = '_') ∧
        ∀ d ∈ rest, isWordChar d = true ∨ d = '_')
      ⟨fun hc => ⟨c, rest, h, hc⟩, by
        rintro ⟨d, tail, hname, hd⟩
        cases h.symm.trans hname
        exact hd⟩

/-- An identifier is plain. -/
theorem IsIdentifier.plain (h : IsIdentifier name) : Plain name := by
  obtain ⟨c, rest, hname, hfirst, hrest⟩ := h
  intro d hd
  rw [hname] at hd
  rcases List.mem_cons.mp hd with rfl | hd
  · rcases hfirst with hfirst | hfirst
    · exact .inl (by rw [isWordChar, hfirst]; rfl)
    · exact .inr hfirst
  · exact hrest d hd

/-- A plain name that is safe is an identifier. -/
theorem Plain.isIdentifier (h : Plain name) (hsafe : Safe name) : IsIdentifier name := by
  obtain ⟨c, rest, hname, hdigit⟩ := hsafe.start
  rw [Plain, hname] at h
  refine ⟨c, rest, hname, ?_, fun d hd => h d (List.mem_cons_of_mem _ hd)⟩
  rcases h c List.mem_cons_self with hc | hc
  · exact .inl (isLetter_of_isWordChar hc hdigit)
  · exact .inr hc

/-- **A plain name made free is an identifier that is not reserved.** -/
theorem Plain.isIdentifier_deconflict (h : Plain name) (taken : List String) :
    IsIdentifier (Name.deconflict name taken) ∧ isReserved (Name.deconflict name taken) = false :=
  have hsafe := safe_deconflict name taken
  ⟨(h.deconflict taken).isIdentifier hsafe, hsafe.free⟩

end TypedApi.Name
