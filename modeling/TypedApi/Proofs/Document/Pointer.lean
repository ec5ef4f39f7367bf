import TypedApi.Document.Pointer
import Mathlib.Tactic.Common
/-!
References and the keys that they are made of.

A key is written into a reference with its tildes and slashes escaped, and
reading the reference gives the key back whatever it holds: escaping leaves no
slash, so the path splits where its segments were joined, and unescaping undoes
it. A key without tildes and slashes is written as it is.
-/

set_option autoImplicit false

namespace TypedApi

/-! ## Escaping -/

namespace Document

/-- A text after the first of the two passes that undo escaping: slashes are back, tildes are not. -/
def halfEscaped (cs : List Char) : List Char :=
  cs.flatMap fun c => if c = '~' then ['~', '0'] else [c]

/-- A character that is no tilde begins no escape. -/
theorem replaceEscape_cons_of_ne {digit character c : Char} {rest : List Char} (h : c ≠ '~') :
    replaceEscape digit character (c :: rest) = c :: replaceEscape digit character rest := by
  rw [replaceEscape.eq_def]
  split
  · contradiction
  · rename_i heq
    cases heq
    exact absurd rfl h
  · rename_i heq
    cases heq
    rfl

/-- An escape for another digit is left as it is. -/
theorem replaceEscape_cons_other {digit character c : Char} {rest : List Char} (h : c ≠ digit) :
    replaceEscape digit character ('~' :: c :: rest) =
      '~' :: replaceEscape digit character (c :: rest) := by
  rw [replaceEscape, if_neg h]

/-- The first pass brings the slashes back. -/
theorem replaceEscape_escapeSegment (cs : List Char) :
    replaceEscape '1' '/' (escapeSegment cs) = halfEscaped cs := by
  induction cs with
  | nil => rfl
  | cons c cs ih =>
    simp only [escapeSegment, halfEscaped, List.flatMap_cons] at ih ⊢
    by_cases htilde : c = '~'
    · subst htilde
      simp only [if_true, List.cons_append, List.nil_append]
      rw [replaceEscape_cons_other (by decide), replaceEscape_cons_of_ne (by decide), ih]
    · by_cases hslash : c = '/'
      · subst hslash
        simp only [htilde, if_false, if_true, List.cons_append, List.nil_append]
        rw [replaceEscape, if_pos rfl, ih]
      · simp only [htilde, hslash, if_false, List.cons_append, List.nil_append]
        rw [replaceEscape_cons_of_ne htilde, ih]

/-- The second pass brings the tildes back. -/
theorem replaceEscape_halfEscaped (cs : List Char) :
    replaceEscape '0' '~' (halfEscaped cs) = cs := by
  induction cs with
  | nil => rfl
  | cons c cs ih =>
    simp only [halfEscaped, List.flatMap_cons] at ih ⊢
    by_cases htilde : c = '~'
    · subst htilde
      simp only [if_true, List.cons_append, List.nil_append]
      rw [replaceEscape, if_pos rfl, ih]
    · simp only [htilde, if_false, List.cons_append, List.nil_append]
      rw [replaceEscape_cons_of_ne htilde, ih]

/-- Unescaping undoes escaping. -/
theorem unescapeSegment_escapeSegment (cs : List Char) :
    unescapeSegment (escapeSegment cs) = cs := by
  rw [unescapeSegment, replaceEscape_escapeSegment, replaceEscape_halfEscaped]

/-- An escaped text holds no slash. -/
theorem slash_not_mem_escapeSegment (cs : List Char) : '/' ∉ escapeSegment cs := by
  intro h
  obtain ⟨c, _, hc⟩ := List.mem_flatMap.mp h
  split at hc
  · simp at hc
  · split at hc
    · simp at hc
    · rename_i hslash
      exact hslash (List.mem_singleton.mp hc).symm

/-- A text without tildes and slashes is its own escaped form. -/
theorem escapeSegment_of_plain {cs : List Char} (htilde : '~' ∉ cs) (hslash : '/' ∉ cs) :
    escapeSegment cs = cs := by
  induction cs with
  | nil => rfl
  | cons c cs ih =>
    rw [List.mem_cons, not_or] at htilde hslash
    rw [escapeSegment, List.flatMap_cons, if_neg (Ne.symm htilde.1), if_neg (Ne.symm hslash.1)]
    exact congrArg (c :: ·) (ih htilde.2 hslash.2)

/-- A text that a pass has put no character into is as it was. -/
theorem replaceEscape_eq_self {digit character : Char} {cs : List Char}
    (h : character ∉ replaceEscape digit character cs) : replaceEscape digit character cs = cs := by
  fun_induction replaceEscape with
  | case1 => rfl
  | case2 rest ih => simp at h
  | case3 c rest hne ih => rw [ih fun hmem => h (List.mem_cons_of_mem _ hmem)]
  | case4 c rest _ ih => rw [ih fun hmem => h (List.mem_cons_of_mem _ hmem)]

/-- A text without tildes and slashes comes of no other segment than itself. -/
theorem unescapeSegment_eq_self {cs : List Char} (htilde : '~' ∉ unescapeSegment cs)
    (hslash : '/' ∉ unescapeSegment cs) : unescapeSegment cs = cs := by
  have hsecond := replaceEscape_eq_self htilde
  rw [unescapeSegment, hsecond] at hslash ⊢
  exact replaceEscape_eq_self hslash

end Document

/-! ## Splitting -/

namespace Text

theorem splitAt_ne_nil (separator : Char) (cs : List Char) : splitAt separator cs ≠ [] := by
  cases cs with
  | nil => simp [splitAt]
  | cons c cs =>
    rw [splitAt]
    split
    · simp
    · split <;> simp

/-- The pieces of a text, joined again, are the text. -/
theorem eq_of_splitAt {separator : Char} {cs piece : List Char} {pieces : List (List Char)}
    (h : splitAt separator cs = piece :: pieces) :
    cs = piece ++ pieces.flatMap (separator :: ·) := by
  induction cs generalizing piece pieces with
  | nil =>
    cases h
    rfl
  | cons c cs ih =>
    rw [splitAt] at h
    split at h
    · rename_i heq
      cases h
      cases hsplit : splitAt separator cs with
      | nil => exact absurd hsplit (splitAt_ne_nil _ _)
      | cons first rest => simp [heq, ← ih hsplit]
    · split at h
      · rename_i hsplit
        exact absurd hsplit (splitAt_ne_nil _ _)
      · rename_i first rest hsplit
        cases h
        rw [ih hsplit]
        rfl

theorem splitAt_of_not_mem {separator : Char} {cs : List Char} (h : separator ∉ cs) :
    splitAt separator cs = [cs] := by
  induction cs with
  | nil => rfl
  | cons c cs ih =>
    rw [List.mem_cons, not_or] at h
    rw [splitAt, if_neg (Ne.symm h.1), ih h.2]

theorem splitAt_append_cons {separator : Char} {cs rest : List Char} (h : separator ∉ cs) :
    splitAt separator (cs ++ separator :: rest) = cs :: splitAt separator rest := by
  induction cs with
  | nil => rw [List.nil_append, splitAt, if_pos rfl]
  | cons c cs ih =>
    rw [List.mem_cons, not_or] at h
    rw [List.cons_append, splitAt, if_neg (Ne.symm h.1), ih h.2]

end Text

/-! ## The reference to a shared schema -/

namespace Document

/-- A reference has one segment at least. -/
theorem segments?_ne_nil {reference : String} : segments? reference ≠ some [] := by
  rw [segments?]
  split
  · simp [Text.splitAt_ne_nil]
  · simp

/-- The reference to the object that holds the shared schemas can be written in one way only. -/
theorem eq_of_segments?_schemas {reference : String}
    (h : segments? reference = some ["components", "schemas"]) :
    reference = "#/components/schemas" := by
  -- neither of the two segments has a character that an escape could stand for
  have hplain : ∀ (word : String) (piece : List Char), '~' ∉ word.toList → '/' ∉ word.toList →
      String.ofList (unescapeSegment piece) = word → piece = word.toList := by
    rintro word piece htilde hslash rfl
    rw [String.toList_ofList] at htilde hslash ⊢
    exact (unescapeSegment_eq_self htilde hslash).symm
  rw [segments?] at h
  split at h
  · rename_i rest hchars
    obtain ⟨first, others, hsplit, hfirst, hothers⟩ := List.map_eq_cons_iff.mp (Option.some.inj h)
    obtain ⟨second, others, rfl, hsecond, hothers⟩ := List.map_eq_cons_iff.mp hothers
    rw [List.map_eq_nil_iff.mp hothers] at hsplit
    have hrest := Text.eq_of_splitAt hsplit
    rw [hplain _ _ (by decide +kernel) (by decide +kernel) hfirst,
      hplain _ _ (by decide +kernel) (by decide +kernel) hsecond] at hrest
    rw [hrest] at hchars
    exact String.toList_inj.mp (hchars.trans (by decide +kernel))
  · cases h

/-- The reference to the shared schema of a key, the key escaped. -/
def schemaReference (key : String) : String :=
  "#/components/schemas/" ++ String.ofList (escapeSegment key.toList)

/-- The reference to a shared schema has its key as the last segment, whatever the key holds. -/
theorem segments?_schemaReference (key : String) :
    segments? (schemaReference key) = some ["components", "schemas", key] := by
  have hbegin : "#/components/schemas/".toList =
      '#' :: '/' :: ("components".toList ++ '/' :: ("schemas".toList ++ ['/'])) := by
    decide +kernel
  have hchars : (schemaReference key).toList =
      '#' :: '/' :: ("components".toList ++ '/' :: ("schemas".toList ++
        '/' :: escapeSegment key.toList)) := by
    have hkey : (String.ofList (escapeSegment key.toList)).toList = escapeSegment key.toList :=
      String.toList_ofList
    refine (String.toList_append (s := "#/components/schemas/")).trans ?_
    rw [hbegin, hkey]
    simp only [List.cons_append, List.append_assoc, List.nil_append]
  have hsplit : Text.splitAt '/' ("components".toList ++ '/' :: ("schemas".toList ++
      '/' :: escapeSegment key.toList)) =
        ["components".toList, "schemas".toList, escapeSegment key.toList] := by
    rw [Text.splitAt_append_cons (by decide +kernel), Text.splitAt_append_cons (by decide +kernel),
      Text.splitAt_of_not_mem (slash_not_mem_escapeSegment _)]
  have hfirst : unescapeSegment "components".toList = "components".toList := by decide +kernel
  have hsecond : unescapeSegment "schemas".toList = "schemas".toList := by decide +kernel
  rw [segments?, hchars]
  simp only [hsplit, List.map_cons, List.map_nil, unescapeSegment_escapeSegment, hfirst, hsecond,
    String.ofList_toList]

/-- A key that is not among the first fields is looked up among the others. -/
theorem lookup?_append_of_none {key : String} {fields others : List (Document × Document)}
    (h : lookup? key fields = none) : lookup? key (fields ++ others) = lookup? key others := by
  induction fields with
  | nil => rfl
  | cons field fields ih =>
    obtain ⟨k, v⟩ := field
    cases hk : k.isText key with
    | true =>
      rw [lookup?, hk] at h
      cases h
    | false =>
      rw [lookup?, hk] at h
      rw [List.cons_append, lookup?, hk]
      exact ih h

/-- A step into an object with the key. -/
theorem stepInto_of_find? {reference key : String} {d value : Document}
    (h : d.find? key = some value) : stepInto reference d key = .ok value := by
  cases d with
  | object fields =>
    rw [stepInto, show lookup? key fields = some value from h]
  | _ => cases h

/-- A field that is there is read with its value. -/
theorem get?_of_find? {d value : Document} {key : String} (h : d.find? key = some value) :
    d.get? key = some value := by
  cases d with
  | object fields =>
    rw [find?] at h
    rw [get?, h, Option.getD_some]
  | _ => cases h

/-- What has a field holds. -/
theorem orElse_of_find? {d value : Document} {key : String} (h : d.find? key = some value)
    (other : Document) : d.orElse other = d := by
  cases d with
  | object fields =>
    cases fields with
    | nil => cases h
    | cons => rfl
  | _ => cases h

/-- An object without fields stands for itself, and so does every other object. -/
theorem orElse_object (fields : List (Document × Document)) :
    (object fields).orElse (.object []) = .object fields := by
  cases fields <;> rfl

/-- A field that is read as an object with fields is there, and is that object. -/
theorem find?_of_get?_orElse {d value : Document} {key : String}
    {fields : List (Document × Document)} (h : d.get? key = some value)
    (hfields : (value.orElse (.object [])).fields? = some fields) (hne : fields ≠ []) :
    d.find? key = some value ∧ value = .object fields := by
  have hholds : value.holds = true := by
    by_contra hnot
    rw [orElse, if_neg hnot] at hfields
    exact hne (Option.some.inj hfields).symm
  rw [orElse, if_pos hholds] at hfields
  refine ⟨?_, ?_⟩
  · cases d with
    | object entries =>
      simp only [get?, Option.some.injEq] at h
      rw [find?]
      cases hlookup : lookup? key entries with
      | none =>
        rw [hlookup] at h
        subst h
        cases hholds
      | some found => rw [hlookup] at h; exact congrArg some h
    | _ => cases h
  · cases value with
    | object entries => exact congrArg object (Option.some.inj hfields)
    | _ => cases hfields

/-- **The reference to a shared schema resolves to that schema**, whatever its key holds. -/
theorem resolve_schemaReference {document components schemas schema : Document} {key : String}
    (hcomponents : document.find? "components" = some components)
    (hschemas : components.find? "schemas" = some schemas)
    (hschema : schemas.find? key = some schema) :
    document.resolve (schemaReference key) = .ok schema := by
  rw [resolve, segments?_schemaReference]
  simp only [List.foldlM_cons, List.foldlM_nil, stepInto_of_find? hcomponents,
    stepInto_of_find? hschemas, stepInto_of_find? hschema, bind, Except.bind, pure, Except.pure]

/-- A key without tildes and slashes is part of its reference as it is. -/
theorem schemaReference_of_plain {key : String} (htilde : '~' ∉ key.toList)
    (hslash : '/' ∉ key.toList) : schemaReference key = "#/components/schemas/" ++ key := by
  unfold schemaReference
  rw [escapeSegment_of_plain htilde hslash, String.ofList_toList]

end Document

end TypedApi
