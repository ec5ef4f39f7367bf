import TypedApi.Proofs.Document.Fields
import TypedApi.Settings.Layer
/-!
Documents that are laid over each other.

A path of keys leads through objects. What it leads to in a document with another
laid over it is what it leads to in the upper one, laid over what it leads to in the
lower one. Where the upper one lacks a key, at whatever depth, the lower one shows;
only a value that is no object covers what is below it.
-/

set_option autoImplicit false

namespace TypedApi.Document

variable {below above x : Document} {key : String} {path : List String}
  {base fields : List (Document × Document)}

/-- What a path of keys leads to. -/
def along? (d : Document) (path : List String) : Option Document :=
  path.foldlM find? d

theorem along?_cons (d : Document) (key : String) (path : List String) :
    d.along? (key :: path) = (d.find? key).bind fun x => x.along? path := rfl

/-- What is an object has fields. -/
theorem exists_fields_of_isObject (h : x.isObject = true) : ∃ fields, x = .object fields := by
  cases x <;> first | exact ⟨_, rfl⟩ | cases h

/-- A value laid over another, where either may be missing. -/
def laid : Option Document → Option Document → Option Document
  | below, none => below
  | none, some above => some above
  | some below, some above => some (below.layer above)

@[simp] theorem laid_none (below : Option Document) : laid below none = below := by
  cases below <;> rfl

/-- Over no value, and over another one if it is no object, a value stands as it is. -/
theorem laid_of_not_isObject (below : Option Document) (h : above.isObject = false) :
    laid below (some above) = some above := by
  cases below with
  | none => rfl
  | some below => cases below <;> cases above <;> first | rfl | cases h

/-- A value covers all that is no object. -/
theorem layer_of_not_isObject (h : below.isObject = false) : below.layer above = above := by
  cases below <;> first | rfl | cases h

/-- An object stays one under an object. -/
theorem isObject_laid {b : Option Document} (h : laid b (some above) = some x)
    (habove : above.isObject = true) : x.isObject = true := by
  obtain ⟨fields, rfl⟩ := exists_fields_of_isObject habove
  cases b with
  | none =>
    cases h
    rfl
  | some below =>
    cases h
    cases below <;> rfl

/-- What a field was is what is found under its key. -/
theorem find?_same_text (base : List (Document × Document)) (key : String) :
    (base.find? fun p => p.1.same (.text key)).map Prod.snd = lookup? key base := by
  induction base with
  | nil => rfl
  | cons p rest ih =>
    obtain ⟨k, y⟩ := p
    have hsame : k.same (.text key) = k.isText key := by
      cases k <;> simp [same, integer?, isText]
    rw [List.find?_cons, hsame, lookup?]
    cases k.isText key with
    | true => rfl
    | false => exact ih

/-- A value under a key is laid over what was there. -/
theorem overlayValue_text (base : List (Document × Document)) (key : String) (x : Document) :
    some (overlayValue base (.text key) x) = laid (lookup? key base) (some x) := by
  cases hobject : x.isObject with
  | false =>
    rw [laid_of_not_isObject _ hobject]
    cases x <;> first | rfl | cases hobject
  | true =>
    obtain ⟨fields, rfl⟩ := exists_fields_of_isObject hobject
    rw [← find?_same_text, overlayValue]
    cases hfound : base.find? fun p => p.1.same (.text key) with
    | none => rfl
    | some p =>
      obtain ⟨k, y⟩ := p
      cases y <;> rfl

/-- The first of some fields with distinct texts as keys, and the others. -/
theorem areTextKeyed_cons {k : Document} (h : areTextKeyed ((k, x) :: fields) = true) :
    ∃ key, k = .text key ∧ lookup? key fields = none ∧ areTextKeyed fields = true := by
  obtain ⟨key, hkey⟩ := exists_text_of_areTextKeyed h List.mem_cons_self
  obtain rfl : k = .text key := hkey
  have hkeys : textKeys ((.text key, x) :: fields) = some key :: textKeys fields := rfl
  rw [areTextKeyed, hkeys, Bool.and_eq_true, Bool.not_eq_true', List.contains_eq_mem,
    decide_eq_false_iff_not, List.mem_cons, not_or, decide_eq_true_eq, List.nodup_cons] at h
  obtain ⟨⟨_, hnone⟩, hnew, hnodup⟩ := h
  refine ⟨key, rfl, Option.eq_none_iff_forall_ne_some.mpr fun y hy => hnew ?_, ?_⟩
  · exact List.mem_map_of_mem (f := fun p : Document × Document => p.1.text?) (mem_of_lookup? hy)
  · rw [areTextKeyed, Bool.and_eq_true, Bool.not_eq_true', List.contains_eq_mem,
      decide_eq_false_iff_not, decide_eq_true_eq]
    exact ⟨hnone, hnodup⟩

/-- **A key of an object that is laid over another** has its value laid over the one below. -/
theorem lookup?_overlay (h : areTextKeyed fields = true) :
    lookup? key (overlay base fields) = laid (lookup? key base) (lookup? key fields) := by
  induction fields generalizing base with
  | nil => rw [overlay, lookup?, laid_none]
  | cons p rest ih =>
    obtain ⟨k, y⟩ := p
    obtain ⟨other, rfl, hrest, hkeyed⟩ := areTextKeyed_cons h
    rw [overlay, ih hkeyed, lookup?_putField, lookup?, isText]
    by_cases hkey : other = key
    · subst hkey
      rw [if_pos rfl, hrest, laid_none, overlayValue_text]
      simp
    · simp [hkey]

theorem find?_layer (habove : above.isObject = true) (hkeys : above.hasTextKeys = true) :
    (below.layer above).find? key = laid (below.find? key) (above.find? key) := by
  obtain ⟨fields, rfl⟩ := exists_fields_of_isObject habove
  rw [hasTextKeys, Bool.and_eq_true] at hkeys
  cases hbelow : below.isObject with
  | true =>
    obtain ⟨base, rfl⟩ := exists_fields_of_isObject hbelow
    exact lookup?_overlay hkeys.1
  | false =>
    have hnone : below.find? key = none := by
      cases below <;> first | rfl | cases hbelow
    rw [layer_of_not_isObject hbelow, hnone]
    cases (object fields).find? key <;> rfl

/-- What is found in a document with distinct texts as keys is such a document. -/
theorem hasTextKeys_of_find? (h : below.hasTextKeys = true) (hx : below.find? key = some x) :
    x.hasTextKeys = true := by
  obtain ⟨fields, rfl⟩ := exists_fields_of_find? hx
  rw [hasTextKeys, Bool.and_eq_true] at h
  exact hasTextKeys_of_lookup? h.2 hx

/-- **A path through a document that is laid over another** leads to what it leads to in the upper
one, laid over what it leads to in the lower one, if it goes through objects in the upper one. -/
theorem along?_layer (hkeys : above.hasTextKeys = true)
    (hobjects : ∀ front rest y, path = front ++ rest → rest ≠ [] → above.along? front = some y →
      y.isObject = true) :
    (below.layer above).along? path = laid (below.along? path) (above.along? path) := by
  induction path generalizing below above with
  | nil => rfl
  | cons key path ih =>
    have habove := hobjects [] (key :: path) above rfl (List.cons_ne_nil _ _) rfl
    rw [along?_cons, along?_cons, along?_cons, find?_layer habove hkeys]
    cases hx : above.find? key with
    | none => rw [laid_none, Option.bind_none, laid_none]
    | some y =>
      have hnext : ∀ front rest z, path = front ++ rest → rest ≠ [] → y.along? front = some z →
          z.isObject = true := by
        intro front rest z hpath hrest hz
        refine hobjects (key :: front) rest z (by rw [hpath]; rfl) hrest ?_
        rw [along?_cons, hx]
        exact hz
      cases hb : below.find? key with
      | none =>
        rw [Option.bind_none, laid, Option.bind_some]
        cases y.along? path <;> rfl
      | some b =>
        rw [laid, Option.bind_some, Option.bind_some, Option.bind_some]
        exact ih (hasTextKeys_of_find? hkeys hx) hnext

end TypedApi.Document
