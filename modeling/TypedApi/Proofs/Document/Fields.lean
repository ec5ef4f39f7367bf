import TypedApi.Document.Basic
import Mathlib.Data.List.Basic
import Mathlib.Data.List.Nodup
/-!
The fields of objects.

Looking up a key, and writing one anew: a text key that is stored stands where
it stood or at the end, and every other key keeps its value.
-/

set_option autoImplicit false

namespace TypedApi.Document

/-! ## Looking up a key -/

/-- What is found under a key is one of the fields. -/
theorem mem_of_lookup? {fields : List (Document × Document)} {key : String} {x : Document}
    (h : lookup? key fields = some x) : (.text key, x) ∈ fields := by
  induction fields with
  | nil => cases h
  | cons q rest ih =>
    obtain ⟨k, y⟩ := q
    rw [lookup?] at h
    split at h
    · rename_i hk
      obtain rfl : k = .text key := by
        cases k <;> simp_all [isText]
      cases h
      exact List.mem_cons_self
    · exact List.mem_cons_of_mem _ (ih h)

/-- Where there is no object, no field is found either. -/
theorem getD_get? (d : Document) (key : String) :
    (d.get? key).getD .null = (d.find? key).getD .null := by
  cases d <;> rfl

/-- A field that is read with a value other than null is there. -/
theorem find?_of_get? {d x : Document} {key : String} (h : d.get? key = some x)
    (hx : x.isNull = false) : d.find? key = some x := by
  have hsame := getD_get? d key
  rw [h, Option.getD_some] at hsame
  cases hfind : d.find? key with
  | none =>
    rw [hfind] at hsame
    subst hsame
    cases hx
  | some y =>
    rw [hfind] at hsame
    exact congrArg some hsame.symm

/-- What has a field is an object. -/
theorem exists_fields_of_find? {v x : Document} {key : String} (h : v.find? key = some x) :
    ∃ fields, v = .object fields := by
  cases v with
  | object fields => exact ⟨fields, rfl⟩
  | _ => cases h

/-- How deep the fields of an object are nested, by its values. -/
theorem depthOfFields_le_iff {fields : List (Document × Document)} {n : Nat} :
    depthOfFields fields ≤ n ↔ ∀ q ∈ fields, q.2.depth ≤ n := by
  induction fields with
  | nil => simp [depthOfFields]
  | cons p rest ih =>
    obtain ⟨k, y⟩ := p
    rw [depthOfFields, List.forall_mem_cons, ← ih, Nat.max_le]

/-- What an object holds is nested less deep than the object. -/
theorem depth_lt_of_find? {v x : Document} {key : String} (h : v.find? key = some x) :
    x.depth < v.depth := by
  obtain ⟨fields, rfl⟩ := exists_fields_of_find? h
  have hx : x.depth ≤ depthOfFields fields :=
    depthOfFields_le_iff.mp (Nat.le_refl _) _ (mem_of_lookup? h)
  rw [depth]
  omega

/-! ## Writing a key anew -/

/-- A key is the text that is written if it is that text. -/
theorem sameKey_text (k : Document) (key : String) : k.sameKey (.text key) = k.isText key := by
  cases k with
  | float x => cases x <;> simp [sameKey, same, integer?, isText]
  | _ => simp [sameKey, same, integer?, isText]

theorem lookup?_putField (fields : List (Document × Document)) (key other : String) (x : Document) :
    lookup? other (putField fields (.text key) x) =
      if key = other then some x else lookup? other fields := by
  induction fields with
  | nil => simp [putField, lookup?, isText]
  | cons p rest ih =>
    obtain ⟨k, y⟩ := p
    rw [putField, sameKey_text]
    by_cases hk : k.isText key = true
    · obtain rfl : k = .text key := by
        cases k <;> simp_all [isText]
      by_cases hother : key = other
      · simp [lookup?, isText, hother]
      · simp [lookup?, isText, hother]
    · rw [if_neg hk, lookup?, lookup?, ih]
      by_cases hother : key = other
      · subst hother
        simp [hk]
      · simp [hother]

theorem find?_withField (fields : List (Document × Document)) (key other : String) (x : Document) :
    ((object fields).withField key x).find? other =
      if key = other then some x else (object fields).find? other :=
  lookup?_putField fields key other x

/-! # Documents whose objects have texts as keys

An object holds no key twice. One of the two formats admits any scalar as a key,
and `hasTextKeys` singles out the documents, and with them all documents of the
other format, in which every key of every object is a text.
-/

/-- The keys of some fields as texts, with `none` for a key that is no text. -/
def textKeys (fields : List (Document × Document)) : List (Option String) :=
  fields.map fun p => p.1.text?

/-- Whether the keys of some fields are texts, and no two are the same. -/
def areTextKeyed (fields : List (Document × Document)) : Bool :=
  !(textKeys fields).contains none && (textKeys fields).Nodup

mutual
/-- Whether all objects within a document have distinct texts as keys. -/
def hasTextKeys : Document → Bool
  | .array items => itemsHaveTextKeys items
  | .pair a b => a.hasTextKeys && b.hasTextKeys
  | .collection members => itemsHaveTextKeys members
  | .object fields => areTextKeyed fields && fieldsHaveTextKeys fields
  | _ => true

/-- Whether this is so within every element. -/
def itemsHaveTextKeys : List Document → Bool
  | [] => true
  | d :: rest => d.hasTextKeys && itemsHaveTextKeys rest

/-- Whether this is so within the value of every field. -/
def fieldsHaveTextKeys : List (Document × Document) → Bool
  | [] => true
  | (_, d) :: rest => d.hasTextKeys && fieldsHaveTextKeys rest
end

theorem hasTextKeys_of_lookup? {fields : List (Document × Document)} {key : String}
    {value : Document} (h : fieldsHaveTextKeys fields = true) (hvalue : lookup? key fields = some value) :
    value.hasTextKeys = true := by
  induction fields with
  | nil => cases hvalue
  | cons p rest ih =>
    obtain ⟨k, v⟩ := p
    rw [fieldsHaveTextKeys, Bool.and_eq_true] at h
    rw [lookup?] at hvalue
    split at hvalue
    · cases hvalue
      exact h.1
    · exact ih h.2 hvalue

/-- The value of a field has text keys if the document has. -/
theorem hasTextKeys_of_get? {d value : Document} {key : String} (h : d.hasTextKeys = true)
    (hvalue : d.get? key = some value) : value.hasTextKeys = true := by
  cases d with
  | object fields =>
    rw [hasTextKeys, Bool.and_eq_true] at h
    cases hlookup : lookup? key fields with
    | none =>
      rw [get?, hlookup] at hvalue
      cases hvalue
      rfl
    | some v =>
      rw [get?, hlookup] at hvalue
      cases hvalue
      exact hasTextKeys_of_lookup? h.2 hlookup
  | _ => cases hvalue

theorem hasTextKeys_orElse {d other : Document} (h : d.hasTextKeys = true)
    (hother : other.hasTextKeys = true) : (d.orElse other).hasTextKeys = true := by
  rw [orElse]
  split
  · exact h
  · exact hother

/-- The fields of an object with text keys. -/
theorem areTextKeyed_of_fields? {d : Document} {fields : List (Document × Document)}
    (h : d.hasTextKeys = true) (hfields : d.fields? = some fields) : areTextKeyed fields = true := by
  cases d with
  | object fields =>
    cases hfields
    rw [hasTextKeys, Bool.and_eq_true] at h
    exact h.1
  | _ => cases hfields

/-- Every key among fields with text keys is a text. -/
theorem exists_text_of_areTextKeyed {fields : List (Document × Document)}
    (h : areTextKeyed fields = true) {p : Document × Document} (hp : p ∈ fields) :
    ∃ s, p.1 = .text s := by
  have hmem : p.1.text? ∈ textKeys fields := List.mem_map_of_mem hp
  rw [areTextKeyed, Bool.and_eq_true, Bool.not_eq_true', List.contains_eq_mem,
    decide_eq_false_iff_not] at h
  cases hkey : p.1 with
  | text s => exact ⟨s, rfl⟩
  | _ =>
    rw [hkey] at hmem
    exact (h.1 hmem).elim

end TypedApi.Document
