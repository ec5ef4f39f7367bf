/-!
Tables: finite maps that remember the order in which their keys first came.

A table is a list of pairs. `insert` on a key that is present replaces the
value where it stands; on a new key it appends. All lookups take the first
pair with the key, so on a table built by `insert` the pairs are the map.
-/

set_option autoImplicit false

namespace TypedApi

/-- A map from names to values, in the order of first insertion. -/
abbrev Table (α : Type) := List (String × α)

namespace Table

variable {α : Type}

/-- The value stored under a key. -/
def get? (t : Table α) (key : String) : Option α :=
  match t with
  | [] => none
  | (k, v) :: rest => if k = key then some v else get? rest key

/-- Whether a key is present. -/
def contains (t : Table α) (key : String) : Bool :=
  (t.get? key).isSome

/-- Store a value: in place on a known key, at the end on a new one. -/
def insert (t : Table α) (key : String) (value : α) : Table α :=
  match t with
  | [] => [(key, value)]
  | (k, v) :: rest => if k = key then (key, value) :: rest else (k, v) :: insert rest key value

/-- Remove every pair with the key. -/
def erase (t : Table α) (key : String) : Table α :=
  List.filter (fun p => p.1 != key) t

/-- The keys in order. -/
def keys (t : Table α) : List String :=
  List.map Prod.fst t

/-- Apply a function to every value, keeping keys and order. -/
def mapValues {β : Type} (f : α → β) (t : Table α) : Table β :=
  List.map (fun p => (p.1, f p.2)) t

/-- Reading the key just written gives the value. -/
theorem get?_insert_self (t : Table α) (key : String) (value : α) :
    (t.insert key value).get? key = some value := by
  induction t with
  | nil => simp [insert, get?]
  | cons p rest ih =>
    obtain ⟨k, v⟩ := p
    by_cases h : k = key
    · simp [insert, get?, h]
    · simp [insert, get?, h, ih]

/-- Writing one key leaves all others. -/
theorem get?_insert_of_ne (t : Table α) {key other : String} (value : α) (h : other ≠ key) :
    (t.insert key value).get? other = t.get? other := by
  induction t with
  | nil => simp [insert, get?, Ne.symm h]
  | cons p rest ih =>
    obtain ⟨k, v⟩ := p
    by_cases hk : k = key
    · subst hk; simp [insert, get?, Ne.symm h]
    · by_cases ho : k = other
      · subst ho; simp [insert, get?, h]
      · simp [insert, get?, hk, ho, ih]

/-- A new key goes to the end. -/
theorem insert_of_get?_eq_none (t : Table α) (key : String) (value : α)
    (h : t.get? key = none) : t.insert key value = t ++ [(key, value)] := by
  induction t with
  | nil => rfl
  | cons p rest ih =>
    obtain ⟨k, v⟩ := p
    by_cases hk : k = key
    · simp [get?, hk] at h
    · simp [get?, hk] at h
      simp [insert, hk, ih h]

/-- A key with a value is one of the pairs. -/
theorem mem_of_get?_eq_some {t : Table α} {key : String} {value : α}
    (h : t.get? key = some value) : (key, value) ∈ t := by
  induction t with
  | nil => simp [get?] at h
  | cons p rest ih =>
    obtain ⟨k, v⟩ := p
    by_cases hk : k = key
    · have hv : v = value := by simpa [get?, hk] using h
      rw [hk, hv]
      exact List.mem_cons_self
    · rw [get?, if_neg hk] at h
      exact List.mem_cons_of_mem _ (ih h)

/-- A key without a value is not among the keys. -/
theorem get?_eq_none_iff {t : Table α} {key : String} : t.get? key = none ↔ key ∉ t.keys := by
  induction t with
  | nil => simp [get?, keys]
  | cons p rest ih =>
    obtain ⟨k, v⟩ := p
    by_cases hk : k = key
    · simp [get?, keys, hk]
    · rw [get?, if_neg hk, ih]
      simp [keys, Ne.symm hk]

/-- After a write, every pair is the one written or was there before. -/
theorem mem_insert {t : Table α} {key : String} {value : α} {p : String × α}
    (h : p ∈ t.insert key value) : p = (key, value) ∨ p ∈ t := by
  induction t with
  | nil => exact .inl (by simpa [insert] using h)
  | cons q rest ih =>
    obtain ⟨k, v⟩ := q
    by_cases hk : k = key
    · rw [insert, if_pos hk] at h
      rcases List.mem_cons.mp h with h | h
      · exact .inl h
      · exact .inr (List.mem_cons_of_mem _ h)
    · rw [insert, if_neg hk] at h
      rcases List.mem_cons.mp h with h | h
      · exact .inr (h ▸ List.mem_cons_self)
      · exact (ih h).imp_right (List.mem_cons_of_mem _)

/-- Writing a value and applying a function to all of them can be done in either order. -/
theorem mapValues_insert {β : Type} (f : α → β) (t : Table α) (key : String) (value : α) :
    (t.insert key value).mapValues f = (t.mapValues f).insert key (f value) := by
  induction t with
  | nil => rfl
  | cons p rest ih =>
    obtain ⟨k, v⟩ := p
    rw [mapValues] at ih
    by_cases hk : k = key
    · simp [mapValues, insert, hk]
    · simp [mapValues, insert, hk, ih]

/-- A key has the image of the value that it had. -/
theorem get?_mapValues {β : Type} (f : α → β) (t : Table α) (key : String) :
    (t.mapValues f).get? key = (t.get? key).map f := by
  induction t with
  | nil => rfl
  | cons p rest ih =>
    obtain ⟨k, v⟩ := p
    rw [mapValues] at ih
    by_cases hk : k = key
    · simp [mapValues, get?, hk]
    · simp [mapValues, get?, hk, ih]

@[simp] theorem keys_mapValues {β : Type} (f : α → β) (t : Table α) :
    (t.mapValues f).keys = t.keys := by
  simp [mapValues, keys, Function.comp_def]

end Table

end TypedApi
