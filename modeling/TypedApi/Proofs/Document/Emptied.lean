import TypedApi.Document.Pointer
import Mathlib.Data.List.Basic
/-!
Documents that differ in the values true.

The value true and the empty object say the same where a schema belongs.
`emptied` writes the empty object for every true, so two documents with the same
emptied form differ in nothing but the choice between the two. At the root such
documents are akin, which means that they are of one kind and have the same
number of parts, or they are swapped, which means that one is true and the other
the empty object. A reference leads to values of that sort in both of them, or
to none in either.
-/

set_option autoImplicit false

namespace TypedApi

/-! ## Computations that come to the same -/

/-- Two computations that fail with problems of one family, or answer alike. -/
inductive Accord {α β : Type} (R : α → β → Prop) : Except Failure α → Except Failure β → Prop
  | fail (e e' : Failure) : e'.problem.kind = e.problem.kind → Accord R (.error e) (.error e')
  | answer (a : α) (b : β) : R a b → Accord R (.ok a) (.ok b)

namespace Accord

variable {α β γ δ : Type} {R : α → β → Prop} {Q : γ → δ → Prop} {x : Except Failure α}
  {y : Except Failure β}

theorem refl {S : α → α → Prop} (h : ∀ a, S a a) (x : Except Failure α) : Accord S x x := by
  cases x with
  | error e => exact .fail e e rfl
  | ok a => exact .answer a a (h a)

theorem bind {f : α → Except Failure γ} {g : β → Except Failure δ} (hx : Accord R x y)
    (hf : ∀ a b, R a b → Accord Q (f a) (g b)) : Accord Q (x >>= f) (y >>= g) := by
  cases hx with
  | fail e e' hkind => exact .fail e e' hkind
  | answer a b hab => exact hf a b hab

theorem map {f : α → γ} {g : β → δ} (hx : Accord R x y) (hf : ∀ a b, R a b → Q (f a) (g b)) :
    Accord Q (x.map f) (y.map g) := by
  cases hx with
  | fail e e' hkind => exact .fail e e' hkind
  | answer a b hab => exact .answer _ _ (hf a b hab)

/-- Whether a failure is that of a reference depends on its family alone. -/
theorem blame (hx : Accord R x y) (reference : String) :
    Accord R (Document.blameReference reference x) (Document.blameReference reference y) := by
  cases hx with
  | answer a b hab => exact .answer a b hab
  | fail e e' hkind =>
    rw [Document.blameReference, Document.blameReference, Document.isSourceFailure,
      Document.isSourceFailure, hkind]
    split
    · exact .fail _ _ rfl
    · exact .fail e e' hkind

end Accord

namespace Document

/-! ## The empty object for true -/

mutual
/-- The document with the empty object in the place of every value true. -/
def emptied : Document → Document
  | .bool true => .object []
  | .array items => .array (emptiedItems items)
  | .pair a b => .pair a.emptied b.emptied
  | .object fields => .object (emptiedFields fields)
  | d => d

/-- The elements of an array, emptied. -/
def emptiedItems : List Document → List Document
  | [] => []
  | d :: rest => d.emptied :: emptiedItems rest

/-- The fields of an object, their values emptied. -/
def emptiedFields : List (Document × Document) → List (Document × Document)
  | [] => []
  | (k, d) :: rest => (k, d.emptied) :: emptiedFields rest
end

@[simp] theorem emptiedItems_eq_map (items : List Document) :
    emptiedItems items = items.map emptied := by
  induction items with
  | nil => rfl
  | cons d rest ih => rw [emptiedItems, ih, List.map_cons]

@[simp] theorem emptiedFields_eq_map (fields : List (Document × Document)) :
    emptiedFields fields = fields.map fun p => (p.1, p.2.emptied) := by
  induction fields with
  | nil => rfl
  | cons p rest ih => rw [emptiedFields, ih, List.map_cons]

/-- Two values of one kind whose parts differ in values true only. -/
inductive Akin : Document → Document → Prop
  | same (v : Document) : Akin v v
  | array {items items' : List Document} : items.map emptied = items'.map emptied →
    Akin (.array items) (.array items')
  | pair {a b a' b' : Document} : a.emptied = a'.emptied → b.emptied = b'.emptied →
    Akin (.pair a b) (.pair a' b')
  | object {fields fields' : List (Document × Document)} :
    (fields.map fun p => (p.1, p.2.emptied)) = (fields'.map fun p => (p.1, p.2.emptied)) →
    Akin (.object fields) (.object fields')

/-- The empty object and true, in either order. -/
inductive Swapped : Document → Document → Prop
  | empty : Swapped (.object []) (.bool true)
  | full : Swapped (.bool true) (.object [])

variable {v v' : Document}

/-- Whether a value is its own emptied form because it has no parts: it is not true either. -/
def isPlain : Document → Bool
  | .bool true => false
  | .array _ => false
  | .pair .. => false
  | .object _ => false
  | _ => true

theorem emptied_of_isPlain (h : v.isPlain = true) : v.emptied = v := by
  cases v with
  | bool b =>
    cases b with
    | false => rfl
    | true => cases h
  | array items => cases h
  | pair a b => cases h
  | object fields => cases h
  | _ => rfl

theorem isPlain_emptied (v : Document) : v.emptied.isPlain = v.isPlain := by
  cases v with
  | bool b => cases b <;> rfl
  | _ => rfl

/-- **Documents with the same emptied form** are of one kind, unless one is true and the other the
empty object. -/
theorem akin_or_swapped (h : v.emptied = v'.emptied) : Akin v v' ∨ Swapped v v' := by
  by_cases hplain : v.isPlain = true
  · have hplain' : v'.isPlain = true := by rw [← isPlain_emptied, ← h, isPlain_emptied, hplain]
    rw [emptied_of_isPlain hplain, emptied_of_isPlain hplain'] at h
    exact .inl (h ▸ .same v)
  · cases v with
    | array items =>
      cases v' with
      | array items' => exact .inl (.array (by simpa [emptied] using h))
      | bool b => cases b <;> simp [emptied] at h
      | _ => simp [emptied] at h
    | pair a b =>
      cases v' with
      | pair a' b' =>
        simp only [emptied, pair.injEq] at h
        exact .inl (.pair h.1 h.2)
      | bool b => cases b <;> simp [emptied] at h
      | _ => simp [emptied] at h
    | object fields =>
      cases v' with
      | object fields' => exact .inl (.object (by simpa [emptied] using h))
      | bool b =>
        cases b with
        | false => simp [emptied] at h
        | true =>
          obtain rfl : fields = [] := by simpa [emptied] using h
          exact .inr .empty
      | _ => simp [emptied] at h
    | bool b =>
      cases b with
      | false => exact absurd rfl hplain
      | true =>
        cases v' with
        | bool b' =>
          cases b' with
          | false => simp [emptied] at h
          | true => exact .inl (.same _)
        | object fields' =>
          obtain rfl : fields' = [] := by simpa [emptied] using h.symm
          exact .inr .full
        | _ => simp [emptied] at h
    | _ => exact absurd rfl hplain

/-- Only what is swapped is an object on one side and none on the other. -/
theorem akin_of_isObject_eq (h : v.emptied = v'.emptied) (hobject : v.isObject = v'.isObject) :
    Akin v v' := by
  rcases akin_or_swapped h with hakin | hswapped
  · exact hakin
  · cases hswapped <;> cases hobject

/-! ## Questions about values -/

/-- What is found under a key, emptied. -/
theorem lookup?_emptied (key : String) (fields : List (Document × Document)) :
    lookup? key (fields.map fun p => (p.1, p.2.emptied)) = (lookup? key fields).map emptied := by
  induction fields with
  | nil => rfl
  | cons p rest ih =>
    obtain ⟨k, x⟩ := p
    rw [List.map_cons, lookup?, lookup?, ih]
    split <;> rfl

theorem find?_emptied (v : Document) (key : String) :
    v.emptied.find? key = (v.find? key).map emptied := by
  cases v with
  | object fields => rw [emptied, emptiedFields_eq_map, find?, lookup?_emptied]; rfl
  | bool b => cases b <;> rfl
  | _ => rfl

/-- The same keys are there. -/
theorem hasField_eq (h : v.emptied = v'.emptied) (key : String) :
    v.hasField key = v'.hasField key := by
  rw [hasField, hasField, ← Option.isSome_map (f := emptied), ← find?_emptied, h, find?_emptied,
    Option.isSome_map]

theorem isText_emptied (v : Document) (key : String) : v.emptied.isText key = v.isText key := by
  cases v with
  | bool b => cases b <;> rfl
  | _ => rfl

namespace Akin

variable (h : Akin v v')

include h

theorem emptied_eq : v.emptied = v'.emptied := by
  cases h with
  | same => rfl
  | array hitems => simp [emptied, hitems]
  | pair ha hb => simp [emptied, ha, hb]
  | object hfields => simp [emptied, hfields]

theorem isObject_eq : v.isObject = v'.isObject := by
  cases h <;> rfl

theorem isNull_eq : v.isNull = v'.isNull := by
  cases h <;> rfl

theorem holds_eq : v.holds = v'.holds := by
  cases h with
  | same => rfl
  | array hitems =>
    have hempty := congrArg List.isEmpty hitems
    simpa [holds] using hempty
  | pair => rfl
  | object hfields =>
    have hempty := congrArg List.isEmpty hfields
    simpa [holds] using hempty

theorem length?_eq : v.length? = v'.length? := by
  cases h with
  | same => rfl
  | array hitems => simpa [length?, elements?] using congrArg List.length hitems
  | pair => rfl
  | object hfields => simpa [length?, elements?] using congrArg List.length hfields

theorem mentions?_eq (key : String) : v.mentions? key = v'.mentions? key := by
  have hany : ∀ items : List Document,
      (items.any fun i => i.isText key) = (items.map emptied).any fun i => i.isText key := by
    intro items
    simp only [List.any_map, Function.comp_def, isText_emptied]
  have hfields := hasField_eq h.emptied_eq key
  cases h with
  | same => rfl
  | array hitems => rw [mentions?, mentions?, hany, hitems, ← hany]
  | pair ha hb =>
    rename_i a b a' b'
    rw [mentions?, mentions?, ← isText_emptied a, ha, isText_emptied, ← isText_emptied b, hb,
      isText_emptied]
  | object => rw [mentions?, mentions?, hfields]

end Akin

/-! ## Measures -/

mutual
theorem fieldCount_emptied : (v : Document) → v.emptied.fieldCount = v.fieldCount
  | .bool true => rfl
  | .bool false => rfl
  | .array items => by simpa only [emptied, fieldCount] using fieldCountOfItems_emptied items
  | .pair a b => by simp only [emptied, fieldCount, fieldCount_emptied a, fieldCount_emptied b]
  | .object fields => by simpa only [emptied, fieldCount] using fieldCountOfFields_emptied fields
  | .null | .int _ | .float _ | .text _ | .bytes _ | .moment _ | .collection _ | .loop _ => rfl

theorem fieldCountOfItems_emptied :
    (items : List Document) → fieldCountOfItems (emptiedItems items) = fieldCountOfItems items
  | [] => rfl
  | d :: rest => by
    simp only [emptiedItems, fieldCountOfItems, fieldCount_emptied d,
      fieldCountOfItems_emptied rest]

theorem fieldCountOfFields_emptied : (fields : List (Document × Document)) →
    fieldCountOfFields (emptiedFields fields) = fieldCountOfFields fields
  | [] => rfl
  | (_, d) :: rest => by
    simp only [emptiedFields, fieldCountOfFields, fieldCount_emptied d,
      fieldCountOfFields_emptied rest]
end

theorem fieldCount_eq (h : v.emptied = v'.emptied) : v.fieldCount = v'.fieldCount := by
  rw [← fieldCount_emptied v, h, fieldCount_emptied]

mutual
/-- Where true becomes an empty object, the nesting grows by that object. -/
theorem depth_emptied : (v : Document) → v.depth ≤ v.emptied.depth ∧ v.emptied.depth ≤ v.depth + 1
  | .bool true => by simp [emptied, depth, depthOfFields]
  | .bool false => by simp [emptied, depth]
  | .array items => by
    have hitems := depthOfItems_emptied items
    simp only [emptied, depth]
    omega
  | .pair a b => by
    have ha := depth_emptied a
    have hb := depth_emptied b
    simp only [emptied, depth]
    omega
  | .object fields => by
    have hfields := depthOfFields_emptied fields
    simp only [emptied, depth]
    omega
  | .null | .int _ | .float _ | .text _ | .bytes _ | .moment _ | .collection _ | .loop _ => by
    simp [emptied, depth]

theorem depthOfItems_emptied : (items : List Document) →
    depthOfItems items ≤ depthOfItems (emptiedItems items) ∧
      depthOfItems (emptiedItems items) ≤ depthOfItems items + 1
  | [] => by simp [emptiedItems, depthOfItems]
  | d :: rest => by
    have hd := depth_emptied d
    have hrest := depthOfItems_emptied rest
    simp only [emptiedItems, depthOfItems]
    omega

theorem depthOfFields_emptied : (fields : List (Document × Document)) →
    depthOfFields fields ≤ depthOfFields (emptiedFields fields) ∧
      depthOfFields (emptiedFields fields) ≤ depthOfFields fields + 1
  | [] => by simp [emptiedFields, depthOfFields]
  | (_, d) :: rest => by
    have hd := depth_emptied d
    have hrest := depthOfFields_emptied rest
    simp only [emptiedFields, depthOfFields]
    omega
end

/-- The depths differ by one at most. -/
theorem depth_le_of_emptied_eq (h : v.emptied = v'.emptied) : v.depth ≤ v'.depth + 1 := by
  have hv := depth_emptied v
  have hv' := depth_emptied v'
  rw [h] at hv
  omega

theorem depth_le_depthOfItems {items : List Document} {x : Document} (h : x ∈ items) :
    x.depth ≤ depthOfItems items := by
  induction items with
  | nil => cases h
  | cons d rest ih =>
    rw [depthOfItems]
    rcases List.mem_cons.mp h with rfl | h
    · omega
    · have hrest := ih h
      omega

theorem depth_le_depthOfFields {fields : List (Document × Document)} {key x : Document}
    (h : (key, x) ∈ fields) : x.depth ≤ depthOfFields fields := by
  induction fields with
  | nil => cases h
  | cons p rest ih =>
    obtain ⟨k, d⟩ := p
    rw [depthOfFields]
    rcases List.mem_cons.mp h with heq | h
    · cases heq
      omega
    · have hrest := ih h
      omega

/-! ## References -/

/-- What is there on both sides or on neither. -/
theorem rel_of_map_eq {o o' : Option Document} (h : o.map emptied = o'.map emptied) :
    Option.Rel (fun t t' => t.emptied = t'.emptied) o o' := by
  cases o with
  | none =>
    obtain rfl : o' = none := by simpa using h.symm
    exact .none
  | some t =>
    obtain ⟨t', rfl, ht⟩ : ∃ t', o' = some t' ∧ t'.emptied = t.emptied := by simpa using h.symm
    exact .some ht.symm

/-- The same element of two arrays. -/
theorem elementAt?_rel {items items' : List Document}
    (h : items.map emptied = items'.map emptied) (index : Int) :
    Option.Rel (fun t t' => t.emptied = t'.emptied) (elementAt? items index)
      (elementAt? items' index) := by
  have hlength : items.length = items'.length := by simpa using congrArg List.length h
  rw [elementAt?, elementAt?, hlength]
  generalize (if index < 0 then index + (items'.length : Int) else index) = i
  split
  · exact .none
  · exact rel_of_map_eq (by rw [← List.getElem?_map, h, List.getElem?_map])

/-- One step of a path leads to values with the same emptied form, or nowhere on both sides. -/
theorem stepInto_accord (reference : String) (h : v.emptied = v'.emptied) (segment : String) :
    Accord (fun t t' => t.emptied = t'.emptied) (stepInto reference v segment)
      (stepInto reference v' segment) := by
  rcases akin_or_swapped h with hakin | hswapped
  · cases hakin with
    | same => exact .refl (fun t => (rfl : t.emptied = t.emptied)) _
    | @array items items' hitems =>
      rw [stepInto, stepInto]
      cases Text.integer? segment with
      | none => exact .fail _ _ rfl
      | some index =>
        have helement := elementAt?_rel hitems index
        rw [Option.bind_some, Option.bind_some]
        generalize elementAt? items index = o at helement ⊢
        generalize elementAt? items' index = o' at helement ⊢
        cases helement with
        | none => exact .fail _ _ rfl
        | some ht => exact .answer _ _ ht
    | pair => exact .fail _ _ rfl
    | @object fields fields' hfields =>
      have hlookup : Option.Rel (fun t t' => t.emptied = t'.emptied) (lookup? segment fields)
          (lookup? segment fields') :=
        rel_of_map_eq (by rw [← lookup?_emptied, hfields, lookup?_emptied])
      rw [stepInto, stepInto]
      generalize lookup? segment fields = o at hlookup ⊢
      generalize lookup? segment fields' = o' at hlookup ⊢
      cases hlookup with
      | none => exact .fail _ _ rfl
      | some ht => exact .answer _ _ ht
  -- neither the empty object nor true has anything inside
  · cases hswapped <;> exact .fail _ _ rfl

/-- **A reference leads to values with the same emptied form**, or nowhere in both documents. -/
theorem resolve_accord (h : v.emptied = v'.emptied) (reference : String) :
    Accord (fun t t' => t.emptied = t'.emptied) (v.resolve reference) (v'.resolve reference) := by
  rw [resolve, resolve]
  cases segments? reference with
  | none => exact .fail _ _ rfl
  | some segments =>
    dsimp only
    induction segments generalizing v v' with
    | nil => exact .answer _ _ h
    | cons segment rest ih =>
      rw [List.foldlM_cons, List.foldlM_cons]
      exact (stepInto_accord reference h segment).bind fun _ _ => ih

end Document

end TypedApi
