import TypedApi.Proofs.Build.Run
import TypedApi.Proofs.Graph.Relocation
import Mathlib.Logic.Relation
import Mathlib.Tactic.Common
/-!
What a build can do to a model, one step at a time.

Everything that lowering a document does to a model comes down to six small
steps: add an item, change what an item says about itself, register a path,
add an operation, share the variants of a response, keep the implicit header.
`Step` lists them with the conditions under which they are taken, and every
invariant of models under construction is an induction over such steps.

The conditions speak of a `Standard`: what a build promises of the references
and variants that it stores. The weakest promises nothing and covers calls with
arbitrary arguments; the strongest that a conversion keeps is that references
lead to items that are there and that no variant has a name yet.
-/

set_option autoImplicit false

namespace TypedApi

/-! ## Standards -/

/-- What a build promises of a reference that it stores while there are `n` items, and of a
variant. A promise about a reference is not broken by items that are added later. -/
structure Standard where
  ref : Nat → Ref → Prop
  variant : Variant → Prop
  ref_mono : ∀ {n k : Nat} {r : Ref}, n ≤ k → ref n r → ref k r
  ref_back : ∀ {n i : Nat}, i < n → ref n (.back i)
  ref_forward : ∀ {n : Nat} {path : String}, ref n (.forward path)
  variant_unnamed : ∀ {v : Variant}, v.name = .unnamed → variant v

/-- The index that a reference holds, if it holds one. -/
def Ref.index? : Ref → Option Int
  | .back index => some index
  | .resolved index => some index
  | .forward _ => none

namespace Standard

/-- No promise at all. -/
def anything : Standard where
  ref _ _ := True
  variant _ := True
  ref_mono _ _ := trivial
  ref_back _ := trivial
  ref_forward := trivial
  variant_unnamed _ := trivial

variable (S : Standard)

/-- A shape whose references and variants meet the standard. -/
structure Fits (n : Nat) (shape : Shape) : Prop where
  refs : ∀ r ∈ shape.refs, S.ref n r
  variants : ∀ v ∈ shape.variants, S.variant v

/-- Without a promise every shape will do. -/
theorem fits_anything (n : Nat) (shape : Shape) : anything.Fits n shape :=
  ⟨fun _ _ => trivial, fun _ _ => trivial⟩

/-- A variant that meets the standard, and its reference with it. -/
structure Admits (n : Nat) (v : Variant) : Prop where
  ref : S.ref n v.definition
  variant : S.variant v

/-- A back reference that meets the standard. -/
structure Places (n : Nat) (r : Ref) : Prop where
  ref : S.ref n r
  back : ∃ index, r = .back index

/-- A model all of whose references and variants meet the standard, those of an item already when
the item was added. -/
structure Sound (m : Model) : Prop where
  definitions : ∀ i item, m.definitions[i]? = some item → S.Fits i item.shape
  operations : ∀ o ∈ m.operations, ∀ r ∈ o.refs, S.ref m.size r
  shared : ∀ p ∈ m.responseVariants, ∀ v ∈ p.2, S.Admits m.size v
  registered : ∀ p ∈ m.namedReferences, S.ref m.size (.back p.2)
  accepted : ∀ r, m.acceptHeader = some r → S.ref m.size r

variable {S}

theorem Admits.mono {n k : Nat} {v : Variant} (h : n ≤ k) (hv : S.Admits n v) : S.Admits k v :=
  ⟨S.ref_mono h hv.ref, hv.variant⟩

theorem Places.mono {n k : Nat} {r : Ref} (h : n ≤ k) (hr : S.Places n r) : S.Places k r :=
  ⟨S.ref_mono h hr.ref, hr.back⟩

/-- The last of `n + 1` items may be referred to. -/
theorem places_last (n : Nat) : S.Places (n + 1) (.back n) :=
  ⟨S.ref_back (Nat.lt_succ_self n), n, rfl⟩

/-- A scalar refers to nothing. -/
theorem fits_scalar (n : Nat) (s : Scalar) : S.Fits n (.scalar s) :=
  ⟨by simp [Shape.refs], by simp [Shape.variants]⟩

/-- Another name for what a reference leads to meets the standard if the reference does. -/
theorem fits_synonym {n : Nat} {r : Ref} (h : S.ref n r) : S.Fits n (.synonym r) :=
  ⟨by simpa [Shape.refs] using h, by simp [Shape.variants]⟩

/-- An object meets the standard if the references of its members do. -/
theorem fits_object {n : Nat} {members : Table Member}
    (h : ∀ p ∈ members, S.ref n p.2.definition) : S.Fits n (.object members) := by
  refine ⟨fun r hr => ?_, by simp [Shape.variants]⟩
  obtain ⟨p, hp, rfl⟩ := List.mem_map.mp hr
  exact h p hp

/-- A union meets the standard if its variants do. -/
theorem fits_oneOf {n : Nat} {discriminant : Option String} {variants : List Variant}
    (h : ∀ v ∈ variants, S.Admits n v) : S.Fits n (.oneOf discriminant variants) := by
  refine ⟨fun r hr => ?_, fun v hv => (h v hv).variant⟩
  obtain ⟨v, hv, rfl⟩ := List.mem_map.mp hr
  exact (h v hv).ref

/-- Nothing is wrong with a model that is empty. -/
theorem sound_empty (bounded : Bool) : S.Sound { boundedIntegers := bounded } where
  definitions := by simp
  operations := by simp
  shared := by simp
  registered := by simp
  accepted := by simp

end Standard

/-! ## Steps -/

/-- An element of a list with one more at the end is one of the list or the last one. -/
theorem eq_or_last_of_getElem?_concat {α : Type} {l : List α} {a b : α} {i : Nat}
    (h : (l ++ [a])[i]? = some b) : l[i]? = some b ∨ i = l.length ∧ a = b := by
  rw [List.getElem?_append] at h
  split at h
  · exact .inl h
  · rename_i hi
    -- past the end of the list only the position of the last element is left
    have hlast : i - l.length = 0 := by
      by_contra hne
      rw [List.getElem?_eq_none (by simp; omega)] at h
      cases h
    rw [hlast] at h
    exact .inr ⟨by omega, by simpa using h⟩

namespace Model

/-- The model with an item at the end, which is found under its name and under a path if one is
given. -/
def withItem (m : Model) (item : Item) (path : Option String) : Model :=
  { m with
    definitions := m.definitions ++ [item]
    items := m.items.insert item.generatedName m.size
    namedReferences :=
      match path with
      | some p => m.namedReferences.insert p m.size
      | none => m.namedReferences }

/-- The model with one item changed. -/
def withChange (m : Model) (i : Nat) (f : Item → Item) : Model :=
  { m with definitions := m.definitions.modify i f }

/-- The model with a path registered. -/
def withPath (m : Model) (path : String) (index : Int) : Model :=
  { m with namedReferences := m.namedReferences.insert path index }

/-- The model with an operation at the end. -/
def withOperation (m : Model) (o : Operation) : Model :=
  { m with operations := m.operations ++ [o] }

/-- The model with the variants of a response under its path. -/
def withShared (m : Model) (path : String) (variants : List Variant) : Model :=
  { m with responseVariants := m.responseVariants.insert path variants }

/-- The model that remembers the implicit header. -/
def withAccept (m : Model) (r : Ref) : Model :=
  { m with acceptHeader := some r }

end Model

/-- A change of an item that concerns its documentation and its marks only. -/
def Item.Remark (f : Item → Item) : Prop :=
  ∀ item, ∃ docs pubTypedef implHeader, f item = { item with docs, pubTypedef, implHeader }

/-- One step of a build. -/
inductive Step (S : Standard) : Model → Model → Prop
  /-- An item is added under a free name made from the proposed one, and under a free path. -/
  | add (m : Model) (item : Item) (path : Option String) (proposed : String) :
    m.finalized = false →
    item.generatedName = Name.deconflict proposed m.items.keys →
    m.items.get? item.generatedName = none →
    (∀ p, path = some p → m.namedReferences.get? p = none) →
    S.Fits m.size item.shape →
    Step S m (m.withItem item path)
  /-- An item gets other documentation or other marks. -/
  | change (m : Model) (i : Nat) (f : Item → Item) : Item.Remark f → Step S m (m.withChange i f)
  /-- A path is registered that was free or led to the same item. -/
  | register (m : Model) (path : String) (index : Int) :
    m.finalized = false →
    (∀ old, m.namedReferences.get? path = some old → old = index) →
    S.ref m.size (.back index) →
    Step S m (m.withPath path index)
  /-- An operation is added. -/
  | operate (m : Model) (o : Operation) :
    (∀ r ∈ o.refs, S.ref m.size r) → Step S m (m.withOperation o)
  /-- The variants of a response are kept for others. -/
  | share (m : Model) (path : String) (variants : List Variant) :
    (∀ v ∈ variants, S.Admits m.size v) → Step S m (m.withShared path variants)
  /-- The implicit header is kept for others. -/
  | accept (m : Model) (r : Ref) : S.ref m.size r → Step S m (m.withAccept r)

/-- Any number of steps of a build. -/
abbrev Steps (S : Standard) : Model → Model → Prop :=
  Relation.ReflTransGen (Step S)

variable {S : Standard} {m m' : Model}

/-- A step takes no item away. -/
theorem Step.size_le (h : Step S m m') : m.size ≤ m'.size := by
  cases h <;>
    simp [Model.size, Model.withItem, Model.withChange, Model.withPath, Model.withOperation,
      Model.withShared, Model.withAccept]

/-- Steps take no item away. -/
theorem Steps.size_le (h : Steps S m m') : m.size ≤ m'.size := by
  induction h with
  | refl => exact Nat.le_refl _
  | tail _ step ih => exact Nat.le_trans ih step.size_le

/-- **Steps keep a standard**: what the conditions of a step ask is all that a standard asks. -/
theorem Standard.Sound.step (hm : S.Sound m) (h : Step S m m') : S.Sound m' := by
  have hsize := h.size_le
  cases h with
  | add item path proposed _ _ _ _ hfits =>
    have hone : (m.withItem item path).size = m.size + 1 := by simp [Model.size, Model.withItem]
    refine ⟨fun i d hd => ?_, fun o ho r hr => S.ref_mono hsize (hm.operations o ho r hr),
      fun p hp v hv => (hm.shared p hp v hv).mono hsize, fun p hp => ?_,
      fun r hr => S.ref_mono hsize (hm.accepted r hr)⟩
    -- the older items fitted when they were added; the step vouches for the new one
    · rcases eq_or_last_of_getElem?_concat hd with hd | ⟨rfl, rfl⟩
      · exact hm.definitions i d hd
      · exact hfits
    · cases path with
      | none => exact S.ref_mono hsize (hm.registered p hp)
      -- the one new entry leads to the new item, which is now the last one
      | some q =>
        rcases Table.mem_insert hp with rfl | hp
        · rw [hone]
          exact S.ref_back (Nat.lt_succ_self _)
        · exact S.ref_mono hsize (hm.registered p hp)
  | change i f hf =>
    have hone : (m.withChange i f).size = m.size := by simp [Model.size, Model.withChange]
    refine ⟨fun j d hd => ?_, fun o ho r hr => S.ref_mono hsize (hm.operations o ho r hr),
      fun p hp v hv => (hm.shared p hp v hv).mono hsize,
      fun p hp => S.ref_mono hsize (hm.registered p hp),
      fun r hr => S.ref_mono hsize (hm.accepted r hr)⟩
    simp only [Model.withChange, List.getElem?_modify] at hd
    -- the item at a place is the old one or a remark on it, and a remark keeps the shape
    obtain ⟨d₀, hd₀, rfl⟩ := Option.map_eq_some_iff.mp hd
    have hfits := hm.definitions j d₀ hd₀
    split
    · obtain ⟨_, _, _, heq⟩ := hf d₀
      rw [heq]
      exact hfits
    · exact hfits
  | register path index _ _ href =>
    refine ⟨hm.definitions, hm.operations, hm.shared, fun p hp => ?_, hm.accepted⟩
    rcases Table.mem_insert hp with rfl | hp
    · exact href
    · exact hm.registered p hp
  | operate o ho =>
    refine ⟨hm.definitions, fun o' ho' r hr => ?_, hm.shared, hm.registered, hm.accepted⟩
    rcases List.mem_append.mp ho' with ho' | ho'
    · exact hm.operations o' ho' r hr
    · rw [List.mem_singleton.mp ho'] at hr
      exact ho r hr
  | share path variants hv =>
    refine ⟨hm.definitions, hm.operations, fun p hp v hv' => ?_, hm.registered, hm.accepted⟩
    rcases Table.mem_insert hp with rfl | hp
    · exact hv v hv'
    · exact hm.shared p hp v hv'
  | accept r hr =>
    refine ⟨hm.definitions, hm.operations, hm.shared, hm.registered, fun r' hr' => ?_⟩
    cases hr'
    exact hr

/-- Any number of steps keep a standard. -/
theorem Standard.Sound.steps (hm : S.Sound m) (h : Steps S m m') : S.Sound m' := by
  induction h with
  | refl => exact hm
  | tail _ step ih => exact ih.step step

end TypedApi
