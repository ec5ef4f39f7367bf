import TypedApi.Proofs.Build.Keeps
import TypedApi.Proofs.Conversion.Stages
import TypedApi.Proofs.Conversion.Steps
import TypedApi.Proofs.Operation.Abreast
import Mathlib.Data.List.Perm.Basic
/-!
The order in which shared schemas are lowered.

Lowering a shared schema appends items and registers one path. Two neighbours
can be exchanged: each is lowered alike whether the other one is there already
or not, where a reference to the other is a back reference on the one side and
a forward reference on the other. The items of the two change places as blocks,
and everything in them stays the same up to that renumbering. Any other order
is reached by exchanging neighbours.
-/

set_option autoImplicit false

/-! # The stages of a conversion on two tied models

A shared schema is lowered alike as long as its own path is not one that only
the second model knows. What comes after the shared schemas is the same for
documents that differ in their order: the other sections have the same entries,
and each entry is lowered alike.
-/

namespace TypedApi.Conversion

open Build

variable {T : Tie}

/-! ## Shared schemas -/

theorem publish_abreast {r r' : Ref} (hr : T.Placed r r') :
    Abreast T (publish r) (publish r') fun _ _ => True :=
  .modifyItem hr Operation.blind_pubTypedef

theorem addSchema_abreast (hT : T.Internal) {key : String} (schema : Document)
    (hpath : T.extra.get? (schemaPath key) = none) :
    Abreast T (addSchema (.text key) schema) (addSchema (.text key) schema) T.Placed := by
  have hown : ∀ p, some (schemaPath key) = some p → T.extra.get? p = none := by
    rintro _ ⟨⟩
    exact hpath
  refine .ite (fun _ => Schema.addInline_abreast hT _ _ _ _ _ _ hown) fun _ => ?_
  refine .skip (.require _) fun target => .ite (fun _ => ?_) fun _ => ?_
  · exact .bind .note fun _ _ _ => .addScalar hown
  · refine .bind (Schema.convert_abreast hT ..) fun inner inner' hinner => ?_
    refine .skip (.textOrNull _) fun docs => .addItem ?_ hown
    rw [hinner]
    rfl

/-- **A shared schema is lowered alike.** -/
theorem insertSchema_abreast (hT : T.Internal) {key : String} (schema : Document)
    (hpath : T.extra.get? (schemaPath key) = none) :
    Abreast T (insertSchema (.text key, schema)) (insertSchema (.text key, schema))
      fun _ _ => True :=
  .bind (addSchema_abreast hT schema hpath) fun _ _ => publish_abreast

/-! ## The other components -/

section

variable (hT : T.Straight)

include hT

theorem insertParameter_abreast (entry : Document × Document) :
    Abreast T (insertParameter entry) (insertParameter entry) fun _ _ => True :=
  .bind (Operation.insertComponentParameter_abreast hT ..) fun _ _ => publish_abreast

theorem insertBody_abreast (entry : Document × Document) :
    Abreast T (insertBody entry) (insertBody entry) fun _ _ => True := by
  obtain ⟨key, body⟩ := entry
  refine .skip (.require _) fun _ => ?_
  split
  · exact .bind (Operation.namedBy_abreast hT _) fun _ _ hr => .registerPath hr (hT.free _)
  · refine .skip (.require _) fun specName => ?_
    refine .bind (Operation.createBody_abreast hT ..) fun r r' hr => ?_
    exact .bind (publish_abreast hr) fun _ _ _ => .modifyItem hr (Operation.blind_orDocs _)

variable {schemas schemas' : Table Document} {components components' d d' : Document}
  (hd : Document.Reordered schemas schemas' components components' d d')

include hd

theorem insertResponse_abreast (entry : Document × Document) :
    Abreast T (insertResponse d entry) (insertResponse d' entry) fun _ _ => True := by
  obtain ⟨key, response⟩ := entry
  refine .skip (.require _) fun _ => ?_
  split
  · exact .bind (Operation.cachedVariantsBy_abreast _) fun _ _ => .share
  · refine .skip (.require _) fun specName => ?_
    exact .bind (Operation.createVariants_abreast hT hd ..) fun _ _ => .share

theorem insertHeader_abreast (entry : Document × Document) :
    Abreast T (insertHeader d entry) (insertHeader d' entry) fun _ _ => True :=
  .bind (Operation.insertComponentHeader_abreast hT hd ..) fun _ _ _ => .pure trivial

omit hT in
/-- The sections other than the schemas are the same in both documents. -/
theorem entries_eq {key : String} (hkey : key ≠ "schemas") :
    (section? components' key) = (section? components key) := by
  rw [section?, section?, field, field, hd.inner.get?_of_ne hkey]

/-- **What comes after the shared schemas is done alike.** -/
theorem afterSchemas_abreast (hapart : Operation.PathsApart d) (count count' : Nat) :
    Abreast T (afterSchemas d components count) (afterSchemas d' components' count')
      fun _ _ => True := by
  rw [afterSchemas, afterSchemas, entries_eq hd (by decide), entries_eq hd (by decide),
    entries_eq hd (by decide), entries_eq hd (by decide)]
  refine .bind .note fun _ _ _ => .skip (steady_section? _ _) fun parameters => ?_
  refine .bind (.forM fun entry _ => insertParameter_abreast hT entry) fun _ _ _ => ?_
  refine .skip (steady_section? _ _) fun bodies => ?_
  refine .bind (.forM fun entry _ => insertBody_abreast hT entry) fun _ _ _ => ?_
  refine .skip (steady_section? _ _) fun responses => ?_
  refine .bind (.forM fun entry _ => insertResponse_abreast hT hd entry) fun _ _ _ => ?_
  refine .skip (steady_section? _ _) fun headers => ?_
  refine .bind (.forM fun entry _ => insertHeader_abreast hT hd entry) fun _ _ _ => ?_
  refine .bind (Operation.insertAll_abreast hT hd hapart) fun _ _ _ => .model fun m m' _ => ?_
  exact .bind .note fun _ _ _ => .pure trivial

end

end TypedApi.Conversion

/-! # Exchanging neighbours -/

namespace TypedApi

open Build

variable {m m' : Model}

/-! ## What lowering a shared schema does -/

/-- Items are appended, one of them is registered under a free path, and nothing else happens. -/
structure Model.Extends (path : String) (m m' : Model) : Prop where
  definitions : m.definitions <+: m'.definitions
  free : m.namedReferences.get? path = none
  own : ∃ index : Nat, m.size ≤ index ∧ index < m'.size ∧
    m'.namedReferences.get? path = some (index : Int)
  others : ∀ p, p ≠ path → m'.namedReferences.get? p = m.namedReferences.get? p
  operations : m'.operations = m.operations
  responseVariants : m'.responseVariants = m.responseVariants
  boundedIntegers : m'.boundedIntegers = m.boundedIntegers
  acceptHeader : m'.acceptHeader = m.acceptHeader
  finalized : m'.finalized = m.finalized

/-- Growth appends items. -/
theorem Model.Grows.definitions_prefix (h : m.Grows m') : m.definitions <+: m'.definitions := by
  induction h with
  | refl => exact List.prefix_rfl
  | tail _ hgets ih =>
    obtain ⟨_, item, rfl⟩ := hgets
    exact ih.trans (List.prefix_append _ _)

/-- A list is still the beginning after an element has been added and changed. -/
theorem prefix_modify_concat {α : Type} (l : List α) (a : α) (f : α → α) :
    l <+: (l ++ [a]).modify l.length f := by
  rw [List.prefix_iff_getElem?]
  intro i hi
  rw [List.getElem?_modify, List.getElem?_append_left hi, List.getElem?_eq_getElem hi,
    Option.map_eq_map, Option.map_some, if_neg (Nat.ne_of_gt hi)]

namespace Conversion

/-- **Lowering a shared schema extends the model** under its path. -/
theorem insertSchema_extends {key : String} {schema : Document} {w w' : Workbench}
    (h : exec (insertSchema (.text key, schema)) w = (.ok (), w')) :
    w.model.Extends (schemaPath key) w'.model := by
  obtain ⟨r, v, hadd, hpublish⟩ := of_exec_bind_ok h
  obtain ⟨item, u, hgrows, hitem⟩ := of_addSchema hadd
  rcases addItem_cases item (some (schemaPath key)) u with
    ⟨e, v', hfail, _⟩ | ⟨name, notes, _, _, _, hfree, hok⟩
  · rw [hfail] at hitem
    cases hitem
  · rw [hok] at hitem
    cases hitem
    -- the mark goes to the item that was added last
    have hsize : ∀ item path, (u.model.withItem item path).size = u.model.size + 1 := by
      simp [Model.size, Model.withItem]
    have hlast : ∀ item path,
        (u.model.withItem item path).indexOf (.back u.model.size) = .ok (u.model.size : Int) := by
      intro item path
      exact Model.indexOf_back (by rw [hsize]; omega)
    rw [publish, exec_modifyItem (hlast _ _) (by simp [hsize])] at hpublish
    cases hpublish
    have hsame := hgrows.sameBesidesItems
    have hle : w.model.size ≤ u.model.size := hgrows.definitions_prefix.length_le
    refine ⟨hgrows.definitions_prefix.trans ?_, hsame.namedReferences ▸ hfree _ rfl,
      ⟨u.model.size, hle, ?_, Table.get?_insert_self _ _ _⟩, fun p hp => ?_, hsame.operations,
      hsame.responseVariants, hsame.boundedIntegers, hsame.acceptHeader, hsame.finalized⟩
    · exact prefix_modify_concat _ _ _
    · simp [Model.size, Model.withChange, Model.withItem]
    · rw [← hsame.namedReferences]
      exact Table.get?_insert_of_ne _ _ hp

end Conversion

/-! ## Models on which shared schemas are lowered -/

/-- A model that keeps the promises of a construction and has nothing in it but items and paths. -/
structure Model.Staged (m : Model) : Prop where
  sound : Standard.pending.Sound m
  unfinished : m.finalized = false
  operations : m.operations = []
  responseVariants : m.responseVariants = []
  acceptHeader : m.acceptHeader = none

namespace Model.Staged

/-- The references of an item are below the count of items, apart from paths. -/
theorem below (hm : m.Staged) {i : Nat} {item : Item} (hitem : m.definitions[i]? = some item) :
    ∀ r ∈ item.shape.refs, r.Below m.size := by
  intro r hr index hindex
  have hlt := (List.getElem?_eq_some_iff.mp hitem).1
  obtain ⟨hnonneg, hbelow⟩ := ((hm.sound.definitions i item hitem).refs r hr).2 index hindex
  have hsize : i < m.size := hlt
  omega

/-- A registered path leads to one of the items. -/
theorem registered (hm : m.Staged) {path : String} {index : Int}
    (h : m.namedReferences.get? path = some index) : ∃ i : Nat, index = i ∧ i < m.size := by
  obtain ⟨hnonneg, hlt⟩ := (hm.sound.registered _ (Table.mem_of_get?_eq_some h)).2 index rfl
  obtain ⟨i, rfl⟩ := Int.eq_ofNat_of_zero_le hnonneg
  exact ⟨i, rfl, by omega⟩

theorem of_extends (hm : m.Staged) {path : String} (h : m.Extends path m')
    (hsound : Standard.pending.Sound m') : m'.Staged :=
  ⟨hsound, h.finalized.trans hm.unfinished, h.operations.trans hm.operations,
    h.responseVariants.trans hm.responseVariants, h.acceptHeader.trans hm.acceptHeader⟩

/-- Two such models are tied if their items and paths are. -/
theorem tied {T : Tie} (hm : m.Staged) (hm' : m'.Staged)
    (hbounded : m'.boundedIntegers = m.boundedIntegers) (hinjective : Function.Injective T.index)
    (hfresh : ∀ k, T.index (m.size + k) = m'.size + k)
    (hpaths : ∀ path, m'.namedReferences.get? path =
      match m.namedReferences.get? path with
      | some index => some (renumberIndex T.index index)
      | none => T.extra.get? path)
    (hapart : ∀ path index, T.extra.get? path = some index → m.namedReferences.get? path = none)
    (hitems : Agree T.index (Ref.leadsIn T.index m'.namedReferences)
      (Ref.lookIn m'.namedReferences) m.definitions m'.definitions) : Model.Tied T m m' where
  unfinished := hm.unfinished
  unfinished' := hm'.unfinished
  boundedIntegers := hbounded
  injective := hinjective
  fresh := hfresh
  paths := hpaths
  apart := hapart
  items := hitems
  operations := by rw [hm.operations, hm'.operations]; rfl
  shared := by rw [hm.responseVariants, hm'.responseVariants]; rfl
  accept := by rw [hm.acceptHeader, hm'.acceptHeader]; rfl

/-- Such a model is tied to itself. -/
theorem tied_self (hm : m.Staged) : Model.Tied (.ofPerm (.refl Nat)) m m := by
  refine hm.tied hm rfl Function.injective_id (fun _ => rfl) (fun path => ?_)
    (by simp [Tie.ofPerm, Table.get?]) fun i item hitem => ⟨item, hitem, ?_⟩
  · cases m.namedReferences.get? path with
    | none => rfl
    | some index => exact congrArg some (renumberIndex_id index).symm
  · congr 2
    funext r
    exact congrArg (Ref.lookIn _) (Ref.renumber_id r).symm

end Model.Staged

/-! ## A model and an extension of it -/

/-- Indices from `n` on are moved up by `k`. -/
def skip (n k i : Nat) : Nat :=
  if i < n then i else i + k

theorem skip_injective (n k : Nat) : Function.Injective (skip n k) := by
  intro i j hij
  simp only [skip] at hij
  split at hij <;> split at hij <;> omega

/-- The tie of a model and one that has more items and one more path. -/
def Tie.extended (m m' : Model) (path : String) (index : Nat) : Tie :=
  { index := skip m.size (m'.size - m.size), extra := [(path, (index : Int))] }

theorem Table.get?_singleton {α : Type} (key other : String) (value : α) :
    Table.get? [(key, value)] other = if key = other then some value else none :=
  rfl

/-- **A model is tied to an extension of it.** Its items keep their places, and what comes next will
come after the items that it does not have. -/
theorem Model.Staged.tied_extended (hm : m.Staged) {path : String} (h : m.Extends path m')
    (hm' : m'.Staged) {index : Nat} (hown : m'.namedReferences.get? path = some (index : Int)) :
    Model.Tied (.extended m m' path index) m m' := by
  have hle : m.size ≤ m'.size := h.definitions.length_le
  have hfirst : ∀ i < m.size, skip m.size (m'.size - m.size) i = i := fun i hi => if_pos hi
  refine hm.tied hm' h.boundedIntegers (skip_injective _ _) (fun k => ?_) (fun p => ?_)
    (fun p i hp => ?_) fun i item hitem => ⟨item, ?_, ?_⟩
  · simp only [Tie.extended, skip]
    split <;> omega
  · simp only [Tie.extended, Table.get?_singleton]
    by_cases hp : p = path
    · subst hp
      rw [h.free, hown, if_pos rfl]
    · rw [h.others p hp, if_neg (Ne.symm hp)]
      cases hget : m.namedReferences.get? p with
      | none => rfl
      | some index =>
        obtain ⟨i, rfl, hi⟩ := hm.registered hget
        dsimp only
        rw [renumberIndex_natCast, hfirst i hi]
  · simp only [Tie.extended, Table.get?_singleton] at hp
    split at hp
    · rename_i heq
      subst heq
      exact h.free
    · cases hp
  · have hlt : i < m.size := (List.getElem?_eq_some_iff.mp hitem).1
    rw [show (Tie.extended m m' path index).index i = i from hfirst i hlt]
    obtain ⟨new, hnew⟩ := h.definitions
    rw [← hnew, List.getElem?_append_left hlt, hitem]
  -- none of its references is to an item that is moved
  · congr 1
    refine Item.relocate_congr fun r hr => ?_
    rw [Ref.leadsIn]
    exact congrArg (Ref.lookIn _) ((Ref.renumber_id r).symm.trans
      (Ref.renumber_congr (fun i hi => (hfirst i hi).symm) (hm.below hitem r hr)))

/-! ## Two extensions in either order -/

/-- A block of `p` indices from `n` on changes places with the block of `q` indices after it. -/
def blockSwap (n p q i : Nat) : Nat :=
  if i < n then i else if i < n + p then i + q else if i < n + p + q then i - p else i

theorem blockSwap_blockSwap (n p q i : Nat) : blockSwap n q p (blockSwap n p q i) = i := by
  simp only [blockSwap]
  split
  · rfl
  · split
    · rw [if_neg (by omega), if_neg (by omega), if_pos (by omega)]
      omega
    · split
      · rw [if_neg (by omega), if_pos (by omega)]
        omega
      · rw [if_neg (by omega), if_neg (by omega)]

/-- The exchange of two blocks as a permutation. -/
def blockPerm (n p q : Nat) : Equiv.Perm Nat where
  toFun := blockSwap n p q
  invFun := blockSwap n q p
  left_inv := blockSwap_blockSwap n p q
  right_inv := blockSwap_blockSwap n q p

/-- A model, two extensions of it, and the extension of each of them that is lowered alike whether
the other is there or not. -/
structure Model.Diamond (path path' : String) (m m₁ m₂ m₁₂ m₂₁ : Model) : Prop where
  start : m.Staged
  first : m.Extends path m₁
  second : m.Extends path' m₂
  firstSecond : m₁.Extends path' m₁₂
  secondFirst : m₂.Extends path m₂₁
  staged₁ : m₁.Staged
  staged₂ : m₂.Staged
  staged₁₂ : m₁₂.Staged
  staged₂₁ : m₂₁.Staged
  ne : path ≠ path'
  tied₁ : ∃ index : Nat, m₂.namedReferences.get? path' = some (index : Int) ∧
    Model.Tied (.extended m m₂ path' index) m₁ m₂₁
  tied₂ : ∃ index : Nat, m₁.namedReferences.get? path = some (index : Int) ∧
    Model.Tied (.extended m m₁ path index) m₂ m₁₂

namespace Model.Diamond

variable {path path' : String} {m₁ m₂ m₁₂ m₂₁ : Model}

/-- The exchange of the blocks takes the items of the first extension where they stand after those
of the second. -/
theorem blockSwap_of_lt (h : Model.Diamond path path' m m₁ m₂ m₁₂ m₂₁) {i : Nat} (hi : i < m₁.size) :
    blockSwap m.size (m₁.size - m.size) (m₂.size - m.size) i = skip m.size (m₂.size - m.size) i := by
  have hle := h.first.definitions.length_le
  have hsize : m.size ≤ m₁.size := hle
  simp only [blockSwap, skip]
  split
  · rfl
  · rw [if_pos (by omega)]

/-- And it takes those of the second extension back from where they stand after those of the
first. -/
theorem blockSwap_skip (h : Model.Diamond path path' m m₁ m₂ m₁₂ m₂₁) {i : Nat} (hi : i < m₂.size) :
    blockSwap m.size (m₁.size - m.size) (m₂.size - m.size) (skip m.size (m₁.size - m.size) i) =
      i := by
  have hle := h.second.definitions.length_le
  have hsize : m.size ≤ m₂.size := hle
  simp only [blockSwap, skip]
  split
  · rfl
  · rw [if_neg (by omega), if_neg (by omega), if_pos (by omega)]
    omega

/-- What the two ways around have in the end is what was there, and the items of both extensions. -/
theorem sizes (h : Model.Diamond path path' m m₁ m₂ m₁₂ m₂₁) :
    m.size ≤ m₁.size ∧ m.size ≤ m₂.size ∧ m₁₂.size = m₁.size + (m₂.size - m.size) ∧
      m₂₁.size = m₁.size + (m₂.size - m.size) := by
  have hle : m.size ≤ m₁.size := h.first.definitions.length_le
  have hle' : m.size ≤ m₂.size := h.second.definitions.length_le
  obtain ⟨_, _, htied⟩ := h.tied₁
  obtain ⟨_, _, htied'⟩ := h.tied₂
  have hfresh := htied.fresh 0
  have hfresh' := htied'.fresh 0
  simp only [Tie.extended, skip] at hfresh hfresh'
  rw [if_neg (by omega)] at hfresh hfresh'
  refine ⟨hle, hle', ?_, ?_⟩ <;> omega

/-- Every path leads to corresponding items on the two ways around. -/
theorem paths (h : Model.Diamond path path' m m₁ m₂ m₁₂ m₂₁) (p : String) :
    m₂₁.namedReferences.get? p = (m₁₂.namedReferences.get? p).map
      (renumberIndex (blockSwap m.size (m₁.size - m.size) (m₂.size - m.size))) := by
  by_cases hp : p = path
  · subst hp
    obtain ⟨index, _, hlt, hown⟩ := h.first.own
    obtain ⟨_, _, htied⟩ := h.tied₁
    rw [htied.paths, h.firstSecond.others p h.ne, hown, Option.map_some]
    dsimp only [Tie.extended]
    rw [renumberIndex_natCast, renumberIndex_natCast, h.blockSwap_of_lt hlt]
  · by_cases hp' : p = path'
    · subst hp'
      obtain ⟨index, _, hlt, hown⟩ := h.second.own
      obtain ⟨_, _, htied⟩ := h.tied₂
      rw [htied.paths, h.secondFirst.others p hp, hown, Option.map_some]
      dsimp only [Tie.extended]
      rw [renumberIndex_natCast, renumberIndex_natCast, h.blockSwap_skip hlt]
    -- any other path was there before, and leads to an item that keeps its place
    · rw [h.secondFirst.others p hp, h.second.others p hp', h.firstSecond.others p hp',
        h.first.others p hp]
      cases hget : m.namedReferences.get? p with
      | none => rfl
      | some index =>
        obtain ⟨i, rfl, hi⟩ := h.start.registered hget
        rw [Option.map_some, renumberIndex_natCast, blockSwap, if_pos hi]

theorem items (h : Model.Diamond path path' m m₁ m₂ m₁₂ m₂₁) :
    Agree (blockSwap m.size (m₁.size - m.size) (m₂.size - m.size))
      (Ref.leadsIn (blockSwap m.size (m₁.size - m.size) (m₂.size - m.size)) m₂₁.namedReferences)
      (Ref.lookIn m₂₁.namedReferences) m₁₂.definitions m₂₁.definitions := by
  intro i item hitem
  by_cases hi : i < m₁.size
  -- an item of the first extension, which is made again after the second one
  · have hitem₁ : m₁.definitions[i]? = some item := by
      obtain ⟨new, hnew⟩ := h.firstSecond.definitions
      rwa [← hnew, List.getElem?_append_left hi] at hitem
    obtain ⟨_, _, htied⟩ := h.tied₁
    obtain ⟨item', hitem', hsame⟩ := htied.items i item hitem₁
    refine ⟨item', (h.blockSwap_of_lt hi).symm ▸ hitem', hsame.trans ?_⟩
    congr 1
    refine Item.relocate_congr fun r hr => congrArg (Ref.lookIn _) ?_
    exact Ref.renumber_congr (fun j hj => (h.blockSwap_of_lt hj).symm) (h.staged₁.below hitem₁ r hr)
  -- an item of the second extension, which was made before the first one
  · obtain ⟨hle, hle', hsize, _⟩ := h.sizes
    have hlt : i < m₁₂.size := (List.getElem?_eq_some_iff.mp hitem).1
    obtain ⟨j, rfl⟩ : ∃ j, i = j + (m₁.size - m.size) := ⟨i - (m₁.size - m.size), by omega⟩
    have hj : j < m₂.size := by omega
    have hskip : skip m.size (m₁.size - m.size) j = j + (m₁.size - m.size) := if_neg (by omega)
    have hback := h.blockSwap_skip hj
    rw [hskip] at hback
    obtain ⟨item₂, hitem₂⟩ : ∃ item₂, m₂.definitions[j]? = some item₂ :=
      ⟨_, List.getElem?_eq_getElem hj⟩
    obtain ⟨_, _, htied⟩ := h.tied₂
    obtain ⟨item', hitem', hsame⟩ := htied.items j item₂ hitem₂
    dsimp only [Tie.extended] at hitem' hsame
    rw [hskip, hitem] at hitem'
    cases hitem'
    refine ⟨item₂, ?_, ?_⟩
    · obtain ⟨new, hnew⟩ := h.secondFirst.definitions
      rw [hback, ← hnew, List.getElem?_append_left hj, hitem₂]
    -- both are compared after all paths have been looked up on the way that ends with the first
    have hpaths : ∀ p index, m₁₂.namedReferences.get? p = some index →
        m₂₁.namedReferences.get? p = some (renumberIndex
          (blockSwap m.size (m₁.size - m.size) (m₂.size - m.size)) index) := by
      intro p index hget
      rw [h.paths, hget]
      rfl
    have hlooked := Item.relocate_of_nameless (g := Ref.leadsIn
      (blockSwap m.size (m₁.size - m.size) (m₂.size - m.size)) m₂₁.namedReferences) hsame
    rw [Item.relocate_relocate, Item.relocate_relocate, Ref.leadsIn_comp_lookIn hpaths,
      Ref.leadsIn_comp_leadsIn hpaths] at hlooked
    rw [hlooked]
    congr 1
    refine Item.relocate_congr fun r hr => congrArg (Ref.lookIn _) ((Ref.renumber_id r).symm.trans ?_)
    exact Ref.renumber_congr (fun k hk => (h.blockSwap_skip hk).symm) (h.staged₂.below hitem₂ r hr)

/-- **The two ways around are tied**: the items of the two extensions change places as blocks. -/
theorem tied (h : Model.Diamond path path' m m₁ m₂ m₁₂ m₂₁) :
    Model.Tied (.ofPerm (blockPerm m.size (m₁.size - m.size) (m₂.size - m.size))) m₁₂ m₂₁ := by
  have hbounded : m₂₁.boundedIntegers = m₁₂.boundedIntegers := by
    rw [h.secondFirst.boundedIntegers, h.second.boundedIntegers, h.firstSecond.boundedIntegers,
      h.first.boundedIntegers]
  refine h.staged₁₂.tied h.staged₂₁ hbounded (Equiv.injective _) (fun k => ?_) (fun p => ?_)
    (by simp [Tie.ofPerm, Table.get?]) h.items
  · obtain ⟨_, _, hsize, hsize'⟩ := h.sizes
    rw [hsize, hsize']
    exact (if_neg (by omega)).trans ((if_neg (by omega)).trans (if_neg (by omega)))
  · rw [h.paths]
    cases m₁₂.namedReferences.get? p <;> rfl

end Model.Diamond

/-! ## Runs in any order -/

/-- A workbench on which shared schemas are lowered, without a source of external documentation. -/
structure Workbench.Staged (w : Workbench) : Prop where
  model : w.model.Staged
  docs : w.docs = none

/-- Two runs that both fail, or both answer and leave models that are the same but for the order and
the names of their items. -/
def SameUpToOrder (p q : Except Failure PUnit × Workbench) : Prop :=
  ∃ σ : Equiv.Perm Nat, Level (.ofPerm σ) (fun _ _ => True) p q

theorem SameUpToOrder.fail (e e' : Failure) (u v : Workbench) :
    SameUpToOrder (.error e, u) (.error e', v) :=
  ⟨.refl Nat, .fail e e' u v⟩

theorem SameUpToOrder.trans {p q r : Except Failure PUnit × Workbench} (h : SameUpToOrder p q)
    (h' : SameUpToOrder q r) : SameUpToOrder p r := by
  obtain ⟨σ, h⟩ := h
  obtain ⟨τ, h'⟩ := h'
  cases h with
  | fail e e' u v =>
    obtain ⟨e'', v', rfl⟩ := h'.of_error
    exact .fail e e'' u v'
  | answer a b u v huv _ =>
    obtain ⟨c, v', rfl, hvv', _⟩ := h'.of_ok
    exact ⟨σ.trans τ, .answer a c u v' ⟨huv.models.trans hvv'.models, huv.docs, hvv'.docs'⟩ trivial⟩

namespace Conversion

variable {w w' : Workbench}

theorem staged_start (options : ConversionOptions) : (start options none).Staged :=
  ⟨⟨Standard.sound_empty _, rfl, rfl, rfl, rfl⟩, by simp [start]⟩

/-- Lowering a shared schema leaves a workbench on which the next one is lowered. -/
theorem staged_insertSchema (hw : w.Staged) {key : String} {schema : Document}
    (h : exec (insertSchema (.text key, schema)) w = (.ok (), w')) : w'.Staged := by
  have hsound := ((insertSchema_along _).steps_of_exec hw.model.sound h).2
  have hstraight := Tie.straight_ofPerm (.refl Nat)
  have hself := (insertSchema_abreast hstraight.internal schema (hstraight.free (schemaPath key))).runs w w
    ⟨hw.model.tied_self, hw.docs, hw.docs⟩
  rw [h] at hself
  obtain ⟨_, _, _, htied, _⟩ := hself.of_ok
  exact ⟨hw.model.of_extends (insertSchema_extends h) hsound, htied.docs⟩

/-- **A shared schema is lowered alike before and after another one.** -/
theorem insertSchema_after (hw : w.Staged) {key other : String} (schema : Document)
    {schema' : Document} (hne : key ≠ other)
    (h : exec (insertSchema (.text other, schema')) w = (.ok (), w')) :
    ∃ index : Nat, w'.model.namedReferences.get? (schemaPath other) = some (index : Int) ∧
      Level (.extended w.model w'.model (schemaPath other) index) (fun _ _ => True)
        (exec (insertSchema (.text key, schema)) w)
        (exec (insertSchema (.text key, schema)) w') := by
  have hextends := insertSchema_extends h
  have hstaged := staged_insertSchema hw h
  obtain ⟨index, _, _, hown⟩ := hextends.own
  have hinternal : (Tie.extended w.model w'.model (schemaPath other) index).Internal := by
    intro path i hpath
    simp only [Tie.extended, Table.get?_singleton] at hpath
    split at hpath
    · rename_i heq
      rw [← heq]
      exact isExternal_schemaPath other
    · cases hpath
  have hfree : (Tie.extended w.model w'.model (schemaPath other) index).extra.get?
      (schemaPath key) = none := by
    simp only [Tie.extended, Table.get?_singleton]
    exact if_neg fun heq => hne ((String.append_right_inj _).mp heq).symm
  exact ⟨index, hown, (insertSchema_abreast hinternal schema hfree).runs w w'
    ⟨hw.model.tied_extended hextends hstaged.model hown, hw.docs, hstaged.docs⟩⟩

/-- **Two neighbours can be exchanged.** -/
theorem insertSchema_swap (hw : w.Staged) {a b : String} (schema schema' : Document) (hne : a ≠ b) :
    SameUpToOrder
      (exec (insertSchema (.text a, schema) >>= fun _ => insertSchema (.text b, schema')) w)
      (exec (insertSchema (.text b, schema') >>= fun _ => insertSchema (.text a, schema)) w) := by
  rcases ha : exec (insertSchema (.text a, schema)) w with ⟨e | _, wa⟩
  · rw [exec_bind_error ha]
    rcases hb : exec (insertSchema (.text b, schema')) w with ⟨e' | _, wb⟩
    · rw [exec_bind_error hb]
      exact .fail e e' wa wb
    -- what fails at once fails after the other one as well
    · obtain ⟨_, _, hlevel⟩ := insertSchema_after hw schema hne hb
      rw [ha] at hlevel
      obtain ⟨e', v, hfail⟩ := hlevel.of_error
      rw [exec_bind_ok hb, hfail]
      exact .fail e e' wa v
  · rw [exec_bind_ok ha]
    obtain ⟨index, hown, hlevel⟩ := insertSchema_after hw schema' hne.symm ha
    rcases hb : exec (insertSchema (.text b, schema')) w with ⟨e' | _, wb⟩
    · rw [hb] at hlevel
      obtain ⟨e, v, hfail⟩ := hlevel.of_error
      rw [exec_bind_error hb, hfail]
      exact .fail e e' v wb
    · rw [hb] at hlevel
      rw [exec_bind_ok hb]
      obtain ⟨_, wab, hab, htied, _⟩ := hlevel.of_ok
      obtain ⟨index', hown', hlevel'⟩ := insertSchema_after hw schema hne hb
      rw [ha] at hlevel'
      obtain ⟨_, wba, hba, htied', _⟩ := hlevel'.of_ok
      have hstaged := staged_insertSchema hw ha
      have hstaged' := staged_insertSchema hw hb
      have hdiamond : Model.Diamond (schemaPath a) (schemaPath b) w.model wa.model wb.model wab.model
          wba.model :=
        { start := hw.model
          first := insertSchema_extends ha
          second := insertSchema_extends hb
          firstSecond := insertSchema_extends hab
          secondFirst := insertSchema_extends hba
          staged₁ := hstaged.model
          staged₂ := hstaged'.model
          staged₁₂ := (staged_insertSchema hstaged hab).model
          staged₂₁ := (staged_insertSchema hstaged' hba).model
          ne := fun heq => hne ((String.append_right_inj _).mp heq)
          tied₁ := ⟨index', hown', htied'.models⟩
          tied₂ := ⟨index, hown, htied.models⟩ }
      rw [hab, hba]
      exact ⟨_, .answer _ _ _ _ ⟨hdiamond.tied, htied.docs', htied'.docs'⟩ trivial⟩

/-- **Shared schemas can be lowered in any order.** The induction is on the permutation: the same
entry in front on both sides, or two neighbours exchanged. -/
theorem forM_insertSchema_perm {schemas schemas' : Table Document} (hperm : schemas.Perm schemas')
    (hdistinct : schemas.keys.Nodup) (hw : w.Staged) :
    SameUpToOrder (exec ((Document.textFields schemas).forM insertSchema) w)
      (exec ((Document.textFields schemas').forM insertSchema) w) := by
  induction hperm generalizing w with
  | nil => exact ⟨.refl Nat, .answer _ _ _ _ ⟨hw.model.tied_self, hw.docs, hw.docs⟩ trivial⟩
  | cons p _ ih =>
    obtain ⟨key, schema⟩ := p
    simp only [Document.textFields, List.map_cons, forM_cons]
    rcases h : exec (insertSchema (.text key, schema)) w with ⟨e | _, u⟩
    · rw [exec_bind_error h, exec_bind_error h]
      exact .fail e e u u
    · rw [exec_bind_ok h, exec_bind_ok h]
      exact ih (List.nodup_cons.mp hdistinct).2 (staged_insertSchema hw h)
  | swap p q l =>
    obtain ⟨a, schema⟩ := p
    obtain ⟨b, schema'⟩ := q
    have hne : b ≠ a := by
      rintro rfl
      exact (List.nodup_cons.mp hdistinct).1 List.mem_cons_self
    simp only [Document.textFields, List.map_cons, forM_cons, ← bind_assoc]
    obtain ⟨σ, hlevel⟩ := insertSchema_swap hw schema' schema hne
    have hstraight := Tie.straight_ofPerm σ
    refine ⟨σ, hlevel.bind fun _ _ _ => .forM fun entry hentry => ?_⟩
    obtain ⟨p, _, rfl⟩ := List.mem_map.mp hentry
    exact insertSchema_abreast hstraight.internal p.2 (hstraight.free _)
  | trans hperm _ ih ih' =>
    exact (ih hdistinct hw).trans (ih' ((hperm.map Prod.fst).nodup_iff.mp hdistinct) hw)

end Conversion

end TypedApi
