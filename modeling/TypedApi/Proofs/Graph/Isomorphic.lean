import TypedApi.Proofs.Build.Abreast
import Mathlib.Data.Finset.Card
import Mathlib.Data.Finset.Range
/-!
Finished models that are the same but for numbers and names.

Two tied models that know the same paths can be finished both or not at all,
since corresponding references lead to corresponding items or both nowhere. When
they are finished, the renumbering of their items is an isomorphism: every item,
operation and shared response of one is that of the other with its references
renumbered. Only names differ: the generated ones, those that aliases take over
from the item inside, and the display names of variants without a tag of their
own, which come from the names of items.
-/

set_option autoImplicit false

namespace TypedApi

variable {m m' : Model}

/-! ## What names leave of an item -/

/-- A variant without its display name, unless the name comes from the variant's own tag. -/
def Variant.anonymous (v : Variant) : Variant :=
  if v.taggedBase?.isSome then v else v.unnamed

/-- A shape without the display names that come from the names of items. -/
def Shape.anonymous : Shape → Shape
  | .oneOf discriminant variants => .oneOf discriminant (variants.map Variant.anonymous)
  | other => other

/-- An item without its name and without those that come from the names of other items. -/
def Item.anonymous (item : Item) : Item :=
  { item.nameless with shape := item.shape.anonymous }

/-- **Two models that are the same but for numbers and names**: a renumbering takes the items of the
first one to those of the second, every registered path with its item, and keeps everything that is
not a name, its references renumbered. -/
structure Model.Isomorphic (σ : Equiv.Perm Nat) (m m' : Model) : Prop where
  size : m'.size = m.size
  inside : ∀ i, σ i < m'.size ↔ i < m.size
  items : ∀ i item, m.definitions[i]? = some item → ∃ item', m'.definitions[σ i]? = some item' ∧
    item'.anonymous = (item.relocate (Ref.renumber σ)).anonymous
  namedReferences : ∀ path, m'.namedReferences.get? path =
    (m.namedReferences.get? path).map (renumberIndex σ)
  operations : m'.operations = m.operations.map (Operation.relocate (Ref.renumber σ))
  responseVariants : m'.responseVariants.mapValues (List.map Variant.anonymous) =
    (relocateShared (Ref.renumber σ) m.responseVariants).mapValues (List.map Variant.anonymous)
  boundedIntegers : m'.boundedIntegers = m.boundedIntegers
  acceptHeader : m'.acceptHeader = m.acceptHeader.map (Ref.renumber σ)
  finalized : m'.finalized = m.finalized

/-! ## The names that tags give -/

/-- A variant with the name that its tag gives at a position, if it has a tag. -/
def Variant.labelled (index : Nat) (v : Variant) : Variant :=
  match v.taggedBase? with
  | some base => { v with name := .named (nameFrom index (some base)) }
  | none => v.unnamed

/-- Variants with the names that their tags give, counted from a position on. -/
def labelVariants (index : Nat) : List Variant → List Variant
  | [] => []
  | v :: rest => v.labelled index :: labelVariants (index + 1) rest

/-- An item without a name, its variants with the names that their tags give. -/
def Item.labelled (item : Item) : Item :=
  { item.nameless with
    shape :=
      match item.shape with
      | .oneOf discriminant variants => .oneOf discriminant (labelVariants 0 variants)
      | other => other }

/-- Tags do not depend on references. -/
theorem Variant.labelled_relocate (g : Ref → Ref) (index : Nat) (v : Variant) :
    (v.relocate g).labelled index = (v.labelled index).relocate g := by
  have htag : (v.relocate g).taggedBase? = v.taggedBase? := rfl
  rw [labelled, labelled, htag]
  cases v.taggedBase? <;> rfl

theorem labelVariants_relocate (g : Ref → Ref) (index : Nat) (vs : List Variant) :
    labelVariants index (vs.map (Variant.relocate g)) =
      (labelVariants index vs).map (Variant.relocate g) := by
  induction vs generalizing index with
  | nil => rfl
  | cons v vs ih => simp only [List.map_cons, labelVariants, ih, Variant.labelled_relocate]

theorem Item.labelled_relocate (g : Ref → Ref) (item : Item) :
    (item.relocate g).labelled = item.labelled.relocate g := by
  simp only [labelled, relocate, nameless]
  cases item.shape with
  | oneOf discriminant vs => simp only [Shape.relocate_oneOf, labelVariants_relocate]
  | _ => rfl

theorem Item.labelled_nameless (item : Item) : item.nameless.labelled = item.labelled := by
  simp [labelled, nameless, Function.comp_def]

theorem Variant.anonymous_relocate (g : Ref → Ref) (v : Variant) :
    (v.relocate g).anonymous = v.anonymous.relocate g := by
  have htag : (v.relocate g).taggedBase? = v.taggedBase? := rfl
  rw [anonymous, anonymous, htag]
  split <;> rfl

/-- The name of a variant is kept if its tag gives one. -/
theorem Variant.anonymous_named (v : Variant) (name : VariantName) :
    ({ v with name } : Variant).anonymous =
      if v.taggedBase?.isSome then { v with name } else v.unnamed :=
  rfl

theorem Item.anonymous_relocate (g : Ref → Ref) (item : Item) :
    (item.relocate g).anonymous = item.anonymous.relocate g := by
  simp only [anonymous, relocate, nameless]
  cases item.shape with
  | oneOf discriminant vs =>
    simp only [Shape.relocate_oneOf, Shape.anonymous, List.map_map, Function.comp_def,
      Variant.anonymous_relocate]
  | _ => rfl

/-- Shared variants may be relocated before or after their names are left out. -/
theorem anonymous_relocateShared (g : Ref → Ref) (shared : Table (List Variant)) :
    (relocateShared g shared).mapValues (List.map Variant.anonymous) =
      relocateShared g (shared.mapValues (List.map Variant.anonymous)) := by
  simp only [relocateShared, Table.mapValues, List.map_map, Function.comp_def,
    Variant.anonymous_relocate]

theorem labelled_relocateShared (g : Ref → Ref) (shared : Table (List Variant)) :
    (relocateShared g shared).mapValues (labelVariants 0) =
      relocateShared g (shared.mapValues (labelVariants 0)) := by
  simp only [relocateShared, Table.mapValues, List.map_map, Function.comp_def,
    labelVariants_relocate]

namespace Model

variable {nameOf : Ref → Except Failure (Option String)}

/-- A variant that has been named is labelled, whatever the names of items are. -/
theorem anonymous_of_assignName {v v' : Variant} {index : Nat}
    (h : v.assignName index nameOf = .ok v') : v'.anonymous = v.labelled index := by
  rw [Variant.assignName] at h
  rw [Variant.labelled]
  cases hname : v.name with
  | named value =>
    rw [hname] at h
    cases h
  | unnamed =>
    rw [hname] at h
    dsimp only at h
    cases htag : v.taggedBase? with
    | some base =>
      rw [htag] at h
      cases h
      rw [Variant.anonymous_named, htag]
      rfl
    | none =>
      rw [htag] at h
      dsimp only at h
      cases hbase : nameOf v.definition with
      | error e =>
        rw [hbase] at h
        cases h
      | ok base =>
        rw [hbase] at h
        cases h
        rw [Variant.anonymous_named, htag]
        rfl

/-- **Named variants are labelled.** -/
theorem anonymous_nameVariants {index : Nat} {vs : List Variant}
    (h : (nameVariants nameOf index vs).2 = none) :
    (nameVariants nameOf index vs).1.map Variant.anonymous = labelVariants index vs := by
  induction vs generalizing index with
  | nil => rfl
  | cons v vs ih =>
    rw [nameVariants] at h ⊢
    cases hassign : v.assignName index nameOf with
    | error e =>
      rw [hassign] at h
      cases h
    | ok v' =>
      rw [hassign] at h
      simp only [labelVariants, List.map_cons, ih h, anonymous_of_assignName hassign]

/-- A named item is labelled. -/
theorem anonymous_nameItem {item : Item} (h : (nameItem nameOf item).2 = none) :
    (nameItem nameOf item).1.anonymous = item.labelled := by
  rw [nameItem] at h ⊢
  cases hshape : item.shape with
  | oneOf discriminant vs =>
    rw [hshape] at h
    simp only [Item.anonymous, Item.labelled, Item.nameless, Shape.anonymous, hshape,
      anonymous_nameVariants h]
  | _ => simp [Item.anonymous, Item.labelled, Item.nameless, Shape.anonymous, hshape]

/-- **A model that has been named**: its items and its shared responses are labelled, and everything
else is as it was. -/
theorem anonymous_nameAll (h : m.nameAll.2 = none) :
    m.nameAll.1.definitions.map Item.anonymous = m.definitions.map Item.labelled ∧
      m.nameAll.1.responseVariants.mapValues (List.map Variant.anonymous) =
        m.responseVariants.mapValues (labelVariants 0) := by
  revert h
  unfold nameAll
  extract_lets nameOf step
  rcases heach : eachUntil (nameItem nameOf) m.definitions with ⟨definitions, _ | e⟩
  · intro h
    obtain ⟨hitems, hnamed⟩ := eachUntil_eq_map (congrArg Prod.snd heach)
    have hend : (eachUntil step m.responseVariants).2 = none := h
    obtain ⟨hshared, hnamed'⟩ := eachUntil_eq_map hend
    rw [heach] at hitems
    dsimp only at hitems ⊢
    rw [hitems, hshared, List.map_map, Table.mapValues, List.map_map]
    refine ⟨List.map_congr_left fun item hitem => anonymous_nameItem (hnamed item hitem),
      List.map_congr_left fun p hp => ?_⟩
    exact congrArg (Prod.mk p.1) (anonymous_nameVariants (hnamed' p hp))
  · intro h
    cases h

end Model

/-! ## Where references lead in tied models -/

namespace Model.Tied

variable {σ : Equiv.Perm Nat}

/-- Paths of the second model lead where those of the first one do. -/
theorem get?_paths (h : Model.Tied (.ofPerm σ) m m') (path : String) :
    m'.namedReferences.get? path = (m.namedReferences.get? path).map (renumberIndex σ) := by
  rw [h.paths]
  cases m.namedReferences.get? path <;> rfl

/-- An index is in range if it was before the renumbering. -/
theorem inRange_renumber (h : Model.Tied (.ofPerm σ) m m') (index : Int) :
    m'.inRange (renumberIndex σ index) = m.inRange index :=
  h.inRange_iff index

/-- A renumbered reference leads somewhere if the reference did. -/
theorem leads_renumber (h : Model.Tied (.ofPerm σ) m m') (r : Ref) :
    m'.Leads (r.renumber σ) ↔ m.Leads r := by
  cases r with
  | forward path =>
    rw [Ref.renumber, Leads, Leads, ← not_iff_not, ← Table.get?_eq_none_iff,
      ← Table.get?_eq_none_iff, h.get?_paths, Option.map_eq_none_iff]
  | back index | resolved index =>
    rw [Ref.renumber, Leads, Leads, ← Model.inRange_iff, ← Model.inRange_iff, h.inRange_renumber]

/-- Resolving and renumbering can be done in either order. -/
theorem settle_renumber (h : Model.Tied (.ofPerm σ) m m') (r : Ref) :
    settle m'.resolved (r.renumber σ) = (settle m.resolved r).renumber σ := by
  cases r with
  | forward path =>
    have hpath := h.get?_paths path
    cases hget : m.namedReferences.get? path with
    | none =>
      rw [hget] at hpath
      simp only [Ref.renumber, settle, resolved, indexOf, hpath, hget, Option.map_none, fail]
    | some index =>
      rw [hget] at hpath
      simp only [Ref.renumber, settle, resolved, indexOf, hpath, hget, Option.map_some]
  | back index | resolved index =>
    simp only [Ref.renumber, settle, resolved, indexOf, h.inRange_renumber]
    cases m.inRange index <;> simp [fail]

/-- The renumbering stays within the items. -/
theorem inside (h : Model.Tied (.ofPerm σ) m m') (i : Nat) : σ i < m'.size ↔ i < m.size := by
  have hrange := h.inRange_renumber (i : Int)
  rw [renumberIndex_natCast, Bool.eq_iff_iff, Model.inRange_iff, Model.inRange_iff] at hrange
  omega

/-- There are as many items in both models. -/
theorem size_eq (h : Model.Tied (.ofPerm σ) m m') : m'.size = m.size := by
  have hrange : (Finset.range m.size).map σ.toEmbedding = Finset.range m'.size := by
    ext j
    obtain ⟨i, rfl⟩ := σ.surjective j
    simp [h.inside]
  have hcard := congrArg Finset.card hrange
  rw [Finset.card_map, Finset.card_range, Finset.card_range] at hcard
  exact hcard.symm

end Model.Tied

/-- What finishing makes of a model, names aside: references are resolved, and variants are labelled. -/
structure Model.Finished (m final : Model) : Prop where
  size : final.size = m.size
  items : ∀ i : Nat, (final.definitions[i]?).map Item.anonymous =
    (m.definitions[i]?).map fun item => (item.relocate (settle m.resolved)).labelled
  namedReferences : final.namedReferences = m.namedReferences
  operations : final.operations = m.operations.map (Operation.relocate (settle m.resolved))
  responseVariants : final.responseVariants.mapValues (List.map Variant.anonymous) =
    (relocateShared (settle m.resolved) m.responseVariants).mapValues (labelVariants 0)
  boundedIntegers : final.boundedIntegers = m.boundedIntegers
  acceptHeader : final.acceptHeader = none
  finalized : final.finalized = true

namespace Model.Pending

/-- A path may be looked up before a reference is resolved. -/
theorem settle_comp_lookIn (hm : m.Pending) :
    settle m.resolved ∘ Ref.lookIn m.namedReferences = settle m.resolved := by
  funext r
  cases r with
  | forward path =>
    cases hget : m.namedReferences.get? path with
    | none => simp only [Function.comp_apply, Ref.lookIn, hget]
    | some index =>
      have hrange := Model.inRange_iff.mpr (hm.registered _ (Table.mem_of_get?_eq_some hget))
      simp only [Function.comp_apply, Ref.lookIn, settle, resolved, indexOf, hget, hrange, if_true]
  | _ => rfl

theorem leads_lookIn (hm : m.Pending) (r : Ref) :
    m.Leads (r.lookIn m.namedReferences) ↔ m.Leads r := by
  cases r with
  | forward path =>
    cases hget : m.namedReferences.get? path with
    | none => simp only [Ref.lookIn, hget]
    | some index =>
      have hmem := Table.mem_of_get?_eq_some hget
      simp only [Ref.lookIn, hget, Leads]
      exact iff_of_true (hm.registered _ hmem) (List.mem_map_of_mem hmem)
  | _ => rfl

/-- A pending model can be finished exactly if all its references lead to items. -/
theorem finish_eq_none_iff (hm : m.Pending) : m.finish.2 = none ↔ ∀ r ∈ m.refs, m.Leads r := by
  rcases finish_cases hm.unfinished with ⟨e, hfinish, r, hr, he⟩ | ⟨hfinish, hrefs⟩
  · rw [hfinish]
    refine iff_of_false (by simp) fun hleads => ?_
    obtain ⟨index, hindex⟩ := indexOf_ok_iff.mpr (hleads r hr)
    rw [he] at hindex
    cases hindex
  · rw [hfinish]
    refine iff_of_true (nameAll_settled hm hrefs) fun r hr => ?_
    obtain ⟨index, hindex, _⟩ := resolved_eq_ok_iff.mp (hrefs r hr)
    exact indexOf_ok_iff.mp ⟨index, hindex⟩

/-- **A pending model that can be finished**: its references are resolved, its variants are labelled,
and everything else is as it was. -/
theorem finished (hm : m.Pending) (h : m.finish.2 = none) : m.Finished m.finish.1 := by
  rcases finish_cases hm.unfinished with ⟨e, hfinish, _⟩ | ⟨hfinish, _⟩
  · rw [hfinish] at h
    cases h
  · rw [hfinish] at h ⊢
    have hsame := unnamed_nameAll m.settled
    obtain ⟨hitems, hshared⟩ := anonymous_nameAll h
    have hsize := congrArg Model.size hsame
    rw [size_unnamed, size_unnamed] at hsize
    refine ⟨hsize.trans (size_relocate _ _), fun i => ?_, (congrArg Model.namedReferences hsame :),
      (congrArg Model.operations hsame :), hshared, (congrArg Model.boundedIntegers hsame :),
      (congrArg Model.acceptHeader hsame :), (congrArg Model.finalized hsame :)⟩
    rw [← List.getElem?_map, hitems, settled, relocate, List.map_map, List.getElem?_map]
    rfl

end Model.Pending

/-! ## Finishing tied models -/

namespace Model.Tied

variable {σ : Equiv.Perm Nat}

/-- Corresponding references lead to items both or not at all. -/
theorem leads_iff (h : Model.Tied (.ofPerm σ) m m') (hm' : m'.Pending) {refs refs' : List Ref}
    (hrefs : refs'.map (Ref.lookIn m'.namedReferences) =
      refs.map (Ref.leadsIn σ m'.namedReferences)) :
    (∀ r ∈ refs', m'.Leads r) ↔ ∀ r ∈ refs, m.Leads r := by
  have hall := congrArg (fun l => ∀ r ∈ l, m'.Leads r) hrefs
  simpa only [List.forall_mem_map, hm'.leads_lookIn, Ref.leadsIn, h.leads_renumber, eq_iff_iff]
    using hall

/-- The same for the references of all items: every item of the second model corresponds to one of
the first. -/
theorem leads_items_iff (h : Model.Tied (.ofPerm σ) m m') (hm' : m'.Pending) :
    (∀ item ∈ m'.definitions, ∀ r ∈ item.shape.refs, m'.Leads r) ↔
      ∀ item ∈ m.definitions, ∀ r ∈ item.shape.refs, m.Leads r := by
  have hpair : ∀ {item item' : Item},
      (item'.relocate (Ref.lookIn m'.namedReferences)).nameless =
        (item.relocate (Ref.leadsIn σ m'.namedReferences)).nameless →
      ((∀ r ∈ item'.shape.refs, m'.Leads r) ↔ ∀ r ∈ item.shape.refs, m.Leads r) := by
    intro item item' hsame
    have hrefs := congrArg (fun i : Item => i.shape.refs) hsame
    simp only [Item.nameless, Item.relocate, Shape.refs_relocate] at hrefs
    exact h.leads_iff hm' hrefs
  constructor
  · intro hall item hitem
    obtain ⟨i, hi⟩ := List.mem_iff_getElem?.mp hitem
    obtain ⟨item', hitem', hsame⟩ := h.items i item hi
    exact (hpair hsame).mp (hall item' (List.mem_of_getElem? hitem'))
  · intro hall item' hitem'
    obtain ⟨j, hj⟩ := List.mem_iff_getElem?.mp hitem'
    obtain ⟨i, rfl⟩ := σ.surjective j
    have hlt : i < m.definitions.length := (h.inside i).mp (List.getElem?_eq_some_iff.mp hj).1
    obtain ⟨item'', hitem'', hsame⟩ := h.items i _ (List.getElem?_eq_getElem hlt)
    cases hj.symm.trans hitem''
    exact (hpair hsame).mpr (hall _ (List.getElem_mem hlt))

/-- **All references of one model lead to items exactly if all those of the other do.** -/
theorem leads_refs_iff (h : Model.Tied (.ofPerm σ) m m') (hm' : m'.Pending) :
    (∀ r ∈ m'.refs, m'.Leads r) ↔ ∀ r ∈ m.refs, m.Leads r := by
  have hmove : Ref.lookIn m'.namedReferences ∘ (Tie.ofPerm σ).move =
      Ref.leadsIn σ m'.namedReferences :=
    funext fun r => congrArg (Ref.lookIn _) ((Tie.straight_ofPerm σ).move_eq r)
  have hitems : (∀ r ∈ m'.definitions.flatMap fun d => d.shape.refs, m'.Leads r) ↔
      ∀ r ∈ m.definitions.flatMap fun d => d.shape.refs, m.Leads r := by
    rw [List.forall_mem_flatMap, List.forall_mem_flatMap]
    exact h.leads_items_iff hm'
  have hoperations : (m'.operations.flatMap Operation.refs).map (Ref.lookIn m'.namedReferences) =
      (m.operations.flatMap Operation.refs).map (Ref.leadsIn σ m'.namedReferences) := by
    rw [h.operations, List.flatMap_map, List.map_flatMap, List.map_flatMap]
    simp only [Operation.refs_relocate, List.map_map, hmove]
  have hshared : (m'.responseVariants.flatMap fun p => p.2.map Variant.definition).map
        (Ref.lookIn m'.namedReferences) =
      (m.responseVariants.flatMap fun p => p.2.map Variant.definition).map
        (Ref.leadsIn σ m'.namedReferences) := by
    rw [h.shared, relocateShared, Table.mapValues, List.flatMap_map, List.map_flatMap,
      List.map_flatMap, ← hmove]
    simp only [List.map_map, Function.comp_def, Variant.definition_relocate]
  rw [refs, refs, List.forall_mem_append, List.forall_mem_append, List.forall_mem_append,
    List.forall_mem_append, hitems, h.leads_iff hm' hoperations, h.leads_iff hm' hshared]

/-- The references of tied models are resolved to corresponding items. -/
theorem settle_comp_move (h : Model.Tied (.ofPerm σ) m m') :
    settle m'.resolved ∘ (Tie.ofPerm σ).move = Ref.renumber σ ∘ settle m.resolved :=
  funext fun r => (congrArg _ ((Tie.straight_ofPerm σ).move_eq r)).trans (h.settle_renumber r)

/-- The same where a path is looked up first. -/
theorem settle_comp_leadsIn (h : Model.Tied (.ofPerm σ) m m') (hm' : m'.Pending) :
    settle m'.resolved ∘ Ref.leadsIn σ m'.namedReferences = Ref.renumber σ ∘ settle m.resolved :=
  funext fun r => (congrFun hm'.settle_comp_lookIn (r.renumber σ)).trans (h.settle_renumber r)

/-- **Corresponding items are the same once all references are resolved.** -/
theorem items_settled (h : Model.Tied (.ofPerm σ) m m') (hm' : m'.Pending) {i : Nat} {item : Item}
    (hitem : m.definitions[i]? = some item) :
    ∃ item', m'.definitions[σ i]? = some item' ∧
      (item'.relocate (settle m'.resolved)).labelled =
        (item.relocate (settle m.resolved)).labelled.relocate (Ref.renumber σ) := by
  obtain ⟨item', hitem', hsame⟩ := h.items i item hitem
  refine ⟨item', hitem', ?_⟩
  have hsettled := Item.relocate_of_nameless (g := settle m'.resolved) hsame
  rw [Item.relocate_relocate, Item.relocate_relocate, hm'.settle_comp_lookIn,
    Tie.index_ofPerm, h.settle_comp_leadsIn hm'] at hsettled
  rw [← Item.labelled_nameless, hsettled, Item.labelled_nameless, ← Item.relocate_relocate,
    Item.labelled_relocate]

/-- **Tied models are finished both or not at all, and then they are isomorphic.** -/
theorem isomorphic_finish (h : Model.Tied (.ofPerm σ) m m') (hm : m.Pending) (hm' : m'.Pending) :
    (m.finish.2 = none ↔ m'.finish.2 = none) ∧
      (m.finish.2 = none → Model.Isomorphic σ m.finish.1 m'.finish.1) := by
  have hiff : m.finish.2 = none ↔ m'.finish.2 = none := by
    rw [hm.finish_eq_none_iff, hm'.finish_eq_none_iff, h.leads_refs_iff hm']
  refine ⟨hiff, fun hnone => ?_⟩
  have f := hm.finished hnone
  have f' := hm'.finished (hiff.mp hnone)
  refine ⟨by rw [f.size, f'.size, h.size_eq], fun i => by rw [f.size, f'.size, h.inside],
    fun i final hfinal => ?_, fun path => ?_, ?_, ?_, ?_, ?_, ?_⟩
  · have hlabelled := f.items i
    rw [hfinal] at hlabelled
    obtain ⟨item, hitem, hfinal⟩ := Option.map_eq_some_iff.mp hlabelled.symm
    obtain ⟨item', hitem', hsame⟩ := h.items_settled hm' hitem
    have hlabelled' := f'.items (σ i)
    rw [hitem'] at hlabelled'
    obtain ⟨final', hfinal', hanonymous⟩ := Option.map_eq_some_iff.mp hlabelled'
    refine ⟨final', hfinal', hanonymous.trans (hsame.trans ?_)⟩
    rw [hfinal, Item.anonymous_relocate]
  · rw [f.namedReferences, f'.namedReferences, h.get?_paths]
  · rw [f.operations, f'.operations, h.operations, List.map_map, List.map_map]
    refine List.map_congr_left fun o _ => ?_
    simp only [Function.comp_apply, Operation.relocate_relocate, h.settle_comp_move]
  · rw [f'.responseVariants, h.shared, relocateShared_relocateShared, h.settle_comp_move,
      anonymous_relocateShared, f.responseVariants, ← labelled_relocateShared,
      relocateShared_relocateShared]
  · rw [f.boundedIntegers, f'.boundedIntegers, h.boundedIntegers]
  · rw [f.acceptHeader, f'.acceptHeader]
    rfl
  · rw [f.finalized, f'.finalized]

end Model.Tied

end TypedApi
