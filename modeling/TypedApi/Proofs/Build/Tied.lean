import TypedApi.Proofs.Build.Step
import Mathlib.Data.List.Forall2
import Mathlib.Logic.Equiv.Defs
/-!
Two models that differ in the numbers and names of their items.

Two builds of the same things in another order give every item another index
and another name, and where one of them meets a reference to a path before the
path is registered, the other may meet it afterwards. `Model.Tied` says that two
models under construction are the same apart from that: a renumbering takes the
items of the first one to those of the second, every registered path leads to
corresponding items, and every reference, once all paths that the second model
knows are looked up, leads to corresponding places. The second model may know
some paths that the first one does not; these are part of the tie.
-/

set_option autoImplicit false

namespace TypedApi

/-! ## Renumbering -/

/-- An index under a renumbering of the items. An index before the first item is that of none. -/
def renumberIndex (σ : Nat → Nat) : Int → Int
  | .ofNat i => .ofNat (σ i)
  | .negSucc i => .negSucc i

/-- A reference under a renumbering of the items. -/
def Ref.renumber (σ : Nat → Nat) : Ref → Ref
  | .resolved index => .resolved (renumberIndex σ index)
  | .back index => .back (renumberIndex σ index)
  | .forward path => .forward path

/-- A reference whose path has been looked up, if it is registered. -/
def Ref.lookIn (paths : Table Int) : Ref → Ref
  | .resolved index => .resolved index
  | .back index => .back index
  | .forward path =>
    match paths.get? path with
    | some index => .back index
    | none => .forward path

variable {σ τ : Nat → Nat} {paths paths' extra : Table Int}

@[simp] theorem renumberIndex_natCast (σ : Nat → Nat) (i : Nat) :
    renumberIndex σ (i : Int) = (σ i : Int) :=
  rfl

/-- Renumbering by an injection keeps indices apart. -/
theorem renumberIndex_injective (h : Function.Injective σ) :
    Function.Injective (renumberIndex σ) := by
  intro i j hij
  cases i with
  | ofNat i =>
    cases j with
    | ofNat j => exact congrArg Int.ofNat (h (Int.ofNat.inj hij))
    | negSucc j => cases hij
  | negSucc i =>
    cases j with
    | ofNat j => cases hij
    | negSucc j => exact hij

theorem renumberIndex_comp (σ τ : Nat → Nat) (index : Int) :
    renumberIndex τ (renumberIndex σ index) = renumberIndex (τ ∘ σ) index := by
  cases index <;> rfl

theorem renumberIndex_id (index : Int) : renumberIndex id index = index := by
  cases index <;> rfl

theorem Ref.renumber_comp (σ τ : Nat → Nat) (r : Ref) :
    (r.renumber σ).renumber τ = r.renumber (τ ∘ σ) := by
  cases r <;> simp only [renumber, renumberIndex_comp]

theorem Ref.renumber_id (r : Ref) : r.renumber id = r := by
  cases r <;> simp only [renumber, renumberIndex_id]

/-- The index of a reference, if it has one, is that of one of the first `n` items. -/
def Ref.Below (n : Nat) (r : Ref) : Prop :=
  ∀ index, r.index? = some index → 0 ≤ index ∧ index < n

/-- Renumberings that agree on the first items do the same to a reference to one of them. -/
theorem Ref.renumber_congr {n : Nat} (h : ∀ i < n, σ i = τ i) {r : Ref} (hr : r.Below n) :
    r.renumber σ = r.renumber τ := by
  have hindex : ∀ index : Int, 0 ≤ index → index < n →
      renumberIndex σ index = renumberIndex τ index := by
    intro index hnonneg hlt
    obtain ⟨i, rfl⟩ := Int.eq_ofNat_of_zero_le hnonneg
    rw [renumberIndex_natCast, renumberIndex_natCast, h i (by omega)]
  cases r with
  | forward path => rfl
  | back index | resolved index =>
    obtain ⟨hnonneg, hlt⟩ := hr index rfl
    rw [renumber, renumber, hindex index hnonneg hlt]

/-- What is registered in one table is registered in another, with the same index. -/
def Registers (paths paths' : Table Int) : Prop :=
  ∀ path index, paths.get? path = some index → paths'.get? path = some index

/-- Looking up first where less is registered changes nothing. -/
theorem Ref.lookIn_lookIn (h : Registers paths paths') (r : Ref) :
    (r.lookIn paths).lookIn paths' = r.lookIn paths' := by
  cases r with
  | forward path =>
    cases hget : paths.get? path with
    | none => simp only [lookIn, hget]
    | some index => simp only [lookIn, hget, h path index hget]
  | _ => rfl

/-- Where a reference leads under a renumbering, once all paths in a table have been looked up. -/
def Ref.leadsIn (σ : Nat → Nat) (paths : Table Int) (r : Ref) : Ref :=
  (r.renumber σ).lookIn paths

/-- Paths may be looked up before the items are renumbered, as long as they lead to corresponding
items. -/
theorem Ref.leadsIn_comp_lookIn (h : ∀ path index, paths.get? path = some index →
      paths'.get? path = some (renumberIndex σ index)) :
    leadsIn σ paths' ∘ lookIn paths = leadsIn σ paths' := by
  funext r
  cases r with
  | forward path =>
    cases hget : paths.get? path with
    | none => simp only [Function.comp_apply, lookIn, hget]
    | some index => simp only [Function.comp_apply, lookIn, hget, leadsIn, renumber, h path index hget]
  | _ => rfl

/-- Two renumberings, one after the other. -/
theorem Ref.leadsIn_comp_leadsIn (h : ∀ path index, paths.get? path = some index →
      paths'.get? path = some (renumberIndex τ index)) :
    leadsIn τ paths' ∘ leadsIn σ paths = leadsIn (τ ∘ σ) paths' := by
  funext r
  exact (congrFun (leadsIn_comp_lookIn h) (r.renumber σ)).trans
    (congrArg (lookIn paths') (renumber_comp σ τ r))

/-! ## Compositions of relocations -/

theorem Shape.relocate_relocate (f g : Ref → Ref) (shape : Shape) :
    (shape.relocate f).relocate g = shape.relocate (g ∘ f) := by
  cases shape <;> simp [relocate, Function.comp_def]

theorem Item.relocate_relocate (f g : Ref → Ref) (item : Item) :
    (item.relocate f).relocate g = item.relocate (g ∘ f) := by
  simp only [relocate, Shape.relocate_relocate]

theorem Variant.relocate_relocate (f g : Ref → Ref) (v : Variant) :
    (v.relocate f).relocate g = v.relocate (g ∘ f) :=
  rfl

theorem Operation.relocate_relocate (f g : Ref → Ref) (o : Operation) :
    (o.relocate f).relocate g = o.relocate (g ∘ f) := by
  simp [relocate, Parameter.relocate, Function.comp_def]

/-- Relocation by functions that agree on the references of a shape. -/
theorem Shape.relocate_congr {f g : Ref → Ref} {shape : Shape} (h : ∀ r ∈ shape.refs, f r = g r) :
    shape.relocate f = shape.relocate g := by
  cases shape with
  | scalar | stringEnum => rfl
  | list item | set item | synonym item | override _ _ _ _ item =>
    simp only [relocate, h item (by simp [refs])]
  | map value =>
    cases value with
    | none => rfl
    | some value => simp only [relocate, Option.map_some, h value (by simp [refs])]
  | object members =>
    simp only [relocate]
    congr 1
    exact List.map_congr_left fun p hp => by rw [h _ (List.mem_map_of_mem hp)]
  | oneOf discriminant variants =>
    simp only [relocate]
    congr 1
    exact List.map_congr_left fun v hv => by rw [h _ (List.mem_map_of_mem hv)]

theorem Item.relocate_congr {f g : Ref → Ref} {item : Item} (h : ∀ r ∈ item.shape.refs, f r = g r) :
    item.relocate f = item.relocate g := by
  rw [relocate, relocate, Shape.relocate_congr h]

/-! ## Items without their names -/

/-- An item without the names that depend on what was there before it: its own, and that of the
item inside an alias for null. -/
def Item.nameless (item : Item) : Item :=
  { item with generatedName := "", innerName := item.innerName.map fun _ => "" }

theorem Item.nameless_relocate (g : Ref → Ref) (item : Item) :
    (item.relocate g).nameless = item.nameless.relocate g :=
  rfl

/-- The same items, names aside, are still the same after both have been relocated. -/
theorem Item.relocate_of_nameless {g : Ref → Ref} {item item' : Item}
    (h : item'.nameless = item.nameless) : (item'.relocate g).nameless = (item.relocate g).nameless := by
  rw [nameless_relocate, nameless_relocate, h]

/-- A change of an item that neither reads nor writes names and references. -/
structure Item.Blind (f : Item → Item) : Prop where
  nameless : ∀ item, (f item).nameless = f item.nameless
  relocate : ∀ g item, (f item).relocate g = f (item.relocate g)

/-! ## Items that agree -/

/-- The items of two lists are the same at corresponding places, names aside, once the references of
each list have been put through a function: `f` for the first one, `g` for the second. -/
def Agree (σ : Nat → Nat) (f g : Ref → Ref) (items items' : List Item) : Prop :=
  ∀ i item, items[i]? = some item →
    ∃ item', items'[σ i]? = some item' ∧ (item'.relocate g).nameless = (item.relocate f).nameless

namespace Agree

variable {f g k : Ref → Ref} {items items' items'' : List Item}

/-- What agrees still does after one more function has been applied on both sides. -/
theorem comp (h : Agree σ f g items items') (k : Ref → Ref) :
    Agree σ (k ∘ f) (k ∘ g) items items' := by
  intro i item hitem
  obtain ⟨item', hitem', hsame⟩ := h i item hitem
  refine ⟨item', hitem', ?_⟩
  rw [← Item.relocate_relocate, ← Item.relocate_relocate]
  exact Item.relocate_of_nameless hsame

/-- Agreement through a third list. -/
theorem trans (h : Agree σ f g items items') (h' : Agree τ g k items' items'') :
    Agree (τ ∘ σ) f k items items'' := by
  intro i item hitem
  obtain ⟨item', hitem', hsame⟩ := h i item hitem
  obtain ⟨item'', hitem'', hsame'⟩ := h' (σ i) item' hitem'
  exact ⟨item'', hitem'', hsame'.trans hsame⟩

/-- Items that agree are added at corresponding places. -/
theorem concat {item item' : Item} (h : Agree σ f g items items')
    (hlast : σ items.length = items'.length)
    (hitem : (item'.relocate g).nameless = (item.relocate f).nameless) :
    Agree σ f g (items ++ [item]) (items' ++ [item']) := by
  intro i d hd
  rcases eq_or_last_of_getElem?_concat hd with hd | ⟨rfl, rfl⟩
  · obtain ⟨d', hd', hsame⟩ := h i d hd
    exact ⟨d', List.getElem?_append_left (List.getElem?_eq_some_iff.mp hd').1 ▸ hd', hsame⟩
  · refine ⟨item', ?_, hitem⟩
    rw [hlast]
    exact List.getElem?_concat_length

/-- Corresponding items are changed in the same way. -/
theorem modify {c : Item → Item} (h : Agree σ f g items items') (hσ : Function.Injective σ)
    (hc : Item.Blind c) (i : Nat) :
    Agree σ f g (items.modify i c) (items'.modify (σ i) c) := by
  intro j d hd
  rw [List.getElem?_modify] at hd ⊢
  obtain ⟨d₀, hd₀, rfl⟩ := Option.map_eq_some_iff.mp hd
  obtain ⟨d₀', hd₀', hsame⟩ := h j d₀ hd₀
  rw [hd₀']
  refine ⟨_, rfl, ?_⟩
  dsimp only
  by_cases hij : i = j
  · subst hij
    rw [if_pos rfl, if_pos rfl, hc.relocate, hc.relocate, hc.nameless, hc.nameless, hsame]
  -- other items have other numbers
  · rw [if_neg hij, if_neg fun hσij => hij (hσ hσij)]
    exact hsame

end Agree

/-- The shared variants of a model with every reference put through a function. -/
def relocateShared (g : Ref → Ref) (shared : Table (List Variant)) : Table (List Variant) :=
  shared.mapValues fun vs => vs.map (Variant.relocate g)

/-! ## Ties -/

/-- How the items of one model are numbered in another, and the paths that only the other knows. -/
structure Tie where
  index : Nat → Nat
  extra : Table Int := []

/-- What becomes of a reference under a tie. -/
def Tie.move (T : Tie) (r : Ref) : Ref :=
  (r.renumber T.index).lookIn T.extra

/-- A tie of models that know the same paths. -/
def Tie.Straight (T : Tie) : Prop :=
  T.extra = []

theorem Tie.Straight.free {T : Tie} (hT : T.Straight) (path : String) :
    T.extra.get? path = none := by
  rw [hT]
  rfl

/-- A straight tie renumbers and does nothing else. -/
theorem Tie.Straight.move_eq {T : Tie} (hT : T.Straight) (r : Ref) :
    T.move r = r.renumber T.index := by
  rw [move, hT]
  cases r <;> rfl

/-- Two models under construction that are the same up to a renumbering of the items, their names,
and the moment at which paths were registered. -/
structure Model.Tied (T : Tie) (m m' : Model) : Prop where
  unfinished : m.finalized = false
  unfinished' : m'.finalized = false
  boundedIntegers : m'.boundedIntegers = m.boundedIntegers
  injective : Function.Injective T.index
  /-- Items that are added from now on correspond in the order in which they are added. -/
  fresh : ∀ k, T.index (m.size + k) = m'.size + k
  /-- Paths lead to corresponding items; only the extra ones are unknown to the first model. -/
  paths : ∀ path, m'.namedReferences.get? path =
    match m.namedReferences.get? path with
    | some index => some (renumberIndex T.index index)
    | none => T.extra.get? path
  apart : ∀ path index, T.extra.get? path = some index → m.namedReferences.get? path = none
  items : Agree T.index (Ref.leadsIn T.index m'.namedReferences) (Ref.lookIn m'.namedReferences)
    m.definitions m'.definitions
  operations : m'.operations = m.operations.map (Operation.relocate T.move)
  shared : m'.responseVariants = relocateShared T.move m.responseVariants
  accept : m'.acceptHeader = m.acceptHeader.map T.move

namespace Model.Tied

variable {T : Tie} {m m' : Model}

/-- The extra paths are registered in the second model. -/
theorem extra_registered (h : Model.Tied T m m') : Registers T.extra m'.namedReferences := by
  intro path index hextra
  rw [h.paths, h.apart path index hextra]
  exact hextra

/-- What has been moved leads where it should. -/
theorem lookIn_move (h : Model.Tied T m m') (r : Ref) :
    (T.move r).lookIn m'.namedReferences = r.leadsIn T.index m'.namedReferences :=
  Ref.lookIn_lookIn h.extra_registered _

/-- Agreement outlasts the registration of more paths. -/
theorem agree_of_registers {items items' : List Item} (hreg : Registers paths paths')
    (h : Agree σ (Ref.leadsIn σ paths) (Ref.lookIn paths) items items') :
    Agree σ (Ref.leadsIn σ paths') (Ref.lookIn paths') items items' := by
  have hcomp := h.comp (Ref.lookIn paths')
  rwa [show Ref.lookIn paths' ∘ Ref.leadsIn σ paths = Ref.leadsIn σ paths' from
      funext fun r => Ref.lookIn_lookIn hreg _,
    show Ref.lookIn paths' ∘ Ref.lookIn paths = Ref.lookIn paths' from
      funext fun r => Ref.lookIn_lookIn hreg r] at hcomp

/-- A free path is registered for corresponding indices. -/
theorem paths_insert (h : Model.Tied T m m') {path : String} {index : Int}
    (hextra : T.extra.get? path = none) (p : String) :
    (m'.namedReferences.insert path (renumberIndex T.index index)).get? p =
      match (m.namedReferences.insert path index).get? p with
      | some i => some (renumberIndex T.index i)
      | none => T.extra.get? p := by
  by_cases hp : p = path
  · subst hp
    rw [Table.get?_insert_self, Table.get?_insert_self]
  · rw [Table.get?_insert_of_ne _ _ hp, Table.get?_insert_of_ne _ _ hp, h.paths]

/-- The extra paths stay unknown to the first model when another one is registered. -/
theorem apart_insert (h : Model.Tied T m m') {path : String} {index : Int}
    (hextra : T.extra.get? path = none) (p : String) (i : Int) (hp : T.extra.get? p = some i) :
    (m.namedReferences.insert path index).get? p = none := by
  have hne : p ≠ path := by
    rintro rfl
    rw [hextra] at hp
    cases hp
  rw [Table.get?_insert_of_ne _ _ hne]
  exact h.apart p i hp

/-- A path that is written once more with the same index, or for the first time, loses nothing. -/
theorem registers_insert {paths : Table Int} {path : String} {index : Int}
    (h : ∀ old, paths.get? path = some old → old = index) :
    Registers paths (paths.insert path index) := by
  intro p i hp
  by_cases hne : p = path
  · subst hne
    rw [h i hp]
    exact Table.get?_insert_self _ _ _
  · rw [Table.get?_insert_of_ne _ _ hne]
    exact hp

/-- An item is added to both models, the same but for names after its references have been moved,
and under the same path if one is given. -/
theorem withItem {item item' : Item} {path : Option String} (h : Model.Tied T m m')
    (hitem : item'.nameless = (item.relocate T.move).nameless)
    (hpath : ∀ p, path = some p → T.extra.get? p = none ∧ m.namedReferences.get? p = none) :
    Model.Tied T (m.withItem item path) (m'.withItem item' path) := by
  have hlast : T.index m.size = m'.size := h.fresh 0
  have hmoved : (item'.relocate (Ref.lookIn m'.namedReferences)).nameless =
      (item.relocate (Ref.leadsIn T.index m'.namedReferences)).nameless := by
    rw [Item.nameless_relocate, hitem, ← Item.nameless_relocate, Item.relocate_relocate]
    congr 2
    exact funext h.lookIn_move
  have hitems := h.items.concat hlast hmoved
  have hsize : (m.withItem item path).size = m.size + 1 := by simp [Model.size, Model.withItem]
  have hsize' : (m'.withItem item' path).size = m'.size + 1 := by simp [Model.size, Model.withItem]
  have hnext : ∀ k, T.index ((m.withItem item path).size + k) = (m'.withItem item' path).size + k := by
    intro k
    rw [hsize, hsize', Nat.add_assoc, Nat.add_assoc]
    exact h.fresh (1 + k)
  cases path with
  | none => exact { h with fresh := hnext, items := hitems }
  | some p =>
    obtain ⟨hextra, hfree⟩ := hpath p rfl
    have hindex : (m'.size : Int) = renumberIndex T.index (m.size : Int) := by
      rw [renumberIndex_natCast, hlast]
    refine { h with
      fresh := hnext
      paths := fun q => ?_
      apart := h.apart_insert hextra
      items := agree_of_registers (registers_insert fun old hold => ?_) hitems }
    · simp only [Model.withItem, hindex]
      exact h.paths_insert hextra q
    · rw [h.paths, hfree] at hold
      rw [hextra] at hold
      cases hold

/-- Corresponding items are changed in the same way. -/
theorem withChange {c : Item → Item} (h : Model.Tied T m m') (hc : Item.Blind c) (i : Nat) :
    Model.Tied T (m.withChange i c) (m'.withChange (T.index i) c) := by
  refine { h with fresh := fun k => ?_, items := h.items.modify h.injective hc i }
  simp only [Model.size, Model.withChange, List.length_modify]
  exact h.fresh k

/-- A path that is not extra, and is free or has the same index, is registered for corresponding
indices. -/
theorem withPath {path : String} {index : Int} (h : Model.Tied T m m')
    (hextra : T.extra.get? path = none)
    (hold : ∀ old, m.namedReferences.get? path = some old → old = index) :
    Model.Tied T (m.withPath path index) (m'.withPath path (renumberIndex T.index index)) := by
  refine { h with
    paths := h.paths_insert hextra
    apart := h.apart_insert hextra
    items := agree_of_registers (registers_insert fun old hold' => ?_) h.items }
  rw [h.paths] at hold'
  cases hget : m.namedReferences.get? path with
  | none =>
    rw [hget, hextra] at hold'
    cases hold'
  | some i =>
    rw [hget] at hold'
    rw [← Option.some.inj hold', hold i hget]

theorem withOperation {o : Operation} (h : Model.Tied T m m') :
    Model.Tied T (m.withOperation o) (m'.withOperation (o.relocate T.move)) := by
  refine { h with operations := ?_ }
  simp only [Model.withOperation, List.map_append, List.map_cons, List.map_nil, h.operations]

theorem withShared {vs : List Variant} (h : Model.Tied T m m') (path : String) :
    Model.Tied T (m.withShared path vs)
      (m'.withShared path (vs.map (Variant.relocate T.move))) := by
  refine { h with shared := ?_ }
  simp only [Model.withShared, relocateShared, Table.mapValues_insert, h.shared]

theorem withAccept {r : Ref} (h : Model.Tied T m m') :
    Model.Tied T (m.withAccept r) (m'.withAccept (T.move r)) :=
  { h with accept := rfl }

end Model.Tied

/-! ## Ties of models with the same paths -/

/-- The straight tie that renumbers the items by a permutation. -/
def Tie.ofPerm (σ : Equiv.Perm Nat) : Tie :=
  { index := σ }

@[simp] theorem Tie.index_ofPerm (σ : Equiv.Perm Nat) : (Tie.ofPerm σ).index = σ :=
  rfl

theorem Tie.straight_ofPerm (σ : Equiv.Perm Nat) : (Tie.ofPerm σ).Straight :=
  rfl

theorem relocateShared_relocateShared (f g : Ref → Ref) (shared : Table (List Variant)) :
    relocateShared g (relocateShared f shared) = relocateShared (g ∘ f) shared := by
  simp [relocateShared, Table.mapValues, Variant.relocate_relocate, Function.comp_def]

/-- **Straight ties compose.** -/
theorem Model.Tied.trans {σ τ : Equiv.Perm Nat} {m m' m'' : Model}
    (h : Model.Tied (.ofPerm σ) m m') (h' : Model.Tied (.ofPerm τ) m' m'') :
    Model.Tied (.ofPerm (σ.trans τ)) m m'' := by
  have hmove : (Tie.ofPerm τ).move ∘ (Tie.ofPerm σ).move = (Tie.ofPerm (σ.trans τ)).move := by
    funext r
    rw [Function.comp_apply, (Tie.straight_ofPerm _).move_eq, (Tie.straight_ofPerm _).move_eq,
      (Tie.straight_ofPerm _).move_eq, Ref.renumber_comp]
    rfl
  have hpaths : ∀ path index, m'.namedReferences.get? path = some index →
      m''.namedReferences.get? path = some (renumberIndex τ index) := by
    intro path index hget
    rw [h'.paths, hget]
    rfl
  refine ⟨h.unfinished, h'.unfinished', h'.boundedIntegers.trans h.boundedIntegers,
    h'.injective.comp h.injective, fun k => ?_, fun path => ?_, by simp [Tie.ofPerm, Table.get?], ?_,
    ?_, ?_, ?_⟩
  · exact (congrArg τ (h.fresh k)).trans (h'.fresh k)
  · rw [h'.paths, h.paths]
    cases m.namedReferences.get? path with
    | none => rfl
    | some index => exact congrArg some (renumberIndex_comp _ _ _)
  -- the references of all three models are compared after all paths of the last one were looked up
  · have hfirst := h.items.comp (Ref.leadsIn τ m''.namedReferences)
    rw [Tie.index_ofPerm, Ref.leadsIn_comp_lookIn hpaths, Ref.leadsIn_comp_leadsIn hpaths] at hfirst
    exact hfirst.trans h'.items
  · rw [h'.operations, h.operations, List.map_map, ← hmove]
    exact List.map_congr_left fun o _ => Operation.relocate_relocate _ _ _
  · rw [h'.shared, h.shared, relocateShared_relocateShared, hmove]
  · rw [h'.accept, h.accept, Option.map_map, hmove]

end TypedApi
