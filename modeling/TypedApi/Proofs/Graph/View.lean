import TypedApi.Proofs.Build.Step
/-!
What is seen of a model.

A view leaves out the documentation of items and operations, or the bounds of
bounded integers, or both. None of this is ever looked at to find an item, to
name one or to finish a model: all of that comes to the same for a model and for
what a view leaves of it.
-/

set_option autoImplicit false

namespace TypedApi

variable {α β ε : Type}

/-! ## What may be left out -/

/-- A scalar without the bounds of a bounded integer. -/
def Scalar.loosened : Scalar → Scalar
  | .boundedI32 _ _ => .i32
  | .boundedI64 _ _ => .i64
  | s => s

/-- A shape without the bounds of a bounded integer. -/
def Shape.loosened : Shape → Shape
  | .scalar s => .scalar s.loosened
  | shape => shape

/-- An item without the bounds of a bounded integer. -/
def Item.loosened (item : Item) : Item :=
  { item with shape := item.shape.loosened }

/-- A model without the bounds of its bounded integers, made to have none. -/
def Model.loosened (m : Model) : Model :=
  { m with definitions := m.definitions.map Item.loosened, boundedIntegers := false }

/-- An item without documentation. -/
def Item.undocumented (item : Item) : Item :=
  { item with docs := .null }

/-- An operation without documentation of its own; that of its path stays. -/
def Operation.undocumented (o : Operation) : Operation :=
  { o with docs := none }

/-- A model without the documentation of its items and operations. -/
def Model.undocumented (m : Model) : Model :=
  { m with
    definitions := m.definitions.map Item.undocumented
    operations := m.operations.map Operation.undocumented }

/-! ## Views -/

/-- What is seen: documentation, and the bounds of integers. -/
structure View where
  docs : Bool
  bounds : Bool

namespace View

/-- What is seen of a scalar. -/
def scalar (v : View) (s : Scalar) : Scalar :=
  if v.bounds then s else s.loosened

/-- What is seen of a shape. -/
def shape (v : View) (s : Shape) : Shape :=
  if v.bounds then s else s.loosened

/-- What is seen of an item. -/
def item (v : View) (item : Item) : Item :=
  { item with
    docs := if v.docs then item.docs else .null
    shape := v.shape item.shape }

/-- What is seen of an operation. -/
def operation (v : View) (o : Operation) : Operation :=
  { o with docs := if v.docs then o.docs else none }

/-- What is seen of a model. -/
def model (v : View) (m : Model) : Model :=
  { m with
    definitions := m.definitions.map v.item
    operations := m.operations.map v.operation
    boundedIntegers := v.bounds && m.boundedIntegers }

variable (v : View)

/-- Everything is seen. -/
theorem model_full (m : Model) : model ⟨true, true⟩ m = m := by
  have hitem : item ⟨true, true⟩ = id := rfl
  have hoperation : operation ⟨true, true⟩ = id := rfl
  simp [model, hitem, hoperation]

/-- Everything but the bounds of integers is seen. -/
theorem model_loose (m : Model) : model ⟨true, false⟩ m = m.loosened := by
  have hitem : item ⟨true, false⟩ = Item.loosened := rfl
  have hoperation : operation ⟨true, false⟩ = id := rfl
  simp [model, Model.loosened, hitem, hoperation]

/-- Everything but documentation is seen. -/
theorem model_bare (m : Model) : model ⟨false, true⟩ m = m.undocumented := by
  have hitem : item ⟨false, true⟩ = Item.undocumented := rfl
  have hoperation : operation ⟨false, true⟩ = Operation.undocumented := rfl
  simp [model, Model.undocumented, hitem, hoperation]

/-! ## Shapes and items -/

@[simp] theorem shape_scalar (s : Scalar) : v.shape (.scalar s) = .scalar (v.scalar s) := by
  simp only [shape, scalar, Shape.loosened]
  split <;> rfl

/-- Of a shape that is no scalar everything is seen. -/
theorem shape_of_ne {s : Shape} (h : ∀ t, s ≠ .scalar t) : v.shape s = s := by
  cases s with
  | scalar t => exact absurd rfl (h t)
  | _ => simp [shape, Shape.loosened]

/-- What is made of an answer at the end is made of the answer of the whole sequence. -/
theorem map_bind {γ : Type} (x : Except ε α) (k : α → Except ε β) (f : β → γ) :
    (x >>= k).map f = x >>= fun a => (k a).map f := by
  cases x <;> rfl

/-- Loops over what is made of a list, where each round gives what is made of an answer. -/
theorem mapM_map {γ δ : Type} {f : α → γ} {g : β → δ} {k : α → Except ε β} {k' : γ → Except ε δ}
    (h : ∀ a, k' (f a) = (k a).map g) (l : List α) :
    (l.map f).mapM k' = (l.mapM k).map (List.map g) := by
  induction l with
  | nil => rfl
  | cons a l ih =>
    rw [List.map_cons, List.mapM_cons, List.mapM_cons, h, ih]
    cases k a with
    | error e => rfl
    | ok b => cases l.mapM k <;> rfl

/-- A view of a shape keeps its references. -/
theorem mapRefs_shape (f : Ref → Except ε Ref) (s : Shape) :
    (v.shape s).mapRefs f = (s.mapRefs f).map v.shape := by
  -- where the shape is no scalar, neither is what is made of it
  have hkeep : ∀ {γ : Type} (x : Except ε γ) (make : γ → Shape), (∀ c t, make c ≠ .scalar t) →
      (x >>= fun c => pure (make c)) = (x >>= fun c => pure (make c)).map v.shape := by
    intro γ x make hmake
    cases x with
    | error e => rfl
    | ok c => exact congrArg Except.ok (v.shape_of_ne (hmake c)).symm
  cases s with
  | scalar t =>
    rw [shape_scalar]
    exact congrArg Except.ok (v.shape_scalar t).symm
  | map value =>
    rw [v.shape_of_ne (by simp)]
    cases value with
    | none => exact hkeep (.ok ()) (fun _ => .map none) (by simp)
    | some value => exact hkeep _ _ (by simp)
  | stringEnum variants extensible =>
    rw [v.shape_of_ne (by simp)]
    exact hkeep (.ok ()) (fun _ => .stringEnum variants extensible) (by simp)
  | _ =>
    rw [v.shape_of_ne (by simp)]
    exact hkeep _ _ (by simp)

/-- A view of an item keeps its references. -/
theorem mapRefs_item (f : Ref → Except ε Ref) (item : Item) :
    (v.item item).mapRefs f = (item.mapRefs f).map v.item := by
  rw [Item.mapRefs, Item.mapRefs, View.item, mapRefs_shape]
  cases item.shape.mapRefs f <;> rfl

/-- A view of an operation keeps its references. -/
theorem mapRefs_operation (f : Ref → Except ε Ref) (o : Operation) :
    (v.operation o).mapRefs f = (o.mapRefs f).map v.operation := by
  simp only [Operation.mapRefs, map_bind]
  rfl

/-! ## Lookups -/

@[simp] theorem size_model (m : Model) : (v.model m).size = m.size := by
  simp [model, Model.size]

@[simp] theorem indexOf_model (m : Model) (r : Ref) : (v.model m).indexOf r = m.indexOf r := by
  have hrange : ∀ index, (v.model m).inRange index = m.inRange index := fun index => by
    rw [Model.inRange, Model.inRange, size_model]
  cases r with
  | forward path => rfl
  | back index | resolved index => rw [Model.indexOf, Model.indexOf, hrange]

@[simp] theorem position?_model (m : Model) (index : Int) :
    (v.model m).position? index = m.position? index := by
  simp only [Model.position?, size_model]

/-- The item at an index is seen there. -/
theorem itemAt_model (m : Model) (index : Int) :
    (v.model m).itemAt index = (m.itemAt index).map v.item := by
  simp only [Model.itemAt, position?_model]
  cases m.position? index with
  | none => rfl
  | some i =>
    simp only [Option.bind_some, model, List.getElem?_map]
    cases m.definitions[i]? <;> rfl

@[simp] theorem nameOf_model (m : Model) (r : Ref) : (v.model m).nameOf r = m.nameOf r := by
  simp only [Model.nameOf, Model.resolve, indexOf_model]
  cases m.indexOf r with
  | error e => rfl
  | ok index =>
    simp only [itemAt_model]
    cases m.itemAt index <;> rfl

@[simp] theorem resolved_model (m : Model) (r : Ref) : (v.model m).resolved r = m.resolved r := by
  rw [Model.resolved, Model.resolved, indexOf_model]

/-! ## The end -/

theorem resolveAll_model (m : Model) : (v.model m).resolveAll = m.resolveAll.map v.model := by
  have hresolved : (v.model m).resolved = m.resolved := funext (v.resolved_model m)
  have hitems := mapM_map (v.mapRefs_item m.resolved) m.definitions
  have hoperations := mapM_map (v.mapRefs_operation m.resolved) m.operations
  rw [Model.resolveAll, Model.resolveAll, hresolved]
  simp only [model, hitems, hoperations, map_bind]
  cases m.definitions.mapM (Item.mapRefs m.resolved) with
  | error e => rfl
  | ok definitions => cases m.operations.mapM (Operation.mapRefs m.resolved) <;> rfl

/-- An item that is no union has no variants to name. -/
theorem nameItem_of_ne {nameOf : Ref → Except Failure (Option String)} {item : Item}
    (h : ∀ discriminant variants, item.shape ≠ .oneOf discriminant variants) :
    Model.nameItem nameOf item = (item, none) := by
  rw [Model.nameItem.eq_def]
  split
  · exact absurd ‹_› (h _ _)
  · rfl

/-- Naming the variants of an item is the same for what is seen of it. -/
theorem nameItem_item (nameOf : Ref → Except Failure (Option String)) (item : Item) :
    Model.nameItem nameOf (v.item item) =
      (v.item (Model.nameItem nameOf item).1, (Model.nameItem nameOf item).2) := by
  by_cases hunion : ∃ discriminant variants, item.shape = .oneOf discriminant variants
  · obtain ⟨discriminant, variants, hshape⟩ := hunion
    have hseen : (v.item item).shape = .oneOf discriminant variants := by
      rw [View.item, hshape, v.shape_of_ne (by simp)]
    rw [Model.nameItem.eq_def, Model.nameItem.eq_def, hshape, hseen]
    simp only [View.item, v.shape_of_ne, ne_eq, reduceCtorEq, not_false_eq_true, implies_true]
  · push Not at hunion
    have hseen : ∀ discriminant variants, (v.item item).shape ≠ .oneOf discriminant variants := by
      intro discriminant variants heq
      rw [View.item] at heq
      cases hshape : item.shape with
      | scalar t => simp [hshape] at heq
      | _ =>
        rw [hshape, v.shape_of_ne (by simp)] at heq
        exact hunion _ _ (hshape.trans heq)
    rw [nameItem_of_ne hseen, nameItem_of_ne hunion]

/-- A walk over what is made of a list stops where the walk over the list does. -/
theorem eachUntil_map {f : α → α} {step : α → α × Option Failure}
    (h : ∀ a, step (f a) = (f (step a).1, (step a).2)) (l : List α) :
    Model.eachUntil step (l.map f) =
      ((Model.eachUntil step l).1.map f, (Model.eachUntil step l).2) := by
  induction l with
  | nil => rfl
  | cons a l ih =>
    rw [List.map_cons, Model.eachUntil, Model.eachUntil, h, ih]
    rcases step a with ⟨a', _ | e⟩ <;> rfl

theorem nameAll_model (m : Model) :
    (v.model m).nameAll = (v.model m.nameAll.1, m.nameAll.2) := by
  have hnames : (fun r => ((v.model m).nameOf r).map some) = fun r => (m.nameOf r).map some :=
    funext fun r => by rw [nameOf_model]
  have hitems := eachUntil_map (v.nameItem_item fun r => (m.nameOf r).map some) m.definitions
  rw [Model.nameAll, Model.nameAll, hnames]
  simp only [model, hitems]
  rcases Model.eachUntil (Model.nameItem fun r => (m.nameOf r).map some) m.definitions with
    ⟨definitions, _ | e⟩ <;> rfl

/-- **Finishing a model is the same for what is seen of it.** -/
theorem finish_model (m : Model) : (v.model m).finish = (v.model m.finish.1, m.finish.2) := by
  rw [Model.finish, Model.finish, resolveAll_model]
  have hfinalized : (v.model m).finalized = m.finalized := rfl
  rw [hfinalized]
  split
  · rfl
  · cases m.resolveAll with
    | error e => rfl
    | ok resolved => exact v.nameAll_model resolved

/-! ## Changes -/

theorem model_withItem (m : Model) (item : Item) (path : Option String) :
    v.model (m.withItem item path) = (v.model m).withItem (v.item item) path := by
  simp only [model, Model.withItem, Model.size, List.map_append, List.map_cons, List.map_nil,
    List.length_map]
  rfl

theorem model_withOperation (m : Model) (o : Operation) :
    v.model (m.withOperation o) = (v.model m).withOperation (v.operation o) := by
  simp [model, Model.withOperation]

end View

end TypedApi
