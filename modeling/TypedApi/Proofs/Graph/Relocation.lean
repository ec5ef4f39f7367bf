import TypedApi.Graph.Finish
/-!
Moving every reference at once.

A model that is being finished puts each of its references through a lookup
that may fail. `relocate` is the same change by a function that cannot fail: it
names every place that holds a reference and keeps all else. `Relocates` ties
the two together. Either every lookup answers and the outcome is the relocation
by the answers, or one of the lookups fails and its failure is the outcome.
-/

set_option autoImplicit false

namespace TypedApi

variable {ε α β : Type}

/-! ## Relocations -/

/-- A shape with every reference put through a function. -/
def Shape.relocate (g : Ref → Ref) : Shape → Shape
  | .scalar s => .scalar s
  | .list item => .list (g item)
  | .set item => .set (g item)
  | .map value => .map (value.map g)
  | .object members =>
    .object (members.map fun p => (p.1, { p.2 with definition := g p.2.definition }))
  | .stringEnum variants extensible => .stringEnum variants extensible
  | .oneOf discriminant variants =>
    .oneOf discriminant (variants.map fun v => { v with definition := g v.definition })
  | .synonym target => .synonym (g target)
  | .override readOnly writeOnly title description target =>
    .override readOnly writeOnly title description (g target)

/-- An item with every reference put through a function. -/
def Item.relocate (g : Ref → Ref) (item : Item) : Item :=
  { item with shape := item.shape.relocate g }

/-- A variant with its reference put through a function. -/
def Variant.relocate (g : Ref → Ref) (v : Variant) : Variant :=
  { v with definition := g v.definition }

@[simp] theorem Variant.definition_relocate (g : Ref → Ref) (v : Variant) :
    (v.relocate g).definition = g v.definition :=
  rfl

/-- The alternatives of a relocated union are those of the union, relocated. -/
theorem Shape.relocate_oneOf (g : Ref → Ref) (discriminant : Option String)
    (variants : List Variant) : (Shape.oneOf discriminant variants).relocate g =
      .oneOf discriminant (variants.map (Variant.relocate g)) :=
  rfl

/-- A parameter with its reference put through a function. -/
def Parameter.relocate (g : Ref → Ref) (p : Parameter) : Parameter :=
  { p with item := g p.item }

/-- An operation with every reference put through a function. -/
def Operation.relocate (g : Ref → Ref) (o : Operation) : Operation :=
  { o with
    pathParameters := o.pathParameters.map g
    queryParameters := o.queryParameters.map g
    headers := o.headers.map fun p => (p.1, p.2.relocate g)
    parameters := o.parameters.map (Parameter.relocate g)
    requestBody := o.requestBody.map g
    response := g o.response }

/-- The alternatives of a union; no other shape has any. -/
def Shape.variants : Shape → List Variant
  | .oneOf _ variants => variants
  | _ => []

namespace Model

/-- Every reference of the items, the operations and the shared responses. -/
def refs (m : Model) : List Ref :=
  m.definitions.flatMap (·.shape.refs) ++ m.operations.flatMap Operation.refs ++
    m.responseVariants.flatMap fun p => p.2.map Variant.definition

/-- Every variant of the items and of the shared responses. -/
def variants (m : Model) : List Variant :=
  m.definitions.flatMap (·.shape.variants) ++ m.responseVariants.flatMap Prod.snd

/-- A model with every reference of its items, operations and shared responses put through a
function. -/
def relocate (g : Ref → Ref) (m : Model) : Model :=
  { m with
    definitions := m.definitions.map (Item.relocate g)
    operations := m.operations.map (Operation.relocate g)
    responseVariants := m.responseVariants.map fun p =>
      (p.1, p.2.map fun v => { v with definition := g v.definition }) }

/-- A variant of a model is one of an item or one of a shared response. -/
theorem mem_variants {m : Model} {v : Variant} :
    v ∈ m.variants ↔ (∃ item ∈ m.definitions, v ∈ item.shape.variants) ∨
      ∃ p ∈ m.responseVariants, v ∈ p.2 := by
  rw [variants, List.mem_append, List.mem_flatMap, List.mem_flatMap]

@[simp] theorem size_relocate (g : Ref → Ref) (m : Model) : (m.relocate g).size = m.size := by
  simp [size, relocate]

end Model

/-- The references of a relocated shape are those of the shape, relocated, in the same order. -/
@[simp] theorem Shape.refs_relocate (g : Ref → Ref) (shape : Shape) :
    (shape.relocate g).refs = shape.refs.map g := by
  cases shape with
  | map value => cases value <;> rfl
  | object members => simp [relocate, refs]
  | oneOf discriminant variants => simp [relocate, refs]
  | _ => rfl

/-- The references of a relocated operation are those of the operation, relocated. -/
@[simp] theorem Operation.refs_relocate (g : Ref → Ref) (o : Operation) :
    (o.relocate g).refs = o.refs.map g := by
  have hoptional : ∀ r : Option Ref, (r.map g).toList = r.toList.map g := by
    rintro (_ | r) <;> rfl
  simp [relocate, refs, hoptional, Parameter.relocate, Function.comp_def]

/-- The references of a relocated model are those of the model, relocated. -/
@[simp] theorem Model.refs_relocate (g : Ref → Ref) (m : Model) :
    (m.relocate g).refs = m.refs.map g := by
  simp [relocate, refs, Item.relocate, List.flatMap_map, List.map_flatMap, Function.comp_def]

/-- Where a lookup that answers puts a reference. -/
def settle (f : Ref → Except ε Ref) (r : Ref) : Ref :=
  match f r with
  | .ok r' => r'
  | .error _ => r

/-! ## Lookups that may fail -/

/-- What comes of looking up some references: the value made of the answers if there is an answer
for each, else the failure of one of the lookups. -/
structure Relocates (f : Ref → Except ε Ref) (refs : List Ref) (a : α) (x : Except ε α) : Prop where
  cases : (x = .ok a ∧ ∀ r ∈ refs, f r = .ok (settle f r)) ∨
    ∃ e, x = .error e ∧ ∃ r ∈ refs, f r = .error e

namespace Relocates

variable {f : Ref → Except ε Ref}

/-- Nothing to look up. -/
theorem ok (a : α) : Relocates f [] a (.ok a) :=
  ⟨.inl ⟨rfl, by simp⟩⟩

/-- One lookup. -/
theorem lookup (r : Ref) : Relocates f [r] (settle f r) (f r) := by
  constructor
  cases h : f r with
  | ok r' => exact .inl ⟨by simp [settle, h], by simp [settle, h]⟩
  | error e => exact .inr ⟨e, rfl, r, List.mem_singleton_self r, h⟩

/-- Two parts, one after the other. -/
theorem bind {refs refs' : List Ref} {a : α} {b : β} {x : Except ε α} {k : α → Except ε β}
    (hx : Relocates f refs a x) (hk : Relocates f refs' b (k a)) :
    Relocates f (refs ++ refs') b (x >>= k) := by
  constructor
  rcases hx.cases with ⟨rfl, hrefs⟩ | ⟨e, rfl, r, hr, he⟩
  · rcases hk.cases with ⟨hb, hrefs'⟩ | ⟨e, hb, r, hr, he⟩
    · refine .inl ⟨hb, fun r hr => ?_⟩
      rcases List.mem_append.mp hr with hr | hr
      · exact hrefs r hr
      · exact hrefs' r hr
    · exact .inr ⟨e, hb, r, List.mem_append_right _ hr, he⟩
  · exact .inr ⟨e, rfl, r, List.mem_append_left _ hr, he⟩

/-- One part and what is made of it. -/
theorem map {refs : List Ref} {a : α} {x : Except ε α} (hx : Relocates f refs a x) (k : α → β) :
    Relocates f refs (k a) (x >>= fun a => .ok (k a)) := by
  have h := hx.bind (k := fun a => .ok (k a)) (ok (k a))
  rwa [List.append_nil] at h

/-- One part for each element of a list. -/
theorem mapM {refs : β → List Ref} {g : β → α} {k : β → Except ε α} {l : List β}
    (h : ∀ b ∈ l, Relocates f (refs b) (g b) (k b)) :
    Relocates f (l.flatMap refs) (l.map g) (l.mapM k) := by
  induction l with
  | nil => exact ok []
  | cons b l ih =>
    rw [List.mapM_cons, List.flatMap_cons, List.map_cons]
    -- the elements after the first one are only reached if its lookups answer
    have hrest := ih fun b' hb' => h b' (List.mem_cons_of_mem _ hb')
    exact (h b List.mem_cons_self).bind (hrest.map fun bs => g b :: bs)

/-- One part for each element of a list of parts with one reference each. -/
theorem mapM_one {ref : β → Ref} {g : β → α} {k : β → Except ε α} {l : List β}
    (h : ∀ b ∈ l, Relocates f [ref b] (g b) (k b)) :
    Relocates f (l.map ref) (l.map g) (l.mapM k) := by
  rw [List.map_eq_flatMap]
  exact mapM h

/-! ## Shapes, operations and models -/

theorem optional (r : Option Ref) :
    Relocates f r.toList (r.map (settle f)) (Operation.mapOptional f r) := by
  cases r with
  | none => exact ok none
  | some r => exact (lookup r).map some

theorem variants (vs : List Variant) :
    Relocates f (vs.map Variant.definition)
      (vs.map fun v => { v with definition := settle f v.definition }) (Shape.mapVariants f vs) :=
  mapM_one fun v _ => (lookup v.definition).map fun r => { v with definition := r }

theorem members (ms : Table Member) :
    Relocates f (ms.map fun p => p.2.definition)
      (ms.map fun p => (p.1, { p.2 with definition := settle f p.2.definition }))
      (Shape.mapMembers f ms) :=
  mapM_one fun p _ => (lookup p.2.definition).map fun r => (p.1, { p.2 with definition := r })

/-- A shape is put through a lookup as a whole. -/
theorem shape (s : Shape) : Relocates f s.refs (s.relocate (settle f)) (s.mapRefs f) := by
  cases s with
  | scalar s => exact ok _
  | list item => exact (lookup item).map Shape.list
  | set item => exact (lookup item).map Shape.set
  | map value =>
    cases value with
    | none => exact ok _
    | some value => exact (lookup value).map fun r => Shape.map (some r)
  | object ms => exact (members ms).map Shape.object
  | stringEnum vs extensible => exact ok _
  | oneOf discriminant vs => exact (variants vs).map (Shape.oneOf discriminant)
  | synonym target => exact (lookup target).map Shape.synonym
  | override readOnly writeOnly title description target =>
    exact (lookup target).map (Shape.override readOnly writeOnly title description)

theorem item (i : Item) : Relocates f i.shape.refs (i.relocate (settle f)) (i.mapRefs f) :=
  (shape i.shape).map fun s => { i with shape := s }

theorem parameter (p : Parameter) :
    Relocates f [p.item] (p.relocate (settle f)) (p.mapRefs f) :=
  (lookup p.item).map fun r => { p with item := r }

/-- An operation is put through a lookup as a whole. -/
theorem operation (o : Operation) :
    Relocates f o.refs (o.relocate (settle f)) (o.mapRefs f) := by
  -- the references are listed in the order in which they are looked up
  rw [Operation.refs]
  simp only [List.append_assoc]
  refine (optional o.pathParameters).bind ?_
  refine (optional o.queryParameters).bind ?_
  refine (mapM_one fun p _ => (parameter p.2).map fun q => (p.1, q)).bind ?_
  refine (mapM_one fun p _ => parameter p).bind ?_
  refine (optional o.requestBody).bind ?_
  exact (lookup o.response).map _

end Relocates

/-- A model is put through a lookup as a whole: all references are looked up before anything else
happens. -/
theorem Model.relocates_resolveAll (m : Model) :
    Relocates m.resolved m.refs
      { m.relocate (settle m.resolved) with acceptHeader := none, finalized := true }
      m.resolveAll := by
  rw [Model.refs]
  simp only [List.append_assoc]
  refine (Relocates.mapM fun i _ => Relocates.item i).bind ?_
  refine (Relocates.mapM fun o _ => Relocates.operation o).bind ?_
  -- the last of the three loops runs over the shared responses, with a loop for each of them
  have hshared : Relocates m.resolved
      (m.responseVariants.flatMap fun p => p.2.map Variant.definition)
      (m.relocate (settle m.resolved)).responseVariants
      (m.responseVariants.mapM fun p => do
        return (p.1, ← Shape.mapVariants m.resolved p.2)) :=
    Relocates.mapM fun p _ => (Relocates.variants p.2).map fun vs => (p.1, vs)
  exact hshared.map fun responseVariants =>
    { m.relocate (settle m.resolved) with
      responseVariants, acceptHeader := none, finalized := true }

end TypedApi
