import TypedApi.Proofs.Conversion.Appending
import TypedApi.Proofs.Operation.Touches
/-!
The parts of an operation.

Lowering an operation is a sequence of parts: the declared parameters, the
implicit header, one object each for the parameters in the path and in the
query, the body, and the union of the responses. An operation that comes out of
it has gone through all of them, each on the workbench that the one before has
left, and what they answered is what its fields hold. `Parts` keeps these runs
together, so that what an operation holds can be read off the part that made it.
-/

set_option autoImplicit false

namespace TypedApi

open Build

/-! ## What a reference leads to -/

/-- A reference leads to an item with a property. -/
def Model.Finds (m : Model) (r : Ref) (P : Item → Prop) : Prop :=
  ∃ (i : Nat) (item : Item), m.indexOf r = .ok i ∧ m.definitions[i]? = some item ∧ P item

section Finds

variable {m m' : Model} {r r' : Ref} {P : Item → Prop}

/-- What is kept of an item, a reference finds later. -/
theorem Model.Finds.kept (h : m.Finds r P) (hkept : m.Kept m')
    (hP : ∀ a b : Item, a.Stays b → a.shape.Stays m m' b.shape → P a → P b) : m'.Finds r P := by
  obtain ⟨i, item, hindex, hitem, hp⟩ := h
  obtain ⟨item', hitem', hstays, hshape⟩ := hkept.definitions i item hitem
  exact ⟨i, item', hkept.indexOf hindex, hitem', hP item item' hstays hshape hp⟩

/-- Two references with one index find the same. -/
theorem Model.Finds.of_indexOf_eq (h : m.Finds r P) (heq : m.indexOf r' = m.indexOf r) :
    m.Finds r' P := by
  obtain ⟨i, item, hindex, hitem, hp⟩ := h
  exact ⟨i, item, heq.trans hindex, hitem, hp⟩

/-- A reference to an item that has just been added finds it. -/
theorem Model.finds_of_addItem {item : Item} {path : Option String} {w w' : Workbench}
    (h : exec (addItem item path) w = (.ok r, w'))
    (hP : ∀ name, P { item with generatedName := name }) : w'.model.Finds r P := by
  obtain ⟨name, rfl, hmodel⟩ := of_exec_addItem h
  have hsize : w'.model.size = w.model.size + 1 := by simp [hmodel, Model.size, Model.withItem]
  refine ⟨w.model.size, { item with generatedName := name }, Model.indexOf_back (by omega), ?_,
    hP name⟩
  simp [hmodel, Model.withItem, Model.size]

/-- So does a reference by the path under which it has been added. -/
theorem Model.finds_path_of_addItem {item : Item} {path : String} {w w' : Workbench}
    (h : exec (addItem item (some path)) w = (.ok r, w'))
    (hP : ∀ name, P { item with generatedName := name }) : w'.model.Finds (.forward path) P := by
  obtain ⟨rfl, hpath, hsize⟩ := addItem_registers h
  refine (Model.finds_of_addItem h hP).of_indexOf_eq ?_
  rw [Model.indexOf_back (by omega), Model.indexOf, hpath]

/-- A reference that is resolved leads to the index that it led to. -/
theorem Model.indexOf_settle {i : Nat} (h : m.indexOf r = .ok (i : Int)) (hi : i < m.size)
    (hfinish : m.finish = (m', none)) : m'.indexOf (settle m.resolved r) = .ok (i : Int) := by
  have hsettle : settle m.resolved r = .resolved (i : Int) := by
    rw [settle, Model.resolved_eq_ok_iff.mpr ⟨_, h, rfl⟩]
  rw [hsettle]
  exact Model.indexOf_resolved (Nat.lt_of_lt_of_le hi (Model.kept_of_finish hfinish).size_le)

/-- Resolving a reference does not change what it finds. -/
theorem Model.Finds.settle (h : m.Finds r P) (hfinish : m.finish = (m', none))
    (hP : ∀ a b : Item, a.Stays b → a.shape.Stays m m' b.shape → P a → P b) :
    m'.Finds (settle m.resolved r) P := by
  obtain ⟨i, item, hindex, hitem, hp⟩ := h
  obtain ⟨item', hitem', hstays, hshape⟩ := (kept_of_finish hfinish).definitions i item hitem
  have hi : i < m.size := (List.getElem?_eq_some_iff.mp hitem).1
  exact ⟨i, item', Model.indexOf_settle hindex hi hfinish, hitem',
    hP item item' hstays hshape hp⟩

end Finds

/-- A reference leads to an item of a shape. -/
def Model.Shows (m : Model) (r : Ref) (shape : Shape) : Prop :=
  ∃ (i : Nat) (item : Item), m.indexOf r = .ok i ∧ m.definitions[i]? = some item ∧
    item.shape = shape

section Shows

variable {S : Standard} {m m' : Model} {r : Ref} {shape : Shape}

/-- A reference that leads to an item of a shape still does so where all is kept, unless the model
is finished in between. -/
theorem Model.Shows.kept (h : m.Shows r shape) (hkept : m.Kept m')
    (hfinal : m'.finalized = m.finalized) : m'.Shows r shape := by
  refine Model.Finds.kept (P := (·.shape = shape)) h hkept fun a b _ hstays ha => ?_
  rcases hstays with ⟨_, heq⟩ | ⟨hopen, hclosed, _⟩
  · rw [heq, ha]
  · rw [hfinal, hopen] at hclosed
    cases hclosed

/-- Steps do not finish a model. -/
theorem Model.Shows.steps (h : m.Shows r shape) (hsteps : Steps S m m') : m'.Shows r shape :=
  h.kept hsteps.kept hsteps.finalized_eq

/-- A reference to an item that has just been added leads to its shape. -/
theorem Model.shows_of_addItem {item : Item} {path : Option String} {w w' : Workbench}
    (h : exec (addItem item path) w = (.ok r, w')) : w'.model.Shows r item.shape :=
  Model.finds_of_addItem h fun _ => rfl

/-- A scalar that a reference leads to is found by its index in the finished model. -/
theorem Model.Shows.finish {scalar : Scalar} {index : Int} (h : m.Shows r (.scalar scalar))
    (hfinish : m.finish = (m', none)) (hindex : m.indexOf r = .ok index) :
    m'.Shows (.resolved index) (.scalar scalar) := by
  obtain ⟨i, item, hi, hitem, hshape⟩ := h
  obtain ⟨item', hitem', _, hstays⟩ := (Model.kept_of_finish hfinish).definitions i item hitem
  obtain rfl : (i : Int) = index := Except.ok.inj (hi.symm.trans hindex)
  refine ⟨i, item', Model.indexOf_resolved (List.getElem?_eq_some_iff.mp hitem').1, hitem', ?_⟩
  rcases hstays with ⟨_, heq⟩ | ⟨_, _, g, _, heq⟩
  · rw [heq, hshape]
  -- a scalar has neither references nor variants, so it is as it was
  · rw [hshape] at heq
    cases hshape' : item'.shape with
    | oneOf discriminant variants =>
      rw [hshape'] at heq
      cases heq
    | _ =>
      rw [hshape'] at heq
      exact heq

/-- A union that a reference leads to has its references resolved and its variants named when the
model is finished. -/
theorem Model.Shows.finish_oneOf {discriminant : Option String} {vs : List Variant}
    (h : m.Shows r (.oneOf discriminant vs)) (hfinish : m.finish = (m', none)) :
    m'.Shows r (.oneOf discriminant (nameVariants (fun r => (m.settled.nameOf r).map some) 0
      (vs.map (Variant.relocate (settle m.resolved)))).1) := by
  obtain ⟨i, item, hindex, hitem, hshape⟩ := h
  let named := (nameItem (fun r => (m.settled.nameOf r).map some)
    (item.relocate (settle m.resolved))).1
  have hnamed : m'.definitions[i]? = some named := by
    rw [(definitions_finish hfinish).2, List.getElem?_map, hitem]
    rfl
  refine ⟨i, named, (kept_of_finish hfinish).indexOf hindex, hnamed, ?_⟩
  have hrelocated : (item.relocate (settle m.resolved)).shape =
      .oneOf discriminant (vs.map (Variant.relocate (settle m.resolved))) := by
    rw [Item.relocate, hshape, Shape.relocate_oneOf]
  simp only [named, nameItem, hrelocated]

end Shows

namespace Operation

/-! ## What the parts touch -/

theorem parametersOf_touches (document pathItem operation : Document) :
    Keeps (Model.Touches IsHeaderPath) (parametersOf document pathItem operation) :=
  allows_touches.parametersOf ..

theorem combine_touches (kind specName label : String) (members : Table Member) :
    Keeps (Model.Touches IsHeaderPath) (combine kind specName label members) :=
  allows_touches.combine ..

theorem bodyOf_touches (verb : Verb) (path operationId operation : Document) :
    Keeps (Model.Touches IsHeaderPath) (bodyOf verb path operationId operation) :=
  allows_touches.bodyOf ..

/-- A status registers the paths of shared headers only. -/
theorem statusVariants_touches (document : Document) (generatedName : String)
    (entry : String × Document) :
    Keeps (Model.Touches IsHeaderPath) (statusVariants document generatedName entry) :=
  allows_touches.statusVariants (allows_touches.convertHeader (fun _ h => h) _) ..

/-- Responses that are lowered register the paths of shared headers only. -/
theorem createResponses_touches (document : Document) (specName : String) (responses : Document) :
    Keeps (Model.Touches IsHeaderPath) (createResponses document specName responses) :=
  allows_touches.createResponses (allows_touches.convertHeader (fun _ h => h) _) ..

/-! ## Parts -/

/-- The responses that an operation declares. -/
def responsesOf (operation : Document) : Document :=
  ((operation.find? "responses").getD .null).orElse (.object [])

/-- The implicit header with its item. -/
def implicitParameter (item : Ref) : Parameter where
  generatedName := "accept"
  specName := "Accept"
  location := .header
  item := item

/-- The item of the implicit header, as it is proposed. -/
def acceptItem : Item where
  specName := "Accept"
  generatedName := "Accept"
  shape := .scalar .acceptHeader
  implHeader := true

/-- The header that is put in front of the declared parameters, if some response asks for it and no
declared header stands for it. -/
def implicitHeaders (document : Document) (declared : List Parameter) (responses : Document) :
    Build (List Parameter) := do
  let implicit ←
    if declaresAccept (headerTable declared) then pure false else anySeveral document responses
  if implicit then return [← acceptParameter] else return []

/-- How an operation was lowered: the answers of its parts, with the workbench that each of them has
left to the next. -/
structure Parts (document path : Document) (verb : Verb) (pathItem operation : Document)
    (before after : Workbench) (o : Operation) where
  operationId : Document
  label : String
  declared : List Parameter
  accept : List Parameter
  pathName : String
  queryName : String
  responseName : String
  afterDeclared : Workbench
  afterAccept : Workbench
  afterPath : Workbench
  afterQuery : Workbench
  afterBody : Workbench
  afterResponses : Workbench
  declared_exec :
    exec (parametersOf document pathItem operation) before = (.ok declared, afterDeclared)
  accept_exec :
    exec (implicitHeaders document declared (responsesOf operation)) afterDeclared =
      (.ok accept, afterAccept)
  path_exec :
    exec (combine "path" pathName label (membersAt .path declared)) afterAccept =
      (.ok o.pathParameters, afterPath)
  query_exec :
    exec (combine "query" queryName label (membersAt .query declared)) afterPath =
      (.ok o.queryParameters, afterQuery)
  body_exec :
    exec (bodyOf verb path operationId operation) afterQuery = (.ok o.requestBody, afterBody)
  responses_exec :
    exec (createResponses document responseName (responsesOf operation)) afterBody =
      (.ok o.response, afterResponses)
  model_eq : after.model = afterResponses.model
  parameters_eq : o.parameters = accept ++ declared
  headers_eq : o.headers = accept.map (fun p => (p.specName, p)) ++ headerTable declared

variable {document path pathItem operation responses : Document} {verb : Verb}
  {w w' : Workbench} {o : Operation} {declared accept : List Parameter}

/-- The implicit header is there exactly if no declared header stands for it and some response asks
for it. -/
theorem implicitHeaders_cases
    (h : exec (implicitHeaders document declared responses) w = (.ok accept, w')) :
    (accept = [] ∧ w' = w ∧ (declaresAccept (headerTable declared) = true ∨
      ∀ u, exec (anySeveral document responses) u = (.ok false, u))) ∨
    ∃ p, accept = [p] ∧ exec acceptParameter w = (.ok p, w') ∧
      declaresAccept (headerTable declared) = false ∧
      ∀ u, exec (anySeveral document responses) u = (.ok true, u) := by
  rw [implicitHeaders] at h
  by_cases hdeclares : declaresAccept (headerTable declared) = true
  · rw [if_pos hdeclares] at h
    cases h
    exact .inl ⟨rfl, rfl, .inl hdeclares⟩
  · rw [if_neg hdeclares] at h
    obtain ⟨several, hseveral, h⟩ := of_exec_bind_steady (steady_anySeveral _ _) h
    cases several with
    | false =>
      cases h
      exact .inl ⟨rfl, rfl, .inr hseveral⟩
    | true =>
      obtain ⟨p, u, hp, h⟩ := of_exec_bind_ok h
      cases h
      exact .inr ⟨p, rfl, hp, by simpa using hdeclares, hseveral⟩

/-- The implicit header is optional, and its item is the one that the model remembers, or a new one
that the model remembers from then on. -/
theorem acceptParameter_cases {p : Parameter} (h : exec acceptParameter w = (.ok p, w')) :
    ∃ item, p = implicitParameter item ∧
      ((w.model.acceptHeader = some item ∧ w' = w) ∨
        (w.model.acceptHeader = none ∧ ∃ u, exec (addItem acceptItem) w = (.ok item, u) ∧
          w'.model = u.model.withAccept item)) := by
  rw [acceptParameter, exec_bind_model] at h
  extract_lets rest at h
  cases haccept : w.model.acceptHeader with
  | some r =>
    rw [haccept] at h
    cases h
    exact ⟨r, rfl, .inl ⟨rfl, rfl⟩⟩
  | none =>
    rw [haccept] at h
    obtain ⟨r, u, hr, h⟩ := of_exec_bind_ok h
    cases h
    exact ⟨r, rfl, .inr ⟨rfl, u, hr, rfl⟩⟩

/-- **An operation comes from its parts**, one run after the other. -/
theorem exists_parts (h : exec (create document path verb pathItem operation) w = (.ok o, w')) :
    Nonempty (Parts document path verb pathItem operation w w' o) := by
  rw [create] at h
  obtain ⟨operationId, _, h⟩ := of_exec_bind_steady (.field _ _) h
  extract_lets label responses at h
  obtain ⟨declared, w₁, hdeclared, h⟩ := of_exec_bind_ok h
  extract_lets declaredHeaders rest choose at h
  -- the two ways to the implicit header come together before the rest of the operation
  obtain ⟨accept, w₂, haccept, h⟩ : ∃ accept w₂,
      exec (implicitHeaders document declared responses) w₁ = (.ok accept, w₂) ∧
        exec (rest accept) w₂ = (.ok o, w') := by
    have hchoose : ∀ implicit, exec (choose implicit) w₁ = (.ok o, w') →
        ∃ accept w₂, exec (if implicit then (do return [← acceptParameter]) else pure []) w₁ =
          (.ok accept, w₂) ∧ exec (rest accept) w₂ = (.ok o, w') := by
      intro implicit h
      cases implicit with
      | true =>
        obtain ⟨accept, w₂, haccept, h⟩ := of_exec_bind_ok h
        exact ⟨accept, w₂, haccept, h⟩
      | false => exact ⟨[], w₁, rfl, h⟩
    by_cases hdeclares : declaresAccept declaredHeaders
    · rw [if_pos hdeclares] at h
      obtain ⟨accept, w₂, haccept, h⟩ := hchoose false h
      refine ⟨accept, w₂, ?_, h⟩
      rw [implicitHeaders, if_pos hdeclares]
      exact haccept
    · rw [if_neg hdeclares] at h
      obtain ⟨several, hseveral, h⟩ := of_exec_bind_steady (steady_anySeveral _ _) h
      obtain ⟨accept, w₂, haccept, h⟩ := hchoose several h
      refine ⟨accept, w₂, ?_, h⟩
      rw [implicitHeaders, if_neg hdeclares, exec_bind_ok (hseveral w₁)]
      exact haccept
  obtain ⟨pathName, _, h⟩ := of_exec_bind_steady (steady_specNameOf ..) h
  obtain ⟨pathParameters, w₃, hpath, h⟩ := of_exec_bind_ok h
  obtain ⟨queryName, _, h⟩ := of_exec_bind_steady (steady_specNameOf ..) h
  obtain ⟨queryParameters, w₄, hquery, h⟩ := of_exec_bind_ok h
  obtain ⟨requestBody, w₅, hbody, h⟩ := of_exec_bind_ok h
  obtain ⟨responseName, _, h⟩ := of_exec_bind_steady (steady_specNameOf ..) h
  obtain ⟨response, w₆, hresponse, h⟩ := of_exec_bind_ok h
  obtain ⟨description, _, h⟩ := of_exec_bind_steady (.field _ _) h
  obtain ⟨summary, _, h⟩ := of_exec_bind_steady (.field _ _) h
  obtain ⟨docs, w₇, _, hsame, h⟩ := of_exec_bind_still (still_documentation _) h
  obtain ⟨pathText, _, h⟩ := of_exec_bind_steady (.require _) h
  obtain ⟨pathDocs, _, h⟩ := of_exec_bind_steady (.optionalText _) h
  obtain ⟨ownDocs, _, h⟩ := of_exec_bind_steady (.optionalText _) h
  obtain ⟨identifier, _, h⟩ := of_exec_bind_steady (.optionalText _) h
  cases h
  exact ⟨{
    operationId, label, declared, accept, pathName, queryName, responseName
    afterDeclared := w₁
    afterAccept := w₂
    afterPath := w₃
    afterQuery := w₄
    afterBody := w₅
    afterResponses := w₆
    declared_exec := hdeclared
    accept_exec := haccept
    path_exec := hpath
    query_exec := hquery
    body_exec := hbody
    responses_exec := hresponse
    model_eq := hsame
    parameters_eq := rfl
    headers_eq := rfl }⟩

/-- The implicit header is no operation and shares no variants. -/
theorem same_of_implicitHeaders
    (h : exec (implicitHeaders document declared responses) w = (.ok accept, w')) :
    w'.model.operations = w.model.operations ∧
      w'.model.responseVariants = w.model.responseVariants := by
  rcases implicitHeaders_cases h with ⟨_, rfl, _⟩ | ⟨_, _, haccept, _⟩
  · exact ⟨rfl, rfl⟩
  · obtain ⟨_, _, ⟨_, rfl⟩ | ⟨_, u, hadd, hmodel⟩⟩ := acceptParameter_cases haccept
    · exact ⟨rfl, rfl⟩
    · obtain ⟨_, _, hu⟩ := of_exec_addItem hadd
      rw [hmodel, hu]
      exact ⟨rfl, rfl⟩

namespace Parts

variable (p : Parts document path verb pathItem operation w w' o)

include p

theorem steps_body : Steps .anything p.afterBody.model w'.model := by
  rw [p.model_eq]
  exact ((createResponses_along ..).steps_of_exec (Call.sound_anything _) p.responses_exec).1

theorem steps_query : Steps .anything p.afterQuery.model w'.model :=
  ((bodyOf_along ..).steps_of_exec (Call.sound_anything _) p.body_exec).1.trans p.steps_body

theorem steps_path : Steps .anything p.afterPath.model w'.model :=
  ((combine_along fun _ _ => trivial).steps_of_exec (Call.sound_anything _) p.query_exec).1.trans
    p.steps_query

theorem steps_accept : Steps .anything p.afterAccept.model w'.model :=
  ((combine_along fun _ _ => trivial).steps_of_exec (Call.sound_anything _) p.path_exec).1.trans
    p.steps_path

/-- The declared parameters touch no more than paths of shared headers. -/
theorem declared_touches : w.model.Touches IsHeaderPath p.afterDeclared.model :=
  (parametersOf_touches ..).of_exec p.declared_exec

/-- Neither does anything that comes after the implicit header. -/
theorem rest_touches : p.afterAccept.model.Touches IsHeaderPath w'.model := by
  rw [p.model_eq]
  exact ((combine_touches ..).of_exec p.path_exec).trans <|
    ((combine_touches ..).of_exec p.query_exec).trans <|
    ((bodyOf_touches ..).of_exec p.body_exec).trans <|
    (createResponses_touches ..).of_exec p.responses_exec

end Parts

/-- Lowering an operation adds none to the model, and leaves the shared responses alone. -/
theorem same_of_create (h : exec (create document path verb pathItem operation) w = (.ok o, w')) :
    w'.model.operations = w.model.operations ∧
      w'.model.responseVariants = w.model.responseVariants := by
  obtain ⟨parts⟩ := exists_parts h
  obtain ⟨hoperations, hshared⟩ := same_of_implicitHeaders parts.accept_exec
  rw [parts.rest_touches.operations_eq, parts.rest_touches.responseVariants_eq, hoperations, hshared,
    parts.declared_touches.operations_eq, parts.declared_touches.responseVariants_eq]
  exact ⟨rfl, rfl⟩

end Operation

end TypedApi
