import TypedApi.Proofs.Bindings.Evaluated
/-!
The arguments of a method.

A method asks for what its operation has items for: for the path, for the query, for
the body and for each header. The path is always asked for; whether a call must give
the query and the body is read off their items, and for a header it was noted with
the operation. Each gets a name of its own, and those that a call may leave out are
moved behind those that it must give; nothing else is done to them.
-/

set_option autoImplicit false

namespace TypedApi

/-- Whether some field of a shape must be given. -/
def Shape.hasRequired : Shape → Bool
  | .object members => members.any fun p => !p.2.inlineOption
  | _ => false

namespace Bindings

variable {m : Model} {o : Operation}

/-- What a reference leads to. -/
theorem exists_resolve {r : Ref} (h : Grounds m r) : ∃ item, m.resolve r = .ok item := by
  obtain ⟨index, rfl, hlow, hhigh⟩ := h
  obtain ⟨j, rfl⟩ := Int.eq_ofNat_of_zero_le hlow
  have hj : j < m.definitions.length := by
    rw [Model.size] at hhigh
    omega
  have hindex : m.indexOf (.resolved (j : Int)) = .ok (j : Int) := Model.indexOf_resolved hj
  refine ⟨m.definitions[j], ?_⟩
  rw [Model.resolve, hindex]
  exact Model.itemAt_natCast (List.getElem?_eq_getElem hj)

/-! ## What an operation asks for -/

/-- Whether a call must give the query: whether the item for it has a field that must be given. -/
def needsQuery (m : Model) (r : Ref) : Bool :=
  match m.resolve r with
  | .ok item => item.shape.hasRequired
  | .error _ => false

/-- Whether a call must give the body: whether the item for it admits no null. -/
def needsBody (m : Model) (r : Ref) : Bool :=
  match m.resolve r with
  | .ok item => !item.nullable
  | .error _ => false

/-- The arguments that an operation asks for, in order. -/
def asked (m : Model) (o : Operation) : List Request :=
  o.pathParameters.toList.map (fun r => ⟨"path", r, true⟩) ++
    o.queryParameters.toList.map (fun r => ⟨"query", r, needsQuery m r⟩) ++
    o.requestBody.toList.map (fun r => ⟨"body", r, needsBody m r⟩) ++
    o.headers.map fun p => ⟨p.2.generatedName, p.2.item, p.2.required⟩

theorem queryRequired_eq {r : Ref} (h : Grounds m r) : queryRequired m r = .ok (needsQuery m r) := by
  obtain ⟨item, hitem⟩ := exists_resolve h
  have hshape : queryRequired m r = match item.shape with
      | .object members => .ok (members.any fun p => !p.2.inlineOption)
      | _ => .ok false := by
    rw [queryRequired, hitem]
    rfl
  rw [hshape, needsQuery, hitem]
  show _ = Except.ok item.shape.hasRequired
  cases item.shape <;> rfl

/-- Where the items are known, what is asked for is. -/
theorem mapM_toList_eq {f : Ref → Except Failure Request} {g : Ref → Request} {item : Option Ref}
    (h : ∀ r ∈ item.toList, f r = .ok (g r)) : item.toList.mapM f = .ok (item.toList.map g) := by
  cases item with
  | none => rfl
  | some r =>
    rw [Option.toList_some, List.mapM_cons, h r (List.mem_singleton_self r)]
    rfl

/-- **What an operation asks for** is known if its references lead to items. -/
theorem requests_eq (h : ∀ r ∈ o.refs, Grounds m r) : requests m o = .ok (asked m o) := by
  have hquery : o.queryParameters.toList.mapM (fun r => do
      return Request.mk "query" r (← queryRequired m r)) =
        .ok (o.queryParameters.toList.map fun r => ⟨"query", r, needsQuery m r⟩) := by
    refine mapM_toList_eq fun r hr => ?_
    rw [queryRequired_eq (h r (by simp [Operation.refs, hr]))]
    rfl
  have hbody : o.requestBody.toList.mapM (fun r => do
      return Request.mk "body" r !(← m.resolve r).nullable) =
        .ok (o.requestBody.toList.map fun r => ⟨"body", r, needsBody m r⟩) := by
    refine mapM_toList_eq fun r hr => ?_
    obtain ⟨item, hitem⟩ := exists_resolve (h r (by simp [Operation.refs, hr]))
    rw [needsBody, hitem]
    rfl
  rw [requests, hquery, hbody]
  rfl

/-- What is asked for are items that the operation refers to. -/
theorem item_mem_refs_of_mem_asked {q : Request} (h : q ∈ asked m o) : q.item ∈ o.refs := by
  simp only [asked, List.mem_append, List.mem_map] at h
  simp only [Operation.refs, List.mem_append, List.mem_map]
  rcases h with ((⟨r, hr, rfl⟩ | ⟨r, hr, rfl⟩) | ⟨r, hr, rfl⟩) | ⟨p, hp, rfl⟩
  · exact .inl (.inl (.inl (.inl (.inl hr))))
  · exact .inl (.inl (.inl (.inl (.inr hr))))
  · exact .inl (.inr hr)
  · exact .inl (.inl (.inl (.inr ⟨p, hp, rfl⟩)))

/-! ## Arguments -/

/-- The argument for what is asked for: named after it, of the type of its item, and to be given if
it is asked for so. -/
structure ArgumentFor (m : Model) (q : Request) (a : Argument) : Prop where
  name : ∃ taken, a.name = Name.deconflict q.name taken
  type : TypeExpr.ofRef m none q.item = .ok a.type
  required : a.required = q.required

theorem exists_argumentsFrom {rs : List Request} (taken : List String)
    (h : ∀ q ∈ rs, Grounds m q.item) : ∃ arguments, argumentsFrom m taken rs = .ok arguments := by
  induction rs generalizing taken with
  | nil => exact ⟨[], rfl⟩
  | cons q rest ih =>
    obtain ⟨_, _, _, _, htype, _⟩ := exists_ofRef (h q List.mem_cons_self)
    obtain ⟨others, hothers⟩ := ih (Name.deconflict q.name taken :: taken)
      fun q hq => h q (List.mem_cons_of_mem _ hq)
    rw [argumentsFrom, htype]
    dsimp only [bind, Except.bind]
    rw [hothers]
    exact ⟨_, rfl⟩

/-- One argument is made for each thing that is asked for, in order. -/
theorem forall₂_argumentsFrom {taken : List String} {rs : List Request} {arguments : List Argument}
    (h : argumentsFrom m taken rs = .ok arguments) :
    List.Forall₂ (ArgumentFor m) rs arguments := by
  induction rs generalizing taken arguments with
  | nil =>
    cases h
    exact .nil
  | cons q rest ih =>
    obtain ⟨type, htype, h⟩ := of_bind_eq_ok h
    obtain ⟨others, hothers, h⟩ := of_bind_eq_ok h
    cases h
    exact .cons ⟨⟨taken, rfl⟩, htype, rfl⟩ (ih hothers)

/-- **The arguments of a method**: those for what its operation asks for, in order, but those that a
call may leave out after the others. -/
def ArgumentsFor (m : Model) (o : Operation) (arguments : List Argument) : Prop :=
  ∃ given, List.Forall₂ (ArgumentFor m) (asked m o) given ∧
    arguments = given.filter (·.required) ++ given.filter (!·.required)

theorem exists_argumentsOf (h : ∀ r ∈ o.refs, Grounds m r) :
    ∃ arguments, argumentsOf m o = .ok arguments := by
  obtain ⟨given, hgiven⟩ := exists_argumentsFrom (m := m) ["self"] fun q hq =>
    h q.item (item_mem_refs_of_mem_asked (m := m) (o := o) hq)
  rw [argumentsOf, requests_eq h]
  dsimp only [bind, Except.bind]
  rw [hgiven]
  exact ⟨_, rfl⟩

theorem argumentsFor_of_argumentsOf {arguments : List Argument} (hrefs : ∀ r ∈ o.refs, Grounds m r)
    (h : argumentsOf m o = .ok arguments) : ArgumentsFor m o arguments := by
  obtain ⟨rs, hrs, h⟩ := of_bind_eq_ok h
  obtain ⟨given, hgiven, h⟩ := of_bind_eq_ok h
  cases h
  cases (requests_eq hrefs).symm.trans hrs
  exact ⟨given, forall₂_argumentsFrom hgiven, rfl⟩

/-! ## Methods -/

/-- An operation of a closed model refers to items. -/
theorem grounds_of_mem_operations (hclosed : m.Closed) (ho : o ∈ m.operations) :
    ∀ r ∈ o.refs, Grounds m r := by
  intro r hr
  refine hclosed.resolved r (List.mem_append_left _ (List.mem_append_right _ ?_))
  exact List.mem_flatMap.mpr ⟨o, ho, hr⟩

/-- The method for an operation: with its arguments, the type of its answer and its documentation. -/
structure MethodFor (m : Model) (emitDocs : Bool) (o : Operation) (method : Method) : Prop where
  arguments : ArgumentsFor m o method.arguments
  returns : TypeExpr.ofRef m none o.response = .ok method.returns
  docs : method.docs = if emitDocs then docLiteral? o.docString 8 else none

/-- **The methods for operations** whose references lead to items are made, one for each, in
order. -/
theorem exists_methodsFrom {operations : List Operation} (emitDocs : Bool) (taken : List String)
    (h : ∀ o ∈ operations, ∀ r ∈ o.refs, Grounds m r) :
    ∃ methods, methodsFrom m emitDocs taken operations = .ok methods := by
  induction operations generalizing taken with
  | nil => exact ⟨[], rfl⟩
  | cons o rest ih =>
    have hrefs := h o List.mem_cons_self
    obtain ⟨arguments, harguments⟩ := exists_argumentsOf hrefs
    obtain ⟨_, _, _, _, hreturns, _⟩ :=
      exists_ofRef (hrefs o.response (by simp [Operation.refs]))
    have hmethod : ∃ method, methodOf m emitDocs taken o = .ok method := by
      rw [methodOf, harguments, hreturns]
      exact ⟨_, rfl⟩
    obtain ⟨method, hmethod⟩ := hmethod
    obtain ⟨others, hothers⟩ := ih (method.name :: taken) fun o ho => h o (List.mem_cons_of_mem _ ho)
    rw [methodsFrom, hmethod]
    dsimp only [bind, Except.bind]
    rw [hothers]
    exact ⟨_, rfl⟩

/-- What they are the methods for. -/
theorem forall₂_methodsFrom {emitDocs : Bool} {operations : List Operation} {taken : List String}
    {methods : List Method} (hrefs : ∀ o ∈ operations, ∀ r ∈ o.refs, Grounds m r)
    (h : methodsFrom m emitDocs taken operations = .ok methods) :
    List.Forall₂ (MethodFor m emitDocs) operations methods := by
  induction operations generalizing taken methods with
  | nil =>
    cases h
    exact .nil
  | cons o rest ih =>
    obtain ⟨method, hmethod, h⟩ := of_bind_eq_ok h
    obtain ⟨others, hothers, h⟩ := of_bind_eq_ok h
    cases h
    obtain ⟨arguments, harguments, hmethod⟩ := of_bind_eq_ok hmethod
    obtain ⟨returns, hreturns, hmethod⟩ := of_bind_eq_ok hmethod
    cases hmethod
    have hfirst := argumentsFor_of_argumentsOf (hrefs o List.mem_cons_self) harguments
    exact .cons ⟨hfirst, hreturns, rfl⟩ (ih (fun o ho => hrefs o (List.mem_cons_of_mem _ ho)) hothers)

end Bindings

end TypedApi
