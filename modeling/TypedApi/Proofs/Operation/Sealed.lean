import TypedApi.Proofs.Build.Keeps
import TypedApi.Proofs.Operation.Touches
import Mathlib.Data.List.Forall2
/-!
Lowering operations leaves a finished model alone, but for marks of headers.

A parameter or header that takes over the item of a registered path adds
nothing, so a finished model does not refuse it, and the item that it takes
over is marked as that of a header. With a path to register it is refused
before the mark is set.
-/

set_option autoImplicit false

/-! # What a build does to a finished model

Adding an item and registering a path are refused once a model is finished, so
a build that needs either of them ends there. What it did before is not undone,
and one kind of change is never refused: an item may be marked as that of a
header. `Sealed` says of a build that marks are all it leaves on a finished
model, or nothing at all where no marks are set, and `Refused` that it does not
answer either.
-/

namespace TypedApi

open Build

variable {α β : Type} {marks : Bool} {m m' m'' : Model}

/-! ## Marks -/

/-- The same item, or that item marked as a header where marks may be set. -/
def Item.Marked (marks : Bool) (item item' : Item) : Prop :=
  item' = item ∨ marks = true ∧ item' = { item with implHeader := true }

theorem Item.Marked.trans {a b c : Item} (hab : Item.Marked marks a b)
    (hbc : Item.Marked marks b c) : Item.Marked marks a c := by
  rcases hab with rfl | ⟨hmarks, rfl⟩
  · exact hbc
  · rcases hbc with rfl | ⟨_, rfl⟩
    · exact .inr ⟨hmarks, rfl⟩
    · exact .inr ⟨hmarks, rfl⟩

/-- The same model, up to items marked as headers where marks may be set: as many items in the same
order, the same tables, the same operations and the same shared variants. -/
structure Model.Marked (marks : Bool) (m m' : Model) : Prop where
  items : List.Forall₂ (Item.Marked marks) m.definitions m'.definitions
  rest : m' = { m with definitions := m'.definitions }

namespace Model.Marked

theorem refl (m : Model) : Model.Marked marks m m :=
  ⟨List.forall₂_same.mpr fun _ _ => .inl rfl, rfl⟩

theorem trans (h : Model.Marked marks m m') (h' : Model.Marked marks m' m'') :
    Model.Marked marks m m'' := by
  refine ⟨?_, ?_⟩
  · have hitems := h.items
    -- item by item, along both lists
    rw [List.forall₂_iff_get] at hitems ⊢
    have hitems' := List.forall₂_iff_get.mp h'.items
    refine ⟨hitems.1.trans hitems'.1, fun i hi hi'' => ?_⟩
    have hi' : i < m'.definitions.length := hitems.1 ▸ hi
    exact (hitems.2 i hi hi').trans (hitems'.2 i hi' hi'')
  · rw [h'.rest, h.rest]

/-- A model is still finished after items have been marked. -/
theorem finalized_eq (h : Model.Marked marks m m') : m'.finalized = m.finalized := by
  rw [h.rest]

/-- Where no marks are set, nothing has changed. -/
theorem eq_of_no_marks (h : Model.Marked false m m') : m' = m := by
  have hitems : m.definitions = m'.definitions := by
    rw [← List.forall₂_eq_eq_eq]
    refine h.items.imp fun _ _ hitem => ?_
    rcases hitem with rfl | ⟨hfalse, _⟩
    · rfl
    · cases hfalse
  rw [h.rest, ← hitems]

/-- Setting marks is allowed where they may be set. -/
theorem mono (h : Model.Marked false m m') : Model.Marked marks m m' :=
  h.eq_of_no_marks.symm ▸ refl m

/-- One item is marked. -/
theorem withChange (m : Model) (i : Nat) :
    Model.Marked true m (m.withChange i fun item => { item with implHeader := true }) := by
  refine ⟨?_, rfl⟩
  rw [List.forall₂_iff_get]
  refine ⟨by simp [Model.withChange], fun j hj hj' => ?_⟩
  simp only [Model.withChange, List.get_eq_getElem, List.getElem_modify]
  split
  · exact .inr ⟨rfl, rfl⟩
  · exact .inl rfl

end Model.Marked

/-! ## The judgement -/

/-- If the model was finished, it is the same up to marks. -/
def Model.Seals (marks : Bool) (m m' : Model) : Prop :=
  m.finalized = true → Model.Marked marks m m'

instance : IsPreorder Model (Model.Seals marks) where
  refl m _ := .refl m
  -- a model that has been marked is still finished
  trans _ _ _ h h' hfinal := (h hfinal).trans (h' ((h hfinal).finalized_eq.trans hfinal))

/-- On a finished model, all that a build changes are marks. -/
abbrev Sealed (marks : Bool) (x : Build α) : Prop :=
  Keeps (Model.Seals marks) x

/-- On a finished model, a build fails, and all that it changes are marks. -/
structure Refused (marks : Bool) (x : Build α) : Prop where
  sealed : Sealed marks x
  fails : ∀ w, w.model.finalized = true → ∃ e, (exec x w).1 = .error e

namespace Sealed

/-- Where no marks are set, some might have been. -/
theorem weaken {x : Build α} (hx : Sealed false x) : Sealed marks x :=
  hx.mono fun _ _ h hfinal => (h hfinal).mono

/-- A build that only adds items adds none to a finished model. -/
theorem of_grows {x : Build α} (hx : Keeps Model.Grows x) : Sealed marks x :=
  hx.mono fun m _ h hfinal => by rw [h.eq_of_finalized hfinal]; exact .refl m

/-- The mark of a header is set on a finished model as on any other. -/
theorem markHeader (r : Ref) :
    Sealed true (modifyItem r fun item => { item with implHeader := true }) := by
  refine .model fun m => .skip (.lift _) fun index => ?_
  split
  · exact ⟨fun w _ => .withChange w.model _⟩
  · exact .throw _

end Sealed

namespace Refused

/-- After a part that is refused, nothing else is done. -/
theorem bind {x : Build α} {f : α → Build β} (hx : Refused marks x) :
    Refused marks (x >>= f) := by
  refine ⟨⟨fun w hw => ?_⟩, fun w hw => ?_⟩ <;>
    obtain ⟨e, he⟩ := hx.fails w hw <;>
    rw [exec_bind_error (Prod.ext he rfl : exec x w = (.error e, (exec x w).2))]
  · exact hx.sealed.runs w hw
  · exact ⟨e, rfl⟩

/-- A sequence whose second part is refused. -/
theorem after {x : Build α} {f : α → Build β} (hx : Sealed marks x)
    (hf : ∀ a, Refused marks (f a)) : Refused marks (x >>= f) := by
  refine ⟨hx.bind fun a => (hf a).sealed, fun w hw => ?_⟩
  rw [exec_bind]
  rcases h : exec x w with ⟨e | a, u⟩
  · exact ⟨e, rfl⟩
  · have hmarked := hx.runs w hw
    rw [h] at hmarked
    exact (hf a).fails u (hmarked.finalized_eq.trans hw)

theorem skip {x : Build α} {f : α → Build β} (hx : Still x) (hf : ∀ a, Refused marks (f a)) :
    Refused marks (x >>= f) :=
  after (.still hx) hf

theorem ite {c : Prop} [Decidable c] {x y : Build α} (hx : Refused marks x)
    (hy : Refused marks y) : Refused marks (if c then x else y) := by
  split
  · exact hx
  · exact hy

/-! ## The primitives -/

theorem addItem (item : Item) (path : Option String) : Refused marks (Build.addItem item path) := by
  refine ⟨⟨fun w hw => ?_⟩, fun w hw => ?_⟩ <;>
    rcases addItem_cases item path w with ⟨e, w', h, hm⟩ | ⟨_, _, _, hopen, _⟩
  · rw [h, hm]
    exact .refl _
  · exact absurd hw (by simp [hopen])
  · exact ⟨e, by rw [h]⟩
  · exact absurd hw (by simp [hopen])

theorem addScalar (specName generatedName : String) (path : Option String) (scalar : Scalar) :
    Refused marks (Build.addScalar specName generatedName path scalar) :=
  addItem _ _

theorem registerPath (path : String) (r : Ref) : Refused marks (Build.registerPath path r) := by
  refine ⟨⟨fun w hw => ?_⟩, fun w hw => ?_⟩ <;>
    rcases registerPath_cases path r w with ⟨e, h⟩ | ⟨_, _, hopen, _⟩
  · rw [h]
    exact .refl _
  · exact absurd hw (by simp [hopen])
  · exact ⟨e, by rw [h]⟩
  · exact absurd hw (by simp [hopen])

end Refused

end TypedApi

/-! # Lowering operations -/

namespace TypedApi.Operation

open Build

variable {marks : Bool}

/-! ## Schemas -/

/-- A finished model gets no inline item. -/
theorem addInline_refused (specName generatedName : String) (path : Option String)
    (schema : Document) (placement : Option Schema.Placement) (contentType : Document) :
    Refused marks (Schema.addInline specName generatedName path schema placement contentType) :=
  .after (Sealed.of_grows (Schema.lower_grows ..)) fun _ => .addItem _ _

/-- A finished model refuses the scalar of an external reference as well; any other reference is
converted without an item. -/
theorem convert_sealed (specName generatedName : String) (path : Option String)
    (schema : Document) (placement : Option Schema.Placement) :
    Sealed marks (Schema.convert specName generatedName path schema placement) := by
  refine .ite (addInline_refused ..).sealed (.skip (.require _) fun target => .model fun m => ?_)
  split
  · exact .pure _
  · split
    · exact (Refused.addScalar ..).sealed
    · exact .pure _

/-! ## Parameters -/

/-- With a path to register, a finished model refuses whatever comes after that. -/
theorem insertParameter_refused (path : String) (param : Document) :
    Refused false (insertParameter (some path) param) := by
  refine .skip (.require _) fun _ => .skip (.lift _) fun location => ?_
  refine .skip (steady_parameterSchema _ _).still fun ⟨contentType, schema⟩ => ?_
  refine .skip (.field _ _) fun reference => ?_
  extract_lets description jp
  have hjp : ∀ r, Refused false (jp r) := fun _ => .bind (.registerPath _ _)
  refine .ite (.skip (steady_namesFor _).still fun ⟨specName, generatedName⟩ => ?_) ?_
  · exact .bind (addInline_refused ..)
  · refine .after (Sealed.of_grows (referredItem_grows (steady_namesFor _).still _)) fun target => ?_
    refine .ite (hjp _) (.skip (steady_namesFor _).still fun ⟨specName, generatedName⟩ => ?_)
    exact .skip (.textOrNull _) fun _ => .skip (.optionalText _) fun _ => .bind (.addItem _ _)

/-- Without a path, the item that a required header takes over is marked. -/
theorem insertParameter_sealed (param : Document) : Sealed true (insertParameter none param) := by
  refine .skip (.require _) fun _ => .skip (.lift _) fun location => ?_
  refine .skip (steady_parameterSchema _ _).still fun ⟨contentType, schema⟩ => ?_
  refine .skip (.field _ _) fun reference => ?_
  extract_lets description jp
  have hjp : ∀ r, Sealed true (jp r) := fun r =>
    .ite ((Sealed.markHeader r).bind fun _ => .pure r) (.pure r)
  refine .ite (.skip (steady_namesFor _).still fun ⟨specName, generatedName⟩ => ?_) ?_
  · exact (Refused.bind (addInline_refused ..)).sealed
  · refine (Sealed.of_grows (referredItem_grows (steady_namesFor _).still _)).bind fun target => ?_
    refine .ite (hjp _) (.skip (steady_namesFor _).still fun ⟨specName, generatedName⟩ => ?_)
    refine .skip (.textOrNull _) fun _ => .skip (.optionalText _) fun _ => ?_
    exact (Refused.bind (.addItem _ _)).sealed

theorem insertComponentParameter_refused (path : String) (param : Document) :
    Refused false (insertComponentParameter path param) := by
  refine .skip (.require _) fun _ => ?_
  split
  · exact .after (.namedBy _) fun r => .bind (.registerPath path r)
  · exact insertParameter_refused ..

theorem convertParameter_sealed (document entry : Document) :
    Sealed true (convertParameter document entry) := by
  refine .skip (.require _) fun _ => ?_
  split
  · exact (insertParameter_sealed ..).bind fun _ => .pure _
  · exact .skip (.lift _) fun _ => (Keeps.namedBy _).bind fun _ => .pure _

theorem still_makeParameter (param : Document) (item : Ref) : Still (makeParameter param item) :=
  .bind (.require _) fun _ => .bind (.require _) fun _ => .bind (.lift _) fun _ => .pure _

/-! ## Bodies -/

theorem createBody_refused (specName : String) (path : Option String) (body : Document) :
    Refused false (createBody specName path body) :=
  .skip (.field _ _) fun _ => .skip (.require _) fun _ =>
    .after (Sealed.of_grows (bodyItem_grows ..)) fun _ => .addItem _ _

theorem referredBody_sealed (body : Document) : Sealed false (referredBody body) :=
  .skip (.field _ _) fun _ => .namedBy _

/-! ## Headers -/

theorem createHeader_refused (specName : Document) (path : String) (header : Document) :
    Refused false (createHeader specName (some path) header) := by
  refine .skip (.require _) fun name => .skip (.deconflict _) fun generatedName => ?_
  refine .skip (.require _) fun _ => .skip (steady_headerSchema _ _).still fun schema => ?_
  extract_lets description jp
  have hjp : ∀ r, Refused false (jp r) := fun _ => .bind (.registerPath _ _)
  refine .ite (.bind (.addScalar ..)) (.skip (.require _) fun isReference => .ite ?_ ?_)
  · refine .skip (.field _ _) fun reference => ?_
    refine .after (Sealed.of_grows (referredItem_grows (.pure _) _)) fun inner => .ite (hjp _) ?_
    exact .skip (.textOrNull _) fun _ => .bind (.addItem _ _)
  · exact .bind (addInline_refused ..)

/-- Without a path, the item that a required header takes over is marked. -/
theorem createHeader_sealed (specName header : Document) :
    Sealed true (createHeader specName none header) := by
  refine .skip (.require _) fun name => .skip (.deconflict _) fun generatedName => ?_
  refine .skip (.require _) fun _ => .skip (steady_headerSchema _ _).still fun schema => ?_
  extract_lets description jp
  have hjp : ∀ r, Sealed true (jp r) := fun r => (Sealed.markHeader r).bind fun _ => .pure r
  refine .ite (Refused.bind (.addScalar ..)).sealed (.skip (.require _) fun isReference => ?_)
  refine .ite (.skip (.field _ _) fun reference => ?_) ?_
  · refine (Sealed.of_grows (referredItem_grows (.pure _) _)).bind fun inner => .ite (hjp _) ?_
    exact .skip (.textOrNull _) fun _ => (Refused.bind (.addItem _ _)).sealed
  · exact (Refused.bind (addInline_refused ..)).sealed

theorem createShared_refused (specName : Document) (path : String) (header : Document) :
    Refused false (createShared specName path header) :=
  .bind (createHeader_refused ..)

/-- A registered path is looked up; what would be done without it may be refused. -/
theorem lookup_sealed {path : String} {orElse : Build Ref} (h : Sealed marks orElse) :
    Sealed marks (do
      match (← model).namedReferences.get? path with
      | some index => return .back index
      | none => orElse) := by
  refine .model fun m => ?_
  split
  · exact .pure _
  · exact h

theorem headerAlong_sealed (links : List Document.Link) : Sealed false (headerAlong links) := by
  induction links with
  | nil => exact .throw _
  | cons link rest ih =>
    refine lookup_sealed ?_
    split
    · exact .problem _
    · exact .ite (createShared_refused ..).sealed
        (ih.bind fun r => (Refused.bind (.registerPath _ r)).sealed)

theorem referredHeader_sealed (document reference header : Document) :
    Sealed false (referredHeader document reference header) := by
  unfold referredHeader
  split
  · have hchain : ∀ path, Sealed false (do
        let links ← lift (Document.blameReference path (document.chain header))
        headerAlong links) := fun _ => .skip (.lift _) fun links => headerAlong_sealed links
    exact lookup_sealed (.ite (.skip (.problem _) fun _ => hchain _) (hchain _))
  · exact .throw _

theorem convertHeader_sealed (document specName header : Document) :
    Sealed true (convertHeader document specName header) :=
  .skip (.field _ _) fun _ => .ite (createHeader_sealed ..) (referredHeader_sealed ..).weaken

theorem insertComponentHeader_sealed (document specName header : Document) :
    Sealed true (insertComponentHeader document specName header) := by
  refine lookup_sealed (.skip (.require _) fun isReference => .ite ?_ ?_)
  · exact (convertHeader_sealed ..).bind fun r => (Refused.bind (.registerPath _ r)).sealed
  · exact (createShared_refused ..).sealed.weaken

/-! ## Responses -/

theorem addPayload_sealed (specName generatedName : String) (schema contentType docs : Document) :
    Sealed false (addPayload specName generatedName schema contentType docs) := by
  refine .ite (Refused.bind (.addScalar ..)).sealed (.skip (.field _ _) fun reference => ?_)
  refine .ite (Refused.bind (addInline_refused ..)).sealed (.skip (.require _) fun _ => ?_)
  exact .ite (Refused.bind (.addScalar ..)).sealed (Sealed.of_grows (Schema.convert_grows ..))

theorem headerMember_sealed (document : Document) (specName : String)
    (entry : String × Document) : Sealed true (headerMember document specName entry) := by
  obtain ⟨name, header⟩ := entry
  have hrest : Sealed true (do
      let target ← lift (document.followOrBlame header)
      let definition ← convertHeader document (.text name) header
      return (name, ({ definition, inlineOption := !(← field target "required").holds } : Member))) :=
    .skip (.lift _) fun _ => (convertHeader_sealed ..).bind fun _ =>
      .skip (.field _ _) fun _ => .pure _
  exact .ite (.skip (.problem _) fun _ => hrest) hrest

theorem wrapWithHeaders_refused (document : Document) (name : String)
    (headers : List (String × Document)) (body : Ref) (contentType docs : Document) :
    Refused true (wrapWithHeaders document name headers body contentType docs) :=
  .after (.mapM (fun _ => headerMember_sealed ..) _) fun _ =>
    .skip (.textOrNull _) fun _ => .skip (.optionalText _) fun _ => .addItem _ _

theorem createVariants_sealed (document : Document) (itemName : String) (response : Document) :
    Sealed true (createVariants document itemName response) := by
  refine .skip (.field _ _) fun _ => .skip (.require _) fun content => ?_
  refine .skip (steady_ownHeaders _).still fun headers => .skip (.field _ _) fun docs => ?_
  refine .skip (steady_contentEntries _).still fun entries => .mapM (fun entry => ?_) _
  obtain ⟨contentType, schema⟩ := entry
  unfold responseVariant
  dsimp -zeta only
  extract_lets tag jp
  have hjp : ∀ name, Sealed true (jp name) := fun name =>
    (addPayload_sealed ..).weaken.bind fun payload =>
      .ite (.pure _) ((wrapWithHeaders_refused ..).sealed.bind fun _ => .pure _)
  exact .ite (.skip (.require _) fun _ => hjp _) (hjp _)

theorem createResponses_refused (document : Document) (specName : String) (responses : Document) :
    Refused true (createResponses document specName responses) := by
  refine .skip (.require _) fun fields => .after (.mapM (fun entry => ?_) _) fun _ => .addItem _ _
  obtain ⟨status, response⟩ := entry
  refine .skip (.lift _) fun name => .skip (.require _) fun _ => ?_
  extract_lets jp
  split
  · exact .skip (still_cachedVariantsBy _) fun _ => .pure _
  · exact (createVariants_sealed ..).bind fun _ => .pure _

/-! ## Operations -/

theorem acceptParameter_sealed : Sealed false acceptParameter := by
  refine .model fun m => ?_
  extract_lets jp
  split
  · exact .pure _
  · exact (Refused.bind (.addItem _ _)).sealed

theorem combine_sealed (kind specName label : String) (members : Table Member) :
    Sealed false (combine kind specName label members) :=
  .ite (.pure _) (Refused.bind (.addItem _ _)).sealed

theorem bodyOf_sealed (verb : Verb) (path operationId operation : Document) :
    Sealed false (bodyOf verb path operationId operation) := by
  refine .ite (.pure _) (.skip (.require _) fun _ => .ite ?_ ?_)
  · exact (referredBody_sealed _).bind fun _ => .pure _
  · exact .skip (steady_specNameOf ..).still fun _ => (Refused.bind (createBody_refused ..)).sealed

theorem parametersOf_sealed (document pathItem operation : Document) :
    Sealed true (parametersOf document pathItem operation) := by
  refine .skip (steady_entries _).still fun _ => .skip (steady_entries _).still fun _ => ?_
  refine .skip (.lift _) fun merged => ?_
  exact .mapM (fun entry => (convertParameter_sealed ..).bind fun _ =>
    .still (still_makeParameter _ _)) _

/-- Every operation adds the union of its responses, so a finished model gets none. -/
theorem create_refused (document path : Document) (verb : Verb) (pathItem operation : Document) :
    Refused true (create document path verb pathItem operation) := by
  refine .skip (.field _ _) fun operationId => ?_
  extract_lets label responses
  refine .after (parametersOf_sealed ..) fun declared => ?_
  extract_lets declaredHeaders rest choose
  have hrest : ∀ accept, Refused true (rest accept) := by
    refine fun accept => .skip (steady_specNameOf ..).still fun _ => .after (combine_sealed ..).weaken
      fun _ => .skip (steady_specNameOf ..).still fun _ => .after (combine_sealed ..).weaken fun _ => ?_
    refine .after (bodyOf_sealed ..).weaken fun _ => .skip (steady_specNameOf ..).still fun _ => ?_
    exact .bind (createResponses_refused ..)
  have hchoose : ∀ implicit, Refused true (choose implicit) := fun _ =>
    .ite (.after (acceptParameter_sealed.weaken.bind fun _ => .pure _) hrest) (hrest _)
  exact .ite (hchoose false) (.skip (steady_anySeveral _ _).still hchoose)

theorem insertAll_sealed (document : Document) : Sealed true (insertAll document) := by
  refine .skip (.field _ _) fun _ => .skip (.require _) fun paths => .forM fun entry _ => ?_
  refine .skip (.lift _) fun pathItem => .skip (.require _) fun keys => .forM fun entry _ => ?_
  refine .skip (.require _) fun key => .ite (.pure _) (.skip (.lift _) fun verb => ?_)
  exact (Refused.bind (create_refused ..)).sealed

end TypedApi.Operation
