import TypedApi.Operation.Signature
import TypedApi.Proofs.Schema.Steps
/-!
Lowering operations goes along with every standard.

Parameters, headers, bodies and responses store references of four origins: an
item that was just added, a registered path, a shared response, or the path of
something that may come later. All four meet a standard that the model meets,
so every part goes along with it, and so does a whole operation.
-/

set_option autoImplicit false

namespace TypedApi.Operation

open Build

variable {S : Standard} {m : Model}

/-! ## Remarks -/

theorem remark_orDocs (docs : Document) : Item.Remark (·.orDocs docs) := by
  intro item
  dsimp only [Item.orDocs]
  split
  · exact ⟨docs, item.pubTypedef, item.implHeader, rfl⟩
  · exact ⟨item.docs, item.pubTypedef, item.implHeader, rfl⟩

theorem remark_docs (docs : Document) : Item.Remark fun item => { item with docs := docs } :=
  fun item => ⟨docs, item.pubTypedef, item.implHeader, rfl⟩

theorem remark_implHeader : Item.Remark fun item => { item with implHeader := true } :=
  fun item => ⟨item.docs, item.pubTypedef, true, rfl⟩

theorem remark_pubTypedef : Item.Remark fun item => { item with pubTypedef := true } :=
  fun item => ⟨item.docs, true, item.implHeader, rfl⟩

@[simp] theorem shape_orDocs (item : Item) (docs : Document) :
    (item.orDocs docs).shape = item.shape := by
  rw [Item.orDocs]
  split <;> rfl

/-! ## Parameters -/

theorem steady_parameterSchema (name param : Document) : Steady (parameterSchema name param) := by
  unfold parameterSchema
  split
  · exact .bind (.lift _) fun _ => .bind (.field _ _) fun _ => .pure _
  · exact .pure _

theorem steady_namesFor (name : Document) : Steady (namesFor name) :=
  .bind (.require _) fun _ => .pure _

theorem referredItem_along {names : Build (String × String)} (hnames : Still names)
    (path : Document) : Along S m (referredItem names path) fun r m' => S.Places m'.size r :=
  .skip (.require _) fun _ =>
    .ite (fun _ => .skip hnames fun _ => .addScalar) fun _ => .named

/-- The remark that an item made for a header gets, if the place asks for it. -/
theorem mark_along {c : Prop} [Decidable c] {r : Ref} (hr : S.Places m.size r) :
    Along S m (do
      if c then modifyItem r fun item => { item with implHeader := true }
      return r) fun r m' => S.Places m'.size r :=
  .ite (fun _ => .bind (.modifyItem remark_implHeader) fun _ _ hsize _ => .pure (hr.mono hsize))
    fun _ => .pure hr

/-- The registration of an item under a path, if one is given. -/
theorem register_along {α : Type} {path : Option String} {r : Ref} {rest : Build α}
    {Q : α → Model → Prop} (hr : S.Places m.size r)
    (hrest : ∀ m' : Model, m.size ≤ m'.size → Along S m' rest Q) :
    Along S m (do
      match path with
      | some p => registerPath p r
      | none => pure ()
      rest) Q := by
  split
  · exact .bind (.registerPath (Along.ref_of_places hr)) fun _ m' hsize _ => hrest m' hsize
  · exact hrest m (Nat.le_refl _)

theorem insertParameter_along (path : Option String) (param : Document) :
    Along S m (insertParameter path param) fun r m' => S.Places m'.size r := by
  refine .skip (.require _) fun _ => .skip (.lift _) fun location => ?_
  refine .skip (steady_parameterSchema _ _).still fun ⟨contentType, schema⟩ => ?_
  refine .skip (.field _ _) fun reference => ?_
  extract_lets description jp
  have hjp : ∀ r (m' : Model), S.Places m'.size r →
      Along S m' (jp r) fun r m'' => S.Places m''.size r := fun r m' hr =>
    register_along hr fun m'' hsize => mark_along (hr.mono hsize)
  refine .ite (fun _ => ?_) fun _ => ?_
  · refine .skip (steady_namesFor _).still fun ⟨specName, generatedName⟩ => ?_
    refine .bind (Schema.addInline_along ..) fun r m₁ _ hr => ?_
    exact .bind (.modifyItem (remark_orDocs _)) fun _ m₂ hsize _ => hjp r m₂ (hr.mono hsize)
  -- a required parameter has the item that it refers to, an optional one an alias of that item
  · refine .bind (referredItem_along (steady_namesFor _).still _) fun target m₁ _ htarget => ?_
    refine .ite (fun _ => hjp _ _ htarget) fun _ => ?_
    refine .skip (steady_namesFor _).still fun ⟨specName, generatedName⟩ => ?_
    refine .skip (.textOrNull _) fun docs => .skip (.optionalText _) fun contentType => ?_
    exact .bind (.addItem (Standard.fits_synonym htarget.ref)) fun r m₂ _ hr => hjp r m₂ hr

/-- The item of a path that a value names, registered under a further path. -/
theorem share_along {path : String} {reference : Document} :
    Along S m (do
      let r ← namedBy reference
      registerPath path r
      return r) fun r m' => S.Places m'.size r :=
  .bind .namedBy fun _ _ _ hr =>
    .bind (.registerPath (Along.ref_of_places hr)) fun _ _ hsize _ => .pure (hr.mono hsize)

theorem insertComponentParameter_along (path : String) (param : Document) :
    Along S m (insertComponentParameter path param) fun r m' => S.Places m'.size r := by
  refine .skip (.require _) fun _ => ?_
  split
  · exact share_along
  · exact insertParameter_along ..

theorem convertParameter_along (document entry : Document) :
    Along S m (convertParameter document entry) fun p m' => S.Places m'.size p.2 := by
  refine .skip (.require _) fun _ => ?_
  split
  · exact .bind (insertParameter_along ..) fun _ _ _ hr => .pure hr
  · exact .skip (.lift _) fun _ => .bind .namedBy fun _ _ _ hr => .pure hr

theorem makeParameter_along {param : Document} {item : Ref} (hitem : S.ref m.size item) :
    Along S m (makeParameter param item) fun p m' => S.ref m'.size p.item :=
  .skip (.require _) fun _ => .skip (.require _) fun _ => .skip (.lift _) fun _ => .pure hitem

/-! ## Bodies -/

theorem mediaItem_along (specName generatedName : String) (schema contentType : Document) :
    Along S m (mediaItem specName generatedName schema contentType)
      fun item m' => S.Fits m'.size item.shape := by
  refine .ite (fun _ => ?_) fun _ => .ite (fun _ => Schema.lower_along ..) fun _ => ?_
  · exact .skip (.optionalText _) fun _ => .pure (Standard.fits_scalar _ _)
  · refine .skip (.require _) fun path => .ite (fun _ => ?_) fun _ => ?_
    · exact .skip (.optionalText _) fun _ => .pure (Standard.fits_scalar _ _)
    · refine .bind (Schema.convert_along ..) fun r m' _ hr => ?_
      exact .skip (.optionalText _) fun _ => .pure (Standard.fits_synonym hr)

theorem steady_sharesReference (content : List (Document × Document)) :
    Steady (sharesReference content) := by
  refine .bind (.mapM (fun p => .bind (.field _ _) fun d => .ite (.pure _) (.throw _)) _)
    fun references => ?_
  split <;> exact .pure _

@[simp] theorem shape_markOptional (required : Bool) (item : Item) :
    (markOptional required item).shape = item.shape := by
  rw [markOptional]
  split <;> rfl

theorem bodyVariant_along (required : Bool) (entry : Document × Document) :
    Along S m (bodyVariant required entry) fun v m' => S.Admits m'.size v := by
  refine .skip (.require _) fun specName => .skip (.field _ _) fun schema => ?_
  refine .bind (mediaItem_along ..) fun item m' _ hitem => ?_
  refine .bind (.addItem ?_) fun r m'' _ hr => .pure ⟨hr.ref, S.variant_unnamed rfl⟩
  rwa [shape_markOptional]

theorem bodyItem_along (specName : String) (required : Bool)
    (content : List (Document × Document)) :
    Along S m (bodyItem specName required content)
      fun item m' => S.Fits m'.size item.shape := by
  unfold bodyItem
  dsimp only
  split
  · exact mediaItem_along ..
  · exact .skip (.field _ _) fun _ => mediaItem_along ..
  · refine .skip (steady_sharesReference _).still fun shared => .ite (fun _ => ?_) fun _ => ?_
    · exact .skip (.field _ _) fun _ => mediaItem_along ..
    · refine .bind (Along.mapM (P := fun v n => S.Admits n v) (fun _ _ _ h hv => hv.mono h)
        fun entry _ m' _ => bodyVariant_along ..) fun variants m' _ hvariants => ?_
      exact .pure (Standard.fits_oneOf hvariants)

theorem createBody_along (specName : String) (path : Option String) (body : Document) :
    Along S m (createBody specName path body) fun r m' => S.Places m'.size r := by
  refine .skip (.field _ _) fun _ => .skip (.require _) fun content => ?_
  refine .bind (bodyItem_along ..) fun item m' _ hitem => .addItem ?_
  rw [shape_markOptional]
  split
  · rwa [shape_orDocs]
  · exact hitem

theorem referredBody_along (body : Document) :
    Along S m (referredBody body) fun r m' => S.Places m'.size r :=
  .skip (.field _ _) fun _ => .namedBy

/-! ## Headers -/

theorem steady_headerSchema (specName header : Document) : Steady (headerSchema specName header) :=
  .ite (.bind (.lift _) fun _ => .field _ _) (.pure _)

theorem createHeader_along (specName : Document) (path : Option String) (header : Document) :
    Along S m (createHeader specName path header) fun r m' => S.Places m'.size r := by
  refine .skip (.require _) fun name => .skip (.deconflict _) fun generatedName => ?_
  refine .skip (.require _) fun _ => .skip (steady_headerSchema _ _).still fun schema => ?_
  extract_lets description jp
  have hjp : ∀ r (m' : Model), S.Places m'.size r →
      Along S m' (jp r) fun r m'' => S.Places m''.size r := fun r m' hr =>
    register_along hr fun m'' hsize => .bind (.modifyItem remark_implHeader)
      fun _ _ hsize' _ => .pure (hr.mono (Nat.le_trans hsize hsize'))
  refine .ite (fun _ => .bind .addScalar fun r m' _ hr => hjp r m' hr) fun _ => ?_
  refine .skip (.require _) fun isReference => .ite (fun _ => ?_) fun _ => ?_
  · refine .skip (.field _ _) fun reference => ?_
    refine .bind (referredItem_along (.pure _) _) fun inner m₁ _ hinner => ?_
    refine .ite (fun _ => hjp _ _ hinner) fun _ => .skip (.textOrNull _) fun docs => ?_
    exact .bind (.addItem (Standard.fits_synonym hinner.ref)) fun r m₂ _ hr => hjp r m₂ hr
  · refine .bind (Schema.addInline_along ..) fun r m₁ _ hr => ?_
    exact .bind (.modifyItem (remark_orDocs _)) fun _ m₂ hsize _ => hjp r m₂ (hr.mono hsize)

theorem createShared_along (specName : Document) (path : String) (header : Document) :
    Along S m (createShared specName path header) fun r m' => S.Places m'.size r :=
  .bind (createHeader_along ..) fun _ _ _ hr =>
    .bind (.modifyItem remark_pubTypedef) fun _ _ hsize _ => .pure (hr.mono hsize)

/-- The item of a registered path, or what is done when there is none. -/
theorem lookup_along {path : String} {orElse : Build Ref}
    (h : Along S m orElse fun r m' => S.Places m'.size r) :
    Along S m (do
      match (← model).namedReferences.get? path with
      | some index => return .back index
      | none => orElse) fun r m' => S.Places m'.size r := by
  refine .sound fun hm => .model ?_
  split
  · exact .pure (Along.lookup ‹_› hm)
  · exact h

/-- The headers along a chain are made from its end; the induction is on the chain. -/
theorem headerAlong_along (links : List Document.Link) :
    Along S m (headerAlong links) fun r m' => S.Places m'.size r := by
  induction links generalizing m with
  | nil => exact .throw
  | cons link rest ih =>
    refine lookup_along ?_
    split
    · exact .problem
    -- the next link comes first, and then its item is registered under this path as well
    · refine .ite (fun _ => createShared_along ..) fun _ => .bind ih fun r m' _ hr => ?_
      exact .bind (.registerPath (Along.ref_of_places hr)) fun _ _ hsize _ =>
        .pure (hr.mono hsize)

theorem referredHeader_along (document reference header : Document) :
    Along S m (referredHeader document reference header) fun r m' => S.Places m'.size r := by
  unfold referredHeader
  split
  · refine lookup_along (.ite (fun _ => .skip (.problem _) fun _ => ?_) fun _ => ?_)
    · exact .skip (.lift _) fun links => headerAlong_along links
    · exact .skip (.lift _) fun links => headerAlong_along links
  · exact .throw

theorem convertHeader_along (document specName header : Document) :
    Along S m (convertHeader document specName header) fun r m' => S.Places m'.size r :=
  .skip (.field _ _) fun _ =>
    .ite (fun _ => createHeader_along ..) fun _ => referredHeader_along ..

theorem insertComponentHeader_along (document specName header : Document) :
    Along S m (insertComponentHeader document specName header)
      fun r m' => S.Places m'.size r := by
  refine lookup_along (.skip (.require _) fun isReference => .ite (fun _ => ?_) fun _ => ?_)
  · refine .bind (convertHeader_along ..) fun r m' _ hr => ?_
    exact .bind (.registerPath (Along.ref_of_places hr)) fun _ _ hsize _ => .pure (hr.mono hsize)
  · exact createShared_along ..

/-! ## Responses -/

theorem addPayload_along (specName generatedName : String) (schema contentType docs : Document) :
    Along S m (addPayload specName generatedName schema contentType docs)
      fun r m' => S.ref m'.size r := by
  refine .ite (fun _ => ?_) fun _ => .skip (.field _ _) fun reference =>
    .ite (fun _ => ?_) fun _ => ?_
  · exact .bind .addScalar fun _ _ _ hr =>
      .bind (.modifyItem (remark_docs _)) fun _ _ hsize _ => .pure (hr.mono hsize).ref
  · exact .bind (Schema.addInline_along ..) fun _ _ _ hr =>
      .bind (.modifyItem (remark_orDocs _)) fun _ _ hsize _ => .pure (hr.mono hsize).ref
  · refine .skip (.require _) fun path => .ite (fun _ => ?_) fun _ => Schema.convert_along ..
    exact .bind .addScalar fun _ _ _ hr =>
      .bind (.modifyItem (remark_docs _)) fun _ _ hsize _ => .pure (hr.mono hsize).ref

theorem headerMember_along (document : Document) (specName : String) (entry : String × Document) :
    Along S m (headerMember document specName entry)
      fun p m' => S.ref m'.size p.2.definition := by
  obtain ⟨name, header⟩ := entry
  have hrest : Along S m (do
      let target ← lift (document.followOrBlame header)
      let definition ← convertHeader document (.text name) header
      return (name, ({ definition, inlineOption := !(← field target "required").holds } : Member)))
      fun p m' => S.ref m'.size p.2.definition :=
    .skip (.lift _) fun _ => .bind (convertHeader_along ..) fun _ _ _ hr =>
      .skip (.field _ _) fun _ => .pure hr.ref
  exact .ite (fun _ => .skip (.problem _) fun _ => hrest) fun _ => hrest

theorem wrapWithHeaders_along {document : Document} {name : String}
    {headers : List (String × Document)} {body : Ref} {contentType docs : Document}
    (hbody : S.ref m.size body) :
    Along S m (wrapWithHeaders document name headers body contentType docs)
      fun r m' => S.Places m'.size r := by
  refine .bind (Along.mapM (P := fun (p : String × Member) n => S.ref n p.2.definition)
    (fun _ _ _ h hp => S.ref_mono h hp) fun entry _ m' _ => headerMember_along ..)
    fun members m' hsize hmembers => ?_
  refine .skip (.textOrNull _) fun docs => .skip (.optionalText _) fun contentType => ?_
  refine .addItem (Standard.fits_object fun p hp => ?_)
  rcases Table.mem_insert hp with rfl | hp
  · exact S.ref_mono hsize hbody
  · exact hmembers p hp

theorem steady_ownHeaders (response : Document) : Steady (ownHeaders response) :=
  .bind (.field _ _) fun _ => .bind (.require _) fun _ =>
    .bind (.mapM (fun _ => .bind (.require _) fun _ => .pure _) _) fun _ => .pure _

theorem steady_contentEntries (response : Document) : Steady (contentEntries response) :=
  .bind (.field _ _) fun _ => .bind (.require _) fun _ =>
    .bind (.mapM (fun _ => .bind (.field _ _) fun _ => .pure _) _) fun _ => .pure _

theorem responseVariant_along (document : Document) (itemName : String) (multiple : Bool)
    (headers : List (String × Document)) (docs : Document) (entry : Document × Document) :
    Along S m (responseVariant document itemName multiple headers docs entry)
      fun v m' => S.Admits m'.size v := by
  obtain ⟨contentType, schema⟩ := entry
  unfold responseVariant
  dsimp -zeta only
  extract_lets tag jp
  have hjp : ∀ name, Along S m (jp name) fun v m' => S.Admits m'.size v := by
    refine fun name => .bind (addPayload_along ..) fun payload m₁ _ hpayload =>
      .ite (fun _ => ?_) fun _ => ?_
    · exact .pure ⟨hpayload, S.variant_unnamed rfl⟩
    · exact .bind (wrapWithHeaders_along hpayload) fun r m₂ _ hr =>
        .pure ⟨hr.ref, S.variant_unnamed rfl⟩
  exact .ite (fun _ => .skip (.require _) fun t => hjp _) fun _ => hjp _

theorem createVariants_along (document : Document) (itemName : String) (response : Document) :
    Along S m (createVariants document itemName response)
      fun vs m' => ∀ v ∈ vs, S.Admits m'.size v := by
  refine .skip (.field _ _) fun _ => .skip (.require _) fun content => ?_
  refine .skip (steady_ownHeaders _).still fun headers => .skip (.field _ _) fun docs => ?_
  refine .skip (steady_contentEntries _).still fun entries => ?_
  exact .mapM (P := fun v n => S.Admits n v) (fun _ _ _ h hv => hv.mono h)
    fun entry _ m' _ => responseVariant_along ..

theorem cachedVariantsBy_along (path : Document) :
    Along S m (cachedVariantsBy path) fun vs m' => ∀ v ∈ vs, S.Admits m'.size v := by
  unfold cachedVariantsBy
  split
  · refine .sound fun hm => .model ?_
    rw [Model.cachedVariants]
    split
    · exact .pure (hm.shared _ (Table.mem_of_get?_eq_some ‹_›))
    · exact .throw
  · exact .ite (fun _ => .problem) fun _ => .throw

theorem statusVariants_along (document : Document) (generatedName : String)
    (entry : String × Document) :
    Along S m (statusVariants document generatedName entry)
      fun vs m' => ∀ v ∈ vs, S.Admits m'.size v := by
  obtain ⟨status, response⟩ := entry
  refine .skip (.lift _) fun name => .skip (.require _) fun _ => ?_
  extract_lets jp
  have hjp : ∀ vs (m' : Model), (∀ v ∈ vs, S.Admits m'.size v) →
      Along S m' (jp vs) fun vs m'' => ∀ v ∈ vs, S.Admits m''.size v := by
    intro vs m' hvs
    refine .pure fun v hv => ?_
    obtain ⟨u, hu, rfl⟩ := List.mem_map.mp hv
    exact ⟨(hvs u hu).ref, S.variant_unnamed rfl⟩
  split
  -- a shared response is copied with its references, without making them again
  · exact .bind (cachedVariantsBy_along _) fun vs m' _ hvs => hjp vs m' hvs
  · exact .bind (createVariants_along ..) fun vs m' _ hvs => hjp vs m' hvs

theorem createResponses_along (document : Document) (specName : String) (responses : Document) :
    Along S m (createResponses document specName responses) fun r m' => S.Places m'.size r := by
  refine .skip (.require _) fun fields => ?_
  refine .bind (Along.mapM (P := fun (vs : List Variant) n => ∀ v ∈ vs, S.Admits n v)
    (fun _ _ _ h hvs v hv => (hvs v hv).mono h) fun entry _ m' _ => statusVariants_along ..)
    fun variants m' _ hvariants => .addItem (Standard.fits_oneOf fun v hv => ?_)
  obtain ⟨vs, hvs, hv⟩ := List.mem_flatten.mp hv
  exact hvariants vs hvs v hv

/-! ## Operations -/

theorem steady_specNameOf (operationId : Document) (suffix : String) (verb : Verb)
    (path : Document) : Steady (specNameOf operationId suffix verb path) :=
  .ite (.bind (.require _) fun _ => .pure _) (.bind (.require _) fun _ => .pure _)

/-- The model remembers a reference that it places. -/
theorem accept_along {r : Ref} (hr : S.ref m.size r) :
    Along S m (modifyModel fun m => m.withAccept r) fun _ _ => True := by
  constructor
  rintro _ w rfl
  exact ⟨.single (.accept _ r hr), fun _ _ => trivial⟩

theorem acceptParameter_along :
    Along S m acceptParameter fun p m' => S.ref m'.size p.item := by
  refine .sound fun hm => .model ?_
  extract_lets jp
  have hjp : ∀ r (m' : Model), S.ref m'.size r →
      Along S m' (jp r) fun p m'' => S.ref m''.size p.item := fun _ _ hr => .pure hr
  split
  · exact hjp _ _ (hm.accepted _ ‹_›)
  · refine .bind (.addItem (Standard.fits_scalar _ _)) fun r m' _ hr => ?_
    exact .bind (accept_along hr.ref) fun _ m'' hsize _ => hjp _ _ (S.ref_mono hsize hr.ref)

theorem combine_along {kind specName label : String} {members : Table Member}
    (h : ∀ p ∈ members, S.ref m.size p.2.definition) :
    Along S m (combine kind specName label members)
      fun o m' => ∀ r ∈ o, S.ref m'.size r := by
  refine .ite (fun _ => .pure (by simp)) fun _ => ?_
  refine .bind (.addItem (Standard.fits_object h)) fun r m' _ hr => .pure ?_
  rintro r' hr'
  cases hr'
  exact hr.ref

/-- A table built by writing entry after entry holds nothing but what was written. -/
theorem of_mem_foldl_insert {α β : Type} {key : α → String} {value : α → β} {l : List α}
    {t : Table β} {p : String × β}
    (h : p ∈ l.foldl (fun t a => t.insert (key a) (value a)) t) :
    p ∈ t ∨ ∃ a ∈ l, p = (key a, value a) := by
  induction l generalizing t with
  | nil => exact .inl h
  | cons a l ih =>
    rcases ih h with h | ⟨b, hb, rfl⟩
    · rcases Table.mem_insert h with rfl | h
      · exact .inr ⟨a, List.mem_cons_self, rfl⟩
      · exact .inl h
    · exact .inr ⟨b, List.mem_cons_of_mem _ hb, rfl⟩

/-- The members for the parameters of a location refer to what the parameters refer to. -/
theorem ref_of_mem_membersAt {n : Nat} {location : Location} {parameters : List Parameter}
    {p : String × Member} (h : ∀ q ∈ parameters, S.ref n q.item)
    (hp : p ∈ membersAt location parameters) : S.ref n p.2.definition := by
  rcases of_mem_foldl_insert hp with hp | ⟨q, hq, rfl⟩
  · cases hp
  · exact h q ((List.mem_filter.mp hq).1)

/-- A header parameter by its name is one of the parameters. -/
theorem ref_of_mem_headerTable {n : Nat} {parameters : List Parameter} {p : String × Parameter}
    (h : ∀ q ∈ parameters, S.ref n q.item) (hp : p ∈ headerTable parameters) :
    S.ref n p.2.item := by
  rcases of_mem_foldl_insert hp with hp | ⟨q, hq, rfl⟩
  · cases hp
  · exact h q ((List.mem_filter.mp hq).1)

theorem steady_anySeveral (document responses : Document) : Steady (anySeveral document responses) :=
  .bind (.require _) fun _ => .lift _

theorem still_documentation (operation : Document) : Still (documentation operation) := by
  refine .bind .get fun w => ?_
  split
  · exact .bind (.require _) fun _ => .bind (.fetchDocs _ _ _) fun _ => .pure _
  · exact .pure _

theorem bodyOf_along (verb : Verb) (path operationId operation : Document) :
    Along S m (bodyOf verb path operationId operation)
      fun o m' => ∀ r ∈ o, S.ref m'.size r := by
  have hsome : ∀ r (m' : Model), S.Places m'.size r → ∀ r' ∈ some r, S.ref m'.size r' := by
    rintro r m' hr r' hr'
    cases hr'
    exact hr.ref
  refine .ite (fun _ => .pure (by simp)) fun _ => .skip (.require _) fun _ => ?_
  refine .ite (fun _ => ?_) fun _ => .skip (steady_specNameOf ..).still fun specName => ?_
  · exact .bind (referredBody_along _) fun r m' _ hr => .pure (hsome r m' hr)
  · exact .bind (createBody_along ..) fun r m' _ hr => .pure (hsome r m' hr)

/-- The entries for parameters of a path or an operation. -/
theorem steady_entries (d : Document) : Steady (do
    require ((← field d "parameters").orElse (.array [])).elements?) :=
  .bind (.field _ _) fun _ => .require _

theorem parametersOf_along (document pathItem operation : Document) :
    Along S m (parametersOf document pathItem operation)
      fun ps m' => ∀ p ∈ ps, S.ref m'.size p.item := by
  refine .skip (steady_entries _).still fun pathEntries => ?_
  refine .skip (steady_entries _).still fun ownEntries => ?_
  refine .skip (.lift _) fun merged => ?_
  refine .mapM (P := fun (p : Parameter) n => S.ref n p.item) (fun _ _ _ h hp => S.ref_mono h hp)
    fun entry _ m' _ => ?_
  exact .bind (convertParameter_along ..) fun _ _ _ hr => makeParameter_along hr.ref

/-- **An operation goes along with every standard**, and all of its references meet it. -/
theorem create_along (document path : Document) (verb : Verb) (pathItem operation : Document) :
    Along S m (create document path verb pathItem operation)
      fun o m' => ∀ r ∈ o.refs, S.ref m'.size r := by
  refine .skip (.field _ _) fun operationId => ?_
  extract_lets label responses
  refine .bind (parametersOf_along ..) fun declared m₁ _ hdeclared => ?_
  extract_lets declaredHeaders rest choose
  -- all of it but the implicit header, which is made before if it is wanted
  have hrest : ∀ accept (m₂ : Model), m₁.size ≤ m₂.size → (∀ p ∈ accept, S.ref m₂.size p.item) →
      Along S m₂ (rest accept) fun o m' => ∀ r ∈ o.refs, S.ref m'.size r := by
    intro accept m₂ h₂ haccept
    have hparameters : ∀ p ∈ declared, S.ref m₂.size p.item :=
      fun p hp => S.ref_mono h₂ (hdeclared p hp)
    refine .skip (steady_specNameOf ..).still fun pathName => ?_
    refine .bind (combine_along fun p hp => ref_of_mem_membersAt hparameters hp)
      fun pathParameters m₃ h₃ hpath => ?_
    refine .skip (steady_specNameOf ..).still fun queryName => ?_
    refine .bind (combine_along fun p hp => S.ref_mono h₃ (ref_of_mem_membersAt hparameters hp))
      fun queryParameters m₄ h₄ hquery => ?_
    refine .bind (bodyOf_along ..) fun requestBody m₅ h₅ hbody => ?_
    refine .skip (steady_specNameOf ..).still fun responseName => ?_
    refine .bind (createResponses_along ..) fun response m₆ h₆ hresponse => ?_
    refine .skip (.field _ _) fun description => .skip (.field _ _) fun summary => ?_
    refine .skip (still_documentation _) fun docs => .skip (.require _) fun pathText => ?_
    refine .skip (.optionalText _) fun _ => .skip (.optionalText _) fun _ => ?_
    refine .skip (.optionalText _) fun _ => .pure fun r hr => ?_
    have h₂₆ : m₂.size ≤ m₆.size := by omega
    simp only [refs, List.mem_append, List.mem_singleton, Option.mem_toList, List.map_append,
      List.map_map] at hr
    -- each reference met the standard when it was made, and has met it ever since
    rcases hr with ((((hr | hr) | hr | hr) | hr | hr) | hr) | rfl
    · exact S.ref_mono (by omega) (hpath r hr)
    · exact S.ref_mono (by omega) (hquery r hr)
    · obtain ⟨p, hp, rfl⟩ := List.mem_map.mp hr
      exact S.ref_mono h₂₆ (haccept p hp)
    · obtain ⟨p, hp, rfl⟩ := List.mem_map.mp hr
      exact S.ref_mono h₂₆ (ref_of_mem_headerTable hparameters hp)
    · obtain ⟨p, hp, rfl⟩ := List.mem_map.mp hr
      exact S.ref_mono h₂₆ (haccept p hp)
    · obtain ⟨p, hp, rfl⟩ := List.mem_map.mp hr
      exact S.ref_mono h₂₆ (hparameters p hp)
    · exact S.ref_mono (by omega) (hbody r hr)
    · exact hresponse.ref
  -- whether the implicit header is wanted is found out without touching the model
  have hchoose : ∀ implicit,
      Along S m₁ (choose implicit) fun o m' => ∀ r ∈ o.refs, S.ref m'.size r := by
    refine fun implicit => .ite (fun _ => ?_) fun _ => hrest [] m₁ (Nat.le_refl _) (by simp)
    refine .bind (.bind acceptParameter_along fun p m₂ _ hp =>
      .pure (Q := fun (ps : List Parameter) m' => ∀ p ∈ ps, S.ref m'.size p.item)
        (by simpa using hp)) fun accept m₂ h₂ haccept => hrest accept m₂ h₂ haccept
  exact .ite (fun _ => hchoose false) fun _ => .skip (steady_anySeveral _ _).still hchoose

theorem operate_along {o : Operation} (ho : ∀ r ∈ o.refs, S.ref m.size r) :
    Along S m (modifyModel fun m => m.withOperation o) fun _ _ => True := by
  constructor
  rintro _ w rfl
  exact ⟨.single (.operate _ o ho), fun _ _ => trivial⟩

theorem insertKey_along (document path pathItem : Document) (entry : Document × Document) :
    Along S m (insertKey document path pathItem entry) fun _ _ => True := by
  refine .skip (.require _) fun key => .ite (fun _ => .pure trivial) fun _ => ?_
  refine .skip (.lift _) fun verb => ?_
  exact .bind (create_along ..) fun o m' _ ho => operate_along ho

theorem insertPath_along (document : Document) (entry : Document × Document) :
    Along S m (insertPath document entry) fun _ _ => True :=
  .skip (.lift _) fun _ => .skip (.require _) fun _ => .forM fun _ _ _ _ => insertKey_along ..

theorem insertAll_along (document : Document) :
    Along S m (insertAll document) fun _ _ => True :=
  .skip (.field _ _) fun _ => .skip (.require _) fun _ => .forM fun _ _ _ _ => insertPath_along ..

end TypedApi.Operation
