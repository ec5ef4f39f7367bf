import TypedApi.Proofs.Build.Keeps
import TypedApi.Proofs.Operation.Steps
/-!
What the parts of an operation change.

Lowering a parameter, a body, a header or a response stores the items of schemas and
items of its own that name no other, makes remarks on items, and registers the path
that it is given, or those of shared headers that it meets. A relation between models
that allows these changes is kept by all of them; the lemmas follow the way the parts
are put together, one for each.
-/

set_option autoImplicit false

namespace TypedApi

open Build

/-- A change of an item that does not take the mark of a header off. -/
def Item.KeepsMark (f : Item → Item) : Prop :=
  ∀ item : Item, item.implHeader = true → (f item).implHeader = true

namespace Operation

/-! ## Remarks -/

theorem keepsMark_orDocs (docs : Document) : Item.KeepsMark (·.orDocs docs) := by
  intro item hmark
  dsimp only [Item.orDocs]
  split
  · exact hmark
  · exact hmark

theorem keepsMark_docs (docs : Document) : Item.KeepsMark fun item => { item with docs := docs } :=
  fun _ hmark => hmark

theorem keepsMark_implHeader : Item.KeepsMark fun item => { item with implHeader := true } :=
  fun _ _ => rfl

theorem keepsMark_pubTypedef : Item.KeepsMark fun item => { item with pubTypedef := true } :=
  fun _ hmark => hmark

/-! ## Changes that are allowed -/

/-- A relation between models is kept while schemas and bodies are lowered, items that name no other
are stored, remarks are made that leave the mark of a header on, and paths in `P` are registered. -/
structure Allows (P : String → Prop) (R : Model → Model → Prop) : Prop where
  addItem : ∀ {item : Item} {path : Option String}, item.innerName = none →
    (∀ p, path = some p → P p) → Keeps R (Build.addItem item path)
  addInline : ∀ specName generatedName (path : Option String) schema contentType,
    (∀ p, path = some p → P p) →
    Keeps R (Schema.addInline specName generatedName path schema none contentType)
  convert : ∀ specName generatedName schema,
    Keeps R (Schema.convert specName generatedName none schema)
  createBody : ∀ specName (path : Option String) body, (∀ p, path = some p → P p) →
    Keeps R (createBody specName path body)
  modifyItem : ∀ r {f : Item → Item}, Item.Remark f → Item.KeepsMark f →
    Keeps R (Build.modifyItem r f)
  registerPath : ∀ {path : String} r, P path → Keeps R (Build.registerPath path r)

variable {P : String → Prop} {R : Model → Model → Prop}

namespace Allows

theorem addScalar (hR : Allows P R) {specName generatedName : String} {path : Option String}
    {scalar : Scalar} (h : ∀ p, path = some p → P p) :
    Keeps R (Build.addScalar specName generatedName path scalar) :=
  hR.addItem rfl h

/-- Documentation is put on an item that has none. -/
theorem orDocs (hR : Allows P R) (r : Ref) (docs : Document) :
    Keeps R (Build.modifyItem r (·.orDocs docs)) :=
  hR.modifyItem r (remark_orDocs docs) (keepsMark_orDocs docs)

theorem docs (hR : Allows P R) (r : Ref) (docs : Document) :
    Keeps R (Build.modifyItem r fun item => { item with docs := docs }) :=
  hR.modifyItem r (remark_docs docs) (keepsMark_docs docs)

/-- An item gets the mark of a header. -/
theorem implHeader (hR : Allows P R) (r : Ref) :
    Keeps R (Build.modifyItem r fun item => { item with implHeader := true }) :=
  hR.modifyItem r remark_implHeader keepsMark_implHeader

theorem pubTypedef (hR : Allows P R) (r : Ref) :
    Keeps R (Build.modifyItem r fun item => { item with pubTypedef := true }) :=
  hR.modifyItem r remark_pubTypedef keepsMark_pubTypedef

variable [IsPreorder Model R]

/-- The path of an item is registered if there is one, before anything else is done with it. -/
theorem register (hR : Allows P R) {α : Type} {path : Option String} {r : Ref} {rest : Build α}
    (h : ∀ p, path = some p → P p) (hrest : Keeps R rest) :
    Keeps R (do
      match path with
      | some p => Build.registerPath p r
      | none => pure ()
      rest) := by
  cases path with
  | none => exact hrest
  | some p => exact (hR.registerPath r (h p rfl)).bind fun _ => hrest

/-! ## Parameters -/

theorem referredItem (hR : Allows P R) {names : Build (String × String)} (hnames : Still names)
    (path : Document) : Keeps R (referredItem names path) :=
  .skip (.require _) fun _ =>
    .ite (.skip hnames fun _ => hR.addScalar (by simp)) (.named _)

theorem insertParameter (hR : Allows P R) {path : Option String} (param : Document)
    (h : ∀ p, path = some p → P p) : Keeps R (insertParameter path param) := by
  refine .skip (.require _) fun _ => .skip (.lift _) fun location => ?_
  refine .skip (steady_parameterSchema _ _).still fun ⟨contentType, schema⟩ => ?_
  refine .skip (.field _ _) fun reference => ?_
  extract_lets description jp
  have hjp : ∀ r, Keeps R (jp r) := fun r =>
    hR.register h (.ite ((hR.implHeader r).bind fun _ => .pure r) (.pure r))
  refine .ite (.skip (steady_namesFor _).still fun ⟨specName, generatedName⟩ => ?_) ?_
  · refine (hR.addInline _ _ _ _ _ (by simp)).bind fun r => ?_
    exact (hR.orDocs r _).bind fun _ => hjp r
  · refine (hR.referredItem (steady_namesFor _).still _).bind fun target => ?_
    refine .ite (hjp _) (.skip (steady_namesFor _).still fun ⟨specName, generatedName⟩ => ?_)
    refine .skip (.textOrNull _) fun docs => .skip (.optionalText _) fun contentType => ?_
    exact (hR.addItem rfl (by simp)).bind hjp

theorem insertComponentParameter (hR : Allows P R) {path : String} (param : Document)
    (h : P path) : Keeps R (insertComponentParameter path param) := by
  refine .skip (.require _) fun _ => ?_
  split
  · exact (Keeps.namedBy _).bind fun r => (hR.registerPath r h).bind fun _ => .pure r
  · exact hR.insertParameter param (by rintro _ ⟨⟩; exact h)

theorem parametersOf (hR : Allows P R) (document pathItem operation : Document) :
    Keeps R (parametersOf document pathItem operation) := by
  refine .skip (steady_entries _).still fun _ => .skip (steady_entries _).still fun _ => ?_
  refine .skip (.lift _) fun merged => .mapM (fun entry => ?_) _
  have hmake : ∀ p : Document × Ref, Keeps R (makeParameter p.1 p.2) := fun _ =>
    .skip (.require _) fun _ => .skip (.require _) fun _ => .skip (.lift _) fun _ => .pure _
  refine .bind (.skip (.require _) fun _ => ?_) hmake
  split
  · exact (hR.insertParameter _ (by simp)).bind fun _ => .pure _
  · exact .skip (.lift _) fun _ => (Keeps.namedBy _).bind fun _ => .pure _

theorem combine (hR : Allows P R) (kind specName label : String) (members : Table Member) :
    Keeps R (combine kind specName label members) :=
  .ite (.pure _) ((hR.addItem rfl (by simp)).bind fun _ => .pure _)

/-! ## Bodies -/

theorem bodyOf (hR : Allows P R) (verb : Verb) (path operationId operation : Document) :
    Keeps R (bodyOf verb path operationId operation) := by
  refine .ite (.pure _) (.skip (.require _) fun _ => .ite ?_ ?_)
  · exact .bind (.skip (.field _ _) fun _ => .namedBy _) fun _ => .pure _
  · refine .skip (steady_specNameOf ..).still fun _ => ?_
    exact (hR.createBody _ _ _ (by simp)).bind fun _ => .pure _

/-! ## Headers -/

theorem createHeader (hR : Allows P R) (specName : Document) {path : Option String}
    (header : Document) (h : ∀ p, path = some p → P p) :
    Keeps R (createHeader specName path header) := by
  refine .skip (.require _) fun name => .skip (.deconflict _) fun generatedName => ?_
  refine .skip (.require _) fun _ => .skip (steady_headerSchema _ _).still fun schema => ?_
  extract_lets description jp
  have hjp : ∀ r, Keeps R (jp r) := fun r =>
    hR.register h ((hR.implHeader r).bind fun _ => .pure r)
  refine .ite ((hR.addScalar h).bind hjp) (.skip (.require _) fun isReference => .ite ?_ ?_)
  · refine .skip (.field _ _) fun reference => ?_
    refine (hR.referredItem (.pure _) _).bind fun inner => .ite (hjp _) ?_
    exact .skip (.textOrNull _) fun _ => (hR.addItem rfl h).bind hjp
  · refine (hR.addInline _ _ _ _ _ h).bind fun r => ?_
    exact (hR.orDocs r _).bind fun _ => hjp r

theorem createShared (hR : Allows P R) (specName : Document) {path : String}
    (header : Document) (h : P path) : Keeps R (createShared specName path header) :=
  (hR.createHeader specName header (by rintro _ ⟨⟩; exact h)).bind fun r =>
    (hR.pubTypedef r).bind fun _ => .pure r

end Allows

/-- A path of a shared header. -/
def IsHeaderPath (path : String) : Prop :=
  (headerName? path).isSome

namespace Allows

variable [IsPreorder Model R]

/-- The headers along a chain register the paths of shared headers only. -/
theorem headerAlong (hR : Allows P R) (hP : ∀ p, IsHeaderPath p → P p)
    (links : List Document.Link) : Keeps R (headerAlong links) := by
  induction links with
  | nil => exact .throw _
  | cons link rest ih =>
    refine .model fun m => ?_
    split
    · exact .pure _
    · split
      · exact .problem _
      · have hpath : P link.reference := by
          apply hP
          rw [IsHeaderPath, Option.isSome_iff_exists]
          exact ⟨_, ‹_›⟩
        exact .ite (hR.createShared _ _ hpath)
          (ih.bind fun r => (hR.registerPath r hpath).bind fun _ => .pure r)

theorem convertHeader (hR : Allows P R) (hP : ∀ p, IsHeaderPath p → P p)
    (document specName header : Document) : Keeps R (convertHeader document specName header) := by
  refine .skip (.field _ _) fun _ => .ite (hR.createHeader specName header (by simp)) ?_
  unfold referredHeader
  split
  · refine .model fun m => ?_
    split
    · exact .pure _
    · have hchain : ∀ path, Keeps R (do
          let links ← lift (Document.blameReference path (document.chain header))
          Operation.headerAlong links) := fun _ =>
        .skip (.lift _) fun links => hR.headerAlong hP links
      exact .ite (.skip (.problem _) fun _ => hchain _) (hchain _)
  · exact .throw _

theorem insertComponentHeader (hR : Allows P R) (hP : ∀ p, IsHeaderPath p → P p)
    {document specName : Document} (header : Document) (h : P (headersPrefix ++ specName.display)) :
    Keeps R (insertComponentHeader document specName header) := by
  refine .model fun m => ?_
  split
  · exact .pure _
  · refine .skip (.require _) fun isReference => .ite ?_ (hR.createShared _ _ h)
    exact (hR.convertHeader hP ..).bind fun r => (hR.registerPath r h).bind fun _ => .pure r

/-! ## Responses -/

theorem addPayload (hR : Allows P R) (specName generatedName : String)
    (schema contentType docs : Document) :
    Keeps R (addPayload specName generatedName schema contentType docs) := by
  have hscalar : ∀ scalar, Keeps R (do
      let r ← Build.addScalar specName generatedName none scalar
      Build.modifyItem r fun item => { item with docs := docs }
      return r) := fun _ =>
    (hR.addScalar (by simp)).bind fun r => (hR.docs r docs).bind fun _ => .pure r
  refine .ite (hscalar _) (.skip (.field _ _) fun reference => .ite ?_ ?_)
  · refine (hR.addInline _ _ _ _ _ (by simp)).bind fun r => ?_
    exact (hR.orDocs r docs).bind fun _ => .pure r
  · exact .skip (.require _) fun _ => .ite (hscalar _) (hR.convert ..)

theorem wrapWithHeaders (hR : Allows P R) {document : Document}
    (hheader : ∀ specName header, Keeps R (Operation.convertHeader document specName header))
    (name : String) (headers : List (String × Document)) (body : Ref)
    (contentType docs : Document) :
    Keeps R (wrapWithHeaders document name headers body contentType docs) := by
  refine (Keeps.mapM (fun entry => ?_) _).bind fun _ =>
    .skip (.textOrNull _) fun _ => .skip (.optionalText _) fun _ => hR.addItem rfl (by simp)
  obtain ⟨name, header⟩ := entry
  have hrest : Keeps R (do
      let target ← lift (document.followOrBlame header)
      let definition ← Operation.convertHeader document (.text name) header
      return (name,
        ({ definition, inlineOption := !(← field target "required").holds } : Member))) :=
    .skip (.lift _) fun _ => (hheader ..).bind fun _ =>
      .skip (.field _ _) fun _ => .pure _
  exact .ite (.skip (.problem _) fun _ => hrest) hrest

theorem createVariants (hR : Allows P R) {document : Document}
    (hheader : ∀ specName header, Keeps R (Operation.convertHeader document specName header))
    (itemName : String) (response : Document) :
    Keeps R (createVariants document itemName response) := by
  refine .skip (.field _ _) fun _ => .skip (.require _) fun content => ?_
  refine .skip (steady_ownHeaders _).still fun headers => .skip (.field _ _) fun docs => ?_
  refine .skip (steady_contentEntries _).still fun entries => .mapM (fun entry => ?_) _
  obtain ⟨contentType, schema⟩ := entry
  unfold responseVariant
  dsimp -zeta only
  extract_lets tag jp
  have hjp : ∀ name, Keeps R (jp name) := fun name =>
    (hR.addPayload ..).bind fun payload =>
      .ite (.pure _) ((hR.wrapWithHeaders hheader ..).bind fun _ => .pure _)
  exact .ite (.skip (.require _) fun _ => hjp _) (hjp _)

end Allows

theorem still_cachedVariantsBy (path : Document) : Still (cachedVariantsBy path) := by
  unfold cachedVariantsBy
  split
  · exact .bind .model fun _ => .lift _
  · exact .ite (.problem _) (.throw _)

namespace Allows

variable [IsPreorder Model R]

theorem statusVariants (hR : Allows P R) {document : Document}
    (hheader : ∀ specName header, Keeps R (Operation.convertHeader document specName header))
    (generatedName : String) (entry : String × Document) :
    Keeps R (statusVariants document generatedName entry) := by
  obtain ⟨status, response⟩ := entry
  refine .skip (.lift _) fun name => .skip (.require _) fun _ => ?_
  extract_lets finish
  split
  · exact .skip (still_cachedVariantsBy _) fun _ => .pure _
  · exact (hR.createVariants hheader ..).bind fun _ => .pure _

theorem createResponses (hR : Allows P R) {document : Document}
    (hheader : ∀ specName header, Keeps R (Operation.convertHeader document specName header))
    (specName : String) (responses : Document) :
    Keeps R (createResponses document specName responses) :=
  .skip (.require _) fun _ =>
    (Keeps.mapM (hR.statusVariants hheader _) _).bind fun _ => hR.addItem rfl (by simp)

/-! ## Whole operations -/

/-- The implicit header is stored on first use, and remembered. -/
theorem acceptParameter (hR : Allows P R)
    (haccept : ∀ r, Keeps R (modifyModel fun m => m.withAccept r)) :
    Keeps R acceptParameter := by
  refine .model fun m => ?_
  extract_lets jp
  have hjp : ∀ r, Keeps R (jp r) := fun _ => .pure _
  split
  · exact hjp _
  · exact (hR.addItem rfl (by simp)).bind fun r => (haccept r).bind fun _ => hjp r

theorem create (hR : Allows P R) {document : Document}
    (hheader : ∀ specName header, Keeps R (Operation.convertHeader document specName header))
    (haccept : ∀ r, Keeps R (modifyModel fun m => m.withAccept r)) (path : Document) (verb : Verb)
    (pathItem operation : Document) : Keeps R (create document path verb pathItem operation) := by
  refine .skip (.field _ _) fun operationId => ?_
  extract_lets label responses
  refine (hR.parametersOf ..).bind fun declared => ?_
  extract_lets declaredHeaders rest choose
  have hrest : ∀ accept, Keeps R (rest accept) := by
    intro accept
    refine .skip (steady_specNameOf ..).still fun _ => (hR.combine ..).bind fun _ => ?_
    refine .skip (steady_specNameOf ..).still fun _ => (hR.combine ..).bind fun _ => ?_
    refine (hR.bodyOf ..).bind fun _ => .skip (steady_specNameOf ..).still fun _ => ?_
    refine (hR.createResponses hheader ..).bind fun _ => ?_
    refine .skip (.field _ _) fun _ => ?_
    refine .skip (.field _ _) fun _ => .skip (still_documentation _) fun _ => ?_
    refine .skip (.require _) fun _ => .skip (.optionalText _) fun _ => ?_
    exact .skip (.optionalText _) fun _ => .skip (.optionalText _) fun _ => .pure _
  have hchoose : ∀ implicit, Keeps R (choose implicit) := fun _ =>
    .ite (((hR.acceptParameter haccept).bind fun _ => .pure _).bind hrest) (hrest _)
  exact .ite (hchoose false) (.skip (steady_anySeveral _ _).still hchoose)

/-- All operations of a document are lowered and added, one after the other. -/
theorem insertAll (hR : Allows P R) {document : Document}
    (hheader : ∀ specName header, Keeps R (Operation.convertHeader document specName header))
    (haccept : ∀ r, Keeps R (modifyModel fun m => m.withAccept r))
    (hoperate : ∀ o, Keeps R (modifyModel fun m => m.withOperation o)) :
    Keeps R (insertAll document) := by
  refine .skip (.field _ _) fun _ => .skip (.require _) fun paths => .forM fun entry _ => ?_
  refine .skip (.lift _) fun pathItem => .skip (.require _) fun keys => .forM fun entry _ => ?_
  refine .skip (.require _) fun key => .ite (.pure _) (.skip (.lift _) fun verb => ?_)
  exact (hR.create hheader haccept ..).bind fun o => hoperate o

end Allows

end Operation

end TypedApi
