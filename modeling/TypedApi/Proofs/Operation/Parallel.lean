import TypedApi.Proofs.Operation.Steps
import TypedApi.Proofs.Schema.Parallel
/-!
Lowering operations under two options.

No part of an operation looks at an option itself. Its documentation comes from
where the slack says, and its schemas are lowered under the slack; all else, and
every reference, comes to the same on both sides. The names of arguments for
headers are plain, as those of items are.
-/

set_option autoImplicit false

namespace TypedApi.Operation

open Build

variable {V : Slack}

/-! ## Remarks -/

theorem steered_orDocs (docs : Document) : Item.Steered V (·.orDocs docs) := by
  have heq : (fun item : Item => item.orDocs docs) =
      fun item => { item with docs := if item.docs.isNull then docs else item.docs } := by
    funext item
    rw [Item.orDocs]
    split <;> rfl
  rw [heq]
  exact .of_docs fun own => if own.isNull then docs else own

theorem steered_docs (docs : Document) : Item.Steered V fun item => { item with docs := docs } :=
  .of_docs fun _ => docs

theorem steered_implHeader : Item.Steered V fun item => { item with implHeader := true } :=
  .of_comm (fun _ _ => rfl) fun _ => rfl

theorem steered_pubTypedef : Item.Steered V fun item => { item with pubTypedef := true } :=
  .of_comm (fun _ _ => rfl) fun _ => rfl

theorem steered_markOptional (required : Bool) : Item.Steered V (markOptional required) := by
  refine .of_comm (fun v item => ?_) fun item => ?_
  · by_cases h : item.innerName.isNone = true <;> simp [markOptional, View.item, h]
  · rw [markOptional]
    split <;> rfl

/-! ## Parameters -/

theorem gives_singleContent (name : Document) {content : Document} (hd : V.admits content) :
    Gives (lift (singleContent name content)) fun p => V.admits p.2 := by
  refine .lift fun p hp => ?_
  unfold singleContent at hp
  cases hcount : orMalformed content.length? with
  | error e =>
    rw [hcount] at hp
    cases hp
  | ok count =>
    rw [hcount] at hp
    dsimp only [bind, Except.bind] at hp
    split at hp
    · cases hp
    · split at hp
      · cases hp
        have hmedia := Slack.admits_value hd rfl (List.mem_singleton_self _)
        exact Slack.admits_orElse hmedia rfl
      · cases hp

theorem gives_parameterSchema (name : Document) {param : Document} (hd : V.admits param) :
    Gives (parameterSchema name param) fun p => V.admits p.2 := by
  unfold parameterSchema
  have hcontent := Slack.admits_find? hd "content"
  split
  · rename_i content hfound
    rw [hfound] at hcontent
    refine .bind (gives_singleContent name (Slack.admits_orElse hcontent rfl)) fun p hp => ?_
    exact .bind (.entry hp _) fun d h => .pure (Slack.admits_orElse h rfl)
  · exact .pure (Slack.admits_orElse (Slack.admits_find? hd _) rfl)

/-- The names made for a declared name are proper. -/
theorem gives_namesFor (name : Document) : Gives (namesFor name) fun p => Name.Proper p.2 :=
  .bind (.of_steady (Q := fun _ => True) (.require _) fun _ => trivial) fun _ _ =>
    .pure (Name.proper_upperCamel _)

theorem referredItem_parallel {names : Build (String × String)}
    (hnames : Gives names fun p => Name.Proper p.2) (path : Document) :
    Parallel V (referredItem names path) (referredItem names path) Eq :=
  .skip (.require _) fun _ => .ite (fun _ => .read hnames fun _ hp =>
    .addScalar hp (Scalar.loosened_wellKnown _)) fun _ => .named

/-- The remark that an item made for a header gets, if the place asks for it. -/
theorem mark_parallel {c : Prop} [Decidable c] (r : Ref) :
    Parallel V
      (do
        if c then modifyItem r fun item => { item with implHeader := true }
        return r)
      (do
        if c then modifyItem r fun item => { item with implHeader := true }
        return r) Eq :=
  .ite (fun _ => .bind (.modifyItem steered_implHeader) fun _ _ _ => .pure rfl) fun _ => .pure rfl

/-- The registration of an item under a path, if one is given. -/
theorem register_parallel {α : Type} {path : Option String} {r : Ref} {rest : Build α}
    {Q : α → α → Prop} (hrest : Parallel V rest rest Q) :
    Parallel V
      (do
        match path with
        | some p => registerPath p r
        | none => pure ()
        rest)
      (do
        match path with
        | some p => registerPath p r
        | none => pure ()
        rest) Q := by
  split
  · exact .bind .registerPath fun _ _ _ => hrest
  · exact hrest

theorem insertParameter_parallel (path : Option String) {param : Document} (hd : V.admits param) :
    Parallel V (insertParameter path param) (insertParameter path param) Eq := by
  refine .skip (.require _) fun _ => .skip (.lift _) fun location => ?_
  refine .read (gives_parameterSchema _ hd) fun ⟨contentType, schema⟩ hschema => ?_
  refine .skip (.field _ _) fun reference => ?_
  extract_lets description jp
  have hjp : ∀ r, Parallel V (jp r) (jp r) Eq := fun r => register_parallel (mark_parallel r)
  refine .ite (fun _ => ?_) fun _ => ?_
  · refine .read (gives_namesFor _) fun ⟨specName, generatedName⟩ hname => ?_
    refine .seq (Schema.addInline_parallel _ _ _ _ hname hschema) fun r => ?_
    exact .bind (.modifyItem (steered_orDocs _)) fun _ _ _ => hjp r
  -- a required parameter has the item that it refers to, an optional one an alias of that item
  · refine .seq (referredItem_parallel (gives_namesFor _) _) fun target => ?_
    refine .ite (fun _ => hjp _) fun _ => ?_
    refine .read (gives_namesFor _) fun ⟨specName, generatedName⟩ hname => ?_
    refine .skip (.textOrNull _) fun docs => .skip (.optionalText _) fun contentType => ?_
    exact .seq (.addItem (.refl rfl hname)) hjp

/-- The item of a path that a value names, registered under a further path. -/
theorem share_parallel {path : String} {reference : Document} :
    Parallel V
      (do
        let r ← namedBy reference
        registerPath path r
        return r)
      (do
        let r ← namedBy reference
        registerPath path r
        return r) Eq :=
  .seq .namedBy fun _ => .bind .registerPath fun _ _ _ => .pure rfl

theorem insertComponentParameter_parallel (path : String) {param : Document}
    (hd : V.admits param) :
    Parallel V (insertComponentParameter path param) (insertComponentParameter path param) Eq := by
  refine .skip (.require _) fun _ => ?_
  split
  · exact share_parallel
  · exact insertParameter_parallel _ hd

theorem convertParameter_parallel (document : Document) {entry : Document} (hd : V.admits entry) :
    Parallel V (convertParameter document entry) (convertParameter document entry) Eq := by
  refine .skip (.require _) fun _ => ?_
  split
  · exact .seq (insertParameter_parallel _ hd) fun r => .pure rfl
  · exact .skip (.lift _) fun param => .seq .namedBy fun r => .pure rfl

/-- An argument has a plain name. -/
theorem makeParameter_parallel (param : Document) (item : Ref) :
    Parallel V (makeParameter param item) (makeParameter param item)
      fun p q => p = q ∧ Name.Plain p.generatedName := by
  refine .skip (.require _) fun _ => .skip (.require _) fun specName => .skip (.lift _) fun _ => ?_
  refine .pure ⟨rfl, ?_⟩
  dsimp only
  exact (Name.plain_snake specName).escape

/-- The entries for parameters may be read where the whole may. -/
theorem gives_entries {d : Document} (hd : V.admits d) : Gives (do
    require ((← field d "parameters").orElse (.array [])).elements?)
    fun entries => ∀ e ∈ entries, V.admits e :=
  .bind (.entry hd _) fun _ h => .elements (Slack.admits_orElse h rfl)

/-- An entry that is put among others is the only new one. -/
theorem mem_of_putEntry {key : Document × Document} {entry : Document}
    {entries : List ((Document × Document) × Document)} {x : (Document × Document) × Document}
    (h : x ∈ putEntry key entry entries) : x.2 = entry ∨ x ∈ entries := by
  induction entries with
  | nil =>
    rw [List.mem_singleton.mp h]
    exact .inl rfl
  | cons e rest ih =>
    obtain ⟨k, d⟩ := e
    rw [putEntry] at h
    split at h
    · rcases List.mem_cons.mp h with rfl | h
      · exact .inl rfl
      · exact .inr (List.mem_cons_of_mem _ h)
    · rcases List.mem_cons.mp h with rfl | h
      · exact .inr List.mem_cons_self
      · rcases ih h with h | h
        · exact .inl h
        · exact .inr (List.mem_cons_of_mem _ h)

/-- No entries come together but those of the path and of the operation. -/
theorem mem_of_mergeParameters {document e : Document}
    {pathEntries ownEntries merged : List Document}
    (h : mergeParameters document pathEntries ownEntries = .ok merged) (he : e ∈ merged) :
    e ∈ pathEntries ++ ownEntries := by
  have hfold : ∀ (l : List Document) (acc acc' : List ((Document × Document) × Document)),
      l.foldlM (fun acc entry => do
        return putEntry (← parameterKey document entry) entry acc) acc = .ok acc' →
      ∀ x ∈ acc', x.2 ∈ l ∨ x ∈ acc := by
    intro l
    induction l with
    | nil =>
      rintro acc _ ⟨⟩ x hx
      exact .inr hx
    | cons d l ih =>
      intro acc acc' hrun x hx
      rw [List.foldlM_cons] at hrun
      cases hkey : parameterKey document d with
      | error f =>
        rw [hkey] at hrun
        cases hrun
      | ok key =>
        rw [hkey] at hrun
        rcases ih _ _ hrun x hx with hx | hx
        · exact .inl (List.mem_cons_of_mem _ hx)
        · rcases mem_of_putEntry hx with hx | hx
          · exact .inl (hx ▸ List.mem_cons_self)
          · exact .inr hx
  rw [mergeParameters] at h
  cases hrun : (pathEntries ++ ownEntries).foldlM (fun acc entry => do
      return putEntry (← parameterKey document entry) entry acc) [] with
  | error f =>
    rw [hrun] at h
    cases h
  | ok entries =>
    rw [hrun] at h
    cases h
    obtain ⟨x, hx, rfl⟩ := List.mem_map.mp he
    rcases hfold _ _ _ hrun x hx with hx | hx
    · exact hx
    · cases hx

theorem parametersOf_parallel (document : Document) {pathItem operation : Document}
    (hpath : V.admits pathItem) (hd : V.admits operation) :
    Parallel V (parametersOf document pathItem operation)
      (parametersOf document pathItem operation)
      fun ps qs => ps = qs ∧ ∀ p ∈ ps, Name.Plain p.generatedName := by
  refine .read (gives_entries hpath) fun pathEntries hpathEntries => ?_
  refine .read (gives_entries hd) fun ownEntries hownEntries => ?_
  have hmerged : Gives (lift (mergeParameters document pathEntries ownEntries))
      fun merged => ∀ e ∈ merged, V.admits e := by
    refine .lift fun merged h e he => ?_
    rcases List.mem_append.mp (mem_of_mergeParameters h he) with he | he
    · exact hpathEntries e he
    · exact hownEntries e he
  refine .read hmerged fun merged hentries => .mapM fun entry hentry => ?_
  exact .seq (convertParameter_parallel _ (hentries entry hentry)) fun p =>
    makeParameter_parallel p.1 p.2

/-! ## Bodies -/

theorem mediaItem_parallel (specName : String) {generatedName : String} {schema : Document}
    (contentType : Document) (hname : Name.Proper generatedName) (hd : V.admits schema) :
    Parallel V (mediaItem specName generatedName schema contentType)
      (mediaItem specName generatedName schema contentType) (Item.Alike V) := by
  refine .ite (fun _ => ?_) fun _ => .ite (fun _ => ?_) fun _ => ?_
  · exact .skip (.optionalText _) fun _ => .pure (.refl rfl hname)
  · exact Schema.lower_parallel _ _ _ _ _ hname hd
  · refine .skip (.require _) fun path => .ite (fun _ => ?_) fun _ => ?_
    · refine .skip (.optionalText _) fun _ => .pure (.refl ?_ hname)
      rw [Shape.loosened, Scalar.loosened_wellKnown]
    · refine .seq (Schema.convert_parallel _ _ _ hname hd) fun target => ?_
      exact .skip (.optionalText _) fun _ => .pure (.refl rfl hname)

theorem gives_mediaSchema {media : Document} (hd : V.admits media) :
    Gives (mediaSchema media) V.admits :=
  .entry (Slack.admits_orElse hd rfl) _

theorem bodyVariant_parallel (required : Bool) {entry : Document × Document}
    (hd : V.admits entry.2) :
    Parallel V (bodyVariant required entry) (bodyVariant required entry) Eq := by
  refine .skip (.require _) fun specName => .read (gives_mediaSchema hd) fun schema hschema => ?_
  refine .bind (mediaItem_parallel _ _ (Name.proper_upperCamel _).escape hschema)
    fun item item' halike => ?_
  exact .seq (.addItem ((steered_markOptional required).alike halike)) fun r => .pure rfl

theorem bodyItem_parallel (specName : String) (required : Bool)
    {content : List (Document × Document)} (hd : ∀ p ∈ content, V.admits p.2) :
    Parallel V (bodyItem specName required content) (bodyItem specName required content)
      (Item.Alike V) := by
  have hname := Name.proper_upperCamel specName
  unfold bodyItem
  dsimp only
  split
  · exact mediaItem_parallel _ _ hname (Slack.admits_legible rfl)
  · exact .read (gives_mediaSchema (hd _ List.mem_cons_self)) fun schema hschema =>
      mediaItem_parallel _ _ hname hschema
  · refine .skip (steady_sharesReference _) fun shared => .ite (fun _ => ?_) fun _ => ?_
    · exact .read (gives_mediaSchema (hd _ List.mem_cons_self)) fun schema hschema =>
        mediaItem_parallel _ _ hname hschema
    · refine .seq (.mapM_eq fun entry hentry => bodyVariant_parallel _ (hd entry hentry))
        fun variants => ?_
      exact .pure (.refl rfl hname)

theorem createBody_parallel (specName : String) (path : Option String) {body : Document}
    (hd : V.admits body) :
    Parallel V (createBody specName path body) (createBody specName path body) Eq := by
  refine .read (.entry hd _) fun content hcontent => ?_
  refine .read (.values (Slack.admits_orElse hcontent rfl)) fun content hcontent => ?_
  refine .bind (bodyItem_parallel _ _ hcontent) fun item item' halike => ?_
  refine .addItem ((steered_markOptional _).alike ?_)
  split
  · exact (steered_orDocs _).alike halike
  · exact halike

theorem referredBody_parallel (body : Document) :
    Parallel V (referredBody body) (referredBody body) Eq :=
  .skip (.field _ _) fun _ => .namedBy

/-! ## Headers -/

theorem gives_headerSchema (specName : Document) {header : Document} (hd : V.admits header) :
    Gives (headerSchema specName header) V.admits := by
  have hcontent := Slack.admits_find? hd "content"
  refine .ite (fun _ => ?_) fun _ => .pure (Slack.admits_find? hd _)
  exact .bind (gives_singleContent specName hcontent) fun p hp => .entry hp _

theorem createHeader_parallel (specName : Document) (path : Option String) {header : Document}
    (hd : V.admits header) :
    Parallel V (createHeader specName path header) (createHeader specName path header) Eq := by
  refine .skip (.require _) fun name => ?_
  refine .bind (.deconflict (Name.proper_upperCamel name)) fun generatedName _ ⟨heq, hname⟩ => ?_
  subst heq
  refine .skip (.require _) fun _ => .read (gives_headerSchema _ hd) fun schema hschema => ?_
  extract_lets description jp
  have hjp : ∀ r, Parallel V (jp r) (jp r) Eq := fun r =>
    register_parallel (.bind (.modifyItem steered_implHeader) fun _ _ _ => .pure rfl)
  refine .ite (fun _ => .seq (.addScalar hname rfl) hjp) fun _ => ?_
  refine .skip (.require _) fun isReference => .ite (fun _ => ?_) fun _ => ?_
  · refine .skip (.field _ _) fun reference => ?_
    refine .seq (referredItem_parallel (.pure hname) _) fun inner => ?_
    refine .ite (fun _ => hjp _) fun _ => .skip (.textOrNull _) fun docs => ?_
    exact .seq (.addItem (.refl rfl hname)) hjp
  · refine .seq (Schema.addInline_parallel _ _ _ _ hname hschema) fun r => ?_
    exact .bind (.modifyItem (steered_orDocs _)) fun _ _ _ => hjp r

theorem createShared_parallel (specName : Document) (path : String) {header : Document}
    (hd : V.admits header) :
    Parallel V (createShared specName path header) (createShared specName path header) Eq :=
  .seq (createHeader_parallel _ _ hd) fun _ =>
    .bind (.modifyItem steered_pubTypedef) fun _ _ _ => .pure rfl

/-- The item of a registered path, or what is done when there is none. -/
theorem lookup_parallel {path : String} {orElse : Build Ref} (h : Parallel V orElse orElse Eq) :
    Parallel V
      (do
        match (← model).namedReferences.get? path with
        | some index => return .back index
        | none => orElse)
      (do
        match (← model).namedReferences.get? path with
        | some index => return .back index
        | none => orElse) Eq := by
  refine .model fun m m' hm => ?_
  rw [← hm.paths_eq]
  cases m.namedReferences.get? path with
  | some index => exact .pure rfl
  | none => exact h

/-- The headers along a chain are made from its end; the induction is on the chain. -/
theorem headerAlong_parallel {links : List Document.Link}
    (hd : ∀ link ∈ links, V.admits link.target) :
    Parallel V (headerAlong links) (headerAlong links) Eq := by
  induction links with
  | nil => exact .throw
  | cons link rest ih =>
    have hrest := ih fun l hl => hd l (List.mem_cons_of_mem _ hl)
    refine lookup_parallel ?_
    split
    · exact .problem
    · refine .ite (fun _ => createShared_parallel _ _ (hd link List.mem_cons_self)) fun _ => ?_
      exact .seq hrest fun r => .bind .registerPath fun _ _ _ => .pure rfl

/-! ## Parts of responses -/

theorem addPayload_parallel (specName : String) {generatedName : String} {schema : Document}
    (contentType docs : Document) (hname : Name.Proper generatedName) (hd : V.admits schema) :
    Parallel V (addPayload specName generatedName schema contentType docs)
      (addPayload specName generatedName schema contentType docs) Eq := by
  refine .ite (fun _ => ?_) fun _ => .skip (.field _ _) fun reference =>
    .ite (fun _ => ?_) fun _ => ?_
  · exact .seq (.addScalar hname rfl) fun _ =>
      .bind (.modifyItem (steered_docs _)) fun _ _ _ => .pure rfl
  · exact .seq (Schema.addInline_parallel _ _ _ _ hname hd) fun _ =>
      .bind (.modifyItem (steered_orDocs _)) fun _ _ _ => .pure rfl
  · refine .skip (.require _) fun path =>
      .ite (fun _ => ?_) fun _ => Schema.convert_parallel _ _ _ hname hd
    exact .seq (.addScalar hname (Scalar.loosened_wellKnown _)) fun _ =>
      .bind (.modifyItem (steered_docs _)) fun _ _ _ => .pure rfl

theorem gives_ownHeaders {response : Document} (hd : V.admits response) :
    Gives (ownHeaders response) fun headers => ∀ p ∈ headers, V.admits p.2 := by
  refine .bind (.entry hd _) fun d h => .bind (.values (Slack.admits_orElse h rfl))
    fun fields hfields => ?_
  refine .bind (.mapM (P := fun p : String × Document => V.admits p.2) fun p hp => ?_)
    fun named hnamed => ?_
  · exact .bind (.of_steady (Q := fun _ => True) (.require _) fun _ => trivial) fun _ _ =>
      .pure (hfields p hp)
  · exact .pure fun p hp => hnamed p (List.mem_filter.mp hp).1

theorem gives_contentEntries {response : Document} (hd : V.admits response) :
    Gives (contentEntries response) fun entries => ∀ p ∈ entries, V.admits p.2 := by
  refine .bind (.entry hd _) fun d h => .bind (.values (Slack.admits_orElse h rfl))
    fun content hcontent => ?_
  refine .bind (.mapM (P := fun p : Document × Document => V.admits p.2) fun p hp => ?_)
    fun entries hentries => .pure ?_
  · exact .bind (gives_mediaSchema (hcontent p hp)) fun _ h => .pure h
  · split
    · intro p hp
      rw [List.mem_singleton.mp hp]
      exact Slack.admits_legible rfl
    · exact hentries

theorem cachedVariantsBy_parallel (path : Document) :
    Parallel V (cachedVariantsBy path) (cachedVariantsBy path) Eq := by
  unfold cachedVariantsBy
  split
  · exact .cachedVariants
  · exact .ite (fun _ => .problem) fun _ => .throw

/-! ## Parts of operations -/

theorem documentation_parallel {operation : Document} (hd : V.admits operation) :
    Parallel V (documentation operation) (documentation operation) V.raw := by
  have hlegible : V = .docs true → operation.docsUrl.holds = true →
      operation.docsUrl.text?.isSome = true ∧
        (((operation.find? "description").getD .null).orElse
          ((operation.find? "summary").getD .null)).isReadable = true := by
    rintro rfl hholds
    obtain ⟨haddress, hdescription, hsummary⟩ := Document.of_isLegible hd hholds
    refine ⟨haddress, ?_⟩
    rw [Document.orElse]
    split
    · exact hdescription
    · exact hsummary
  exact Parallel.documentation hlegible

theorem acceptParameter_parallel :
    Parallel V acceptParameter acceptParameter
      fun p q => p = q ∧ Name.Plain p.generatedName := by
  refine .model fun m m' hm => ?_
  rw [← hm.accept_eq]
  extract_lets jp
  have hjp : ∀ r, Parallel V (jp r) (jp r) fun p q => p = q ∧ Name.Plain p.generatedName :=
    fun r => .pure ⟨rfl, show Name.Plain "accept" by decide⟩
  cases m.acceptHeader with
  | some r => exact hjp r
  | none =>
    refine .seq (.addItem (.refl rfl (by decide))) fun r => ?_
    exact .bind .accept fun _ _ _ => hjp r

theorem combine_parallel (kind specName label : String) (members : Table Member) :
    Parallel V (combine kind specName label members) (combine kind specName label members) Eq :=
  .ite (fun _ => .pure rfl) fun _ =>
    .seq (.addItem (.refl rfl (Name.proper_upperCamel specName))) fun _ => .pure rfl

theorem bodyOf_parallel (verb : Verb) (path operationId : Document) {operation : Document}
    (hd : V.admits operation) :
    Parallel V (bodyOf verb path operationId operation) (bodyOf verb path operationId operation)
      Eq := by
  refine .ite (fun _ => .pure rfl) fun _ => .skip (.require _) fun _ => ?_
  refine .ite (fun _ => ?_) fun _ => ?_
  · exact .seq (referredBody_parallel _) fun r => .pure rfl
  · exact .skip (steady_specNameOf _ _ _ _) fun _ =>
      .seq (createBody_parallel _ _ (Slack.admits_find? hd _)) fun r => .pure rfl

/-- The arguments for headers are among the parameters. -/
theorem plain_of_mem_headerTable {parameters : List Parameter} {p : String × Parameter}
    (h : ∀ q ∈ parameters, Name.Plain q.generatedName) (hp : p ∈ headerTable parameters) :
    Name.Plain p.2.generatedName := by
  rcases of_mem_foldl_insert hp with hp | ⟨q, hq, rfl⟩
  · cases hp
  · exact h q (List.mem_filter.mp hq).1

/-! ## What may be read through references -/

section

variable {document : Document} (hdocument : V.admits document)

include hdocument

theorem referredHeader_parallel (reference header : Document) :
    Parallel V (referredHeader document reference header)
      (referredHeader document reference header) Eq := by
  unfold referredHeader
  split
  · have hlinks : ∀ path, Gives
        (lift (Document.blameReference path (document.chain header)))
        fun links => ∀ link ∈ links, V.admits link.target :=
      fun path => .lift fun links h => Slack.admits_chain hdocument h
    exact lookup_parallel (.checked (.read (hlinks _) fun _ h => headerAlong_parallel h))
  · exact .throw

theorem convertHeader_parallel (specName : Document) {header : Document} (hd : V.admits header) :
    Parallel V (convertHeader document specName header) (convertHeader document specName header)
      Eq :=
  .skip (.field _ _) fun _ =>
    .ite (fun _ => createHeader_parallel _ _ hd) fun _ => referredHeader_parallel hdocument _ _

theorem insertComponentHeader_parallel (specName : Document) {header : Document}
    (hd : V.admits header) :
    Parallel V (insertComponentHeader document specName header)
      (insertComponentHeader document specName header) Eq := by
  refine lookup_parallel (.skip (.require _) fun isReference => .ite (fun _ => ?_) fun _ => ?_)
  · exact .seq (convertHeader_parallel hdocument _ hd) fun r =>
      .bind .registerPath fun _ _ _ => .pure rfl
  · exact createShared_parallel _ _ hd

/-! ## Responses -/

theorem headerMember_parallel (specName : String) {entry : String × Document}
    (hd : V.admits entry.2) :
    Parallel V (headerMember document specName entry) (headerMember document specName entry)
      Eq := by
  obtain ⟨name, header⟩ := entry
  unfold headerMember
  dsimp -zeta only
  refine .checked ?_
  refine .skip (.lift _) fun _ => ?_
  exact .seq (convertHeader_parallel hdocument _ hd) fun _ => .skip (.field _ _) fun _ => .pure rfl

theorem wrapWithHeaders_parallel {name : String} {headers : List (String × Document)} (body : Ref)
    (contentType docs : Document) (hname : Name.Proper name)
    (hd : ∀ p ∈ headers, V.admits p.2) :
    Parallel V (wrapWithHeaders document name headers body contentType docs)
      (wrapWithHeaders document name headers body contentType docs) Eq := by
  refine .seq (.mapM_eq fun entry hentry => headerMember_parallel hdocument _ (hd entry hentry))
    fun members => ?_
  refine .skip (.textOrNull _) fun docs => .skip (.optionalText _) fun contentType => ?_
  exact .addItem (.refl rfl hname)

theorem responseVariant_parallel {itemName : String} (multiple : Bool)
    {headers : List (String × Document)} (docs : Document) {entry : Document × Document}
    (hname : Name.Proper itemName) (hheaders : ∀ p ∈ headers, V.admits p.2)
    (hd : V.admits entry.2) :
    Parallel V (responseVariant document itemName multiple headers docs entry)
      (responseVariant document itemName multiple headers docs entry) Eq := by
  obtain ⟨contentType, schema⟩ := entry
  unfold responseVariant
  dsimp -zeta only
  extract_lets tag jp
  have hjp : ∀ name, Name.Proper name → Parallel V (jp name) (jp name) Eq := by
    intro name hname
    have hbody : Name.Proper (if headers.isEmpty then name else name ++ "Body") := by
      split
      · exact hname
      · exact hname.append (by decide)
    refine .seq (addPayload_parallel _ _ _ hbody hd) fun payload => .ite (fun _ => .pure rfl)
      fun _ => ?_
    exact .seq (wrapWithHeaders_parallel hdocument _ _ _ hname hheaders) fun r => .pure rfl
  exact .ite (fun _ => .skip (.require _) fun t =>
    hjp _ (hname.append (Name.proper_upperCamel t))) fun _ => hjp _ hname

theorem createVariants_parallel {itemName : String} {response : Document}
    (hname : Name.Proper itemName) (hd : V.admits response) :
    Parallel V (createVariants document itemName response)
      (createVariants document itemName response) Eq := by
  refine .skip (.field _ _) fun _ => .skip (.require _) fun content => ?_
  refine .read (gives_ownHeaders hd) fun headers hheaders => .skip (.field _ _) fun docs => ?_
  refine .read (gives_contentEntries hd) fun entries hentries => .mapM_eq fun entry hentry => ?_
  exact responseVariant_parallel hdocument _ _ hname hheaders (hentries entry hentry)

theorem statusVariants_parallel {generatedName : String} {entry : String × Document}
    (hname : Name.Proper generatedName) (hd : V.admits entry.2) :
    Parallel V (statusVariants document generatedName entry)
      (statusVariants document generatedName entry) Eq := by
  obtain ⟨status, response⟩ := entry
  refine .skip (.lift _) fun name => .skip (.require _) fun _ => ?_
  extract_lets jp
  have hjp : ∀ vs, Parallel V (jp vs) (jp vs) Eq := fun vs => .pure rfl
  split
  · exact .seq (cachedVariantsBy_parallel _) hjp
  · exact .seq (createVariants_parallel hdocument
      (hname.append (Name.proper_upperCamel name)) hd) hjp

theorem createResponses_parallel (specName : String) {responses : Document}
    (hd : V.admits responses) :
    Parallel V (createResponses document specName responses)
      (createResponses document specName responses) Eq := by
  have hname := Name.proper_upperCamel specName
  refine .read (.values (Slack.admits_orElse hd rfl)) fun fields hfields => ?_
  have hentries : ∀ e ∈ orderedStatuses fields, V.admits e.2 := by
    intro e he
    have hmem : e ∈ fields.map fun p => (p.1.display, p.2) := by
      rcases List.mem_append.mp he with he | he
      · exact (List.mem_filter.mp he).1
      · exact (List.mem_filter.mp he).1
    obtain ⟨p, hp, rfl⟩ := List.mem_map.mp hmem
    exact hfields p hp
  refine .seq (.mapM_eq fun entry hentry =>
    statusVariants_parallel hdocument hname (hentries entry hentry)) fun variants => ?_
  exact .addItem (.refl rfl hname)

/-! ## Operations -/

/-- **An operation is made alike**: the same but for its documentation. -/
theorem create_parallel (path : Document) (verb : Verb) {pathItem operation : Document}
    (hpath : V.admits pathItem) (hd : V.admits operation) :
    Parallel V (create document path verb pathItem operation)
      (create document path verb pathItem operation) fun o o' =>
        V.first.operation o = V.second.operation o' ∧
          ∀ p ∈ o.headers, Name.Plain p.2.generatedName := by
  refine .skip (.field _ _) fun operationId => ?_
  extract_lets label responses
  have hresponses : V.admits responses := Slack.admits_orElse (Slack.admits_find? hd _) rfl
  refine .bind (parametersOf_parallel _ hpath hd) fun declared _ ⟨heq, hdeclared⟩ => ?_
  subst heq
  extract_lets declaredHeaders rest choose
  -- all of it but the implicit header, which is made before if it is wanted
  have hrest : ∀ accept, (∀ p ∈ accept, Name.Plain p.generatedName) →
      Parallel V (rest accept) (rest accept) fun o o' =>
        V.first.operation o = V.second.operation o' ∧
          ∀ p ∈ o.headers, Name.Plain p.2.generatedName := by
    intro accept haccept
    refine .skip (steady_specNameOf ..) fun pathName => ?_
    refine .seq (combine_parallel ..) fun pathParameters => ?_
    refine .skip (steady_specNameOf ..) fun queryName => ?_
    refine .seq (combine_parallel ..) fun queryParameters => ?_
    refine .seq (bodyOf_parallel _ _ _ hd) fun requestBody => ?_
    refine .skip (steady_specNameOf ..) fun responseName => ?_
    refine .seq (createResponses_parallel hdocument _ hresponses) fun response => ?_
    refine .skip (.field _ _) fun description => .skip (.field _ _) fun summary => ?_
    refine .bind (documentation_parallel hd) fun docs docs' hdocs => ?_
    refine .skip (.require _) fun pathText => .skip (.optionalText _) fun _ => ?_
    refine .bind (.optionalText hdocs) fun docs docs' hdocs => .skip (.optionalText _) fun _ => ?_
    refine .pure ⟨Slack.operation_eq hdocs rfl, fun p hp => ?_⟩
    rcases List.mem_append.mp hp with hp | hp
    · obtain ⟨q, hq, rfl⟩ := List.mem_map.mp hp
      exact haccept q hq
    · exact plain_of_mem_headerTable hdeclared hp
  have hchoose : ∀ implicit, Parallel V (choose implicit) (choose implicit) fun o o' =>
      V.first.operation o = V.second.operation o' ∧
        ∀ p ∈ o.headers, Name.Plain p.2.generatedName := by
    refine fun implicit => .ite (fun _ => ?_) fun _ => hrest [] (by simp)
    refine .bind (R := fun ps qs : List Parameter => ps = qs ∧ ∀ p ∈ ps, Name.Plain p.generatedName)
      ?_ fun accept _ ⟨heq, haccept⟩ => heq ▸ hrest accept haccept
    exact .bind acceptParameter_parallel fun p q ⟨heq, hp⟩ => .pure ⟨by rw [heq], by simpa using hp⟩
  exact .ite (fun _ => hchoose false) fun _ => .skip (steady_anySeveral _ _) hchoose

theorem insertKey_parallel (path : Document) {pathItem : Document} {entry : Document × Document}
    (hpath : V.admits pathItem) (hd : V.admits entry.2) :
    Parallel V (insertKey document path pathItem entry) (insertKey document path pathItem entry)
      fun _ _ => True := by
  refine .skip (.require _) fun key => .ite (fun _ => .pure trivial) fun _ => ?_
  exact .skip (.lift _) fun verb => .bind (create_parallel hdocument _ _ hpath hd)
    fun o o' ⟨ho, hplain⟩ => .operate ho hplain

theorem insertPath_parallel {entry : Document × Document} (hd : V.admits entry.2) :
    Parallel V (insertPath document entry) (insertPath document entry) fun _ _ => True := by
  refine .read (.lift fun pathItem h => Slack.admits_follow hdocument hd h) fun pathItem hpath => ?_
  refine .read (.values hpath) fun fields hfields => .forM fun field hfield => ?_
  exact insertKey_parallel hdocument _ hpath (hfields field hfield)

/-- **All operations are made alike.** -/
theorem insertAll_parallel :
    Parallel V (insertAll document) (insertAll document) fun _ _ => True := by
  refine .read (.entry hdocument _) fun paths hpaths => ?_
  refine .read (.values (Slack.admits_orElse hpaths rfl)) fun fields hfields => ?_
  exact .forM fun entry hentry => insertPath_parallel hdocument (hfields entry hentry)

end

end TypedApi.Operation
