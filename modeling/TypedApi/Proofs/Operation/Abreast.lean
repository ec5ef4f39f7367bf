import TypedApi.Proofs.Document.Reordered
import TypedApi.Proofs.Operation.Steps
import TypedApi.Proofs.Schema.Abreast
/-!
Lowering operations on two tied models.

Once all shared schemas have been lowered, the two models know the same paths,
so their tie is straight and every reference is renumbered. Each part of an
operation then comes to the same on both sides. The documents may differ in the
order of the shared schemas, since what is read through references is read by
keys; only a path that is a reference to one of the objects in which the
schemas stand would be read in order.
-/

set_option autoImplicit false

namespace TypedApi

open Build

theorem Tie.Straight.internal {T : Tie} (hT : T.Straight) : T.Internal := by
  intro path index hextra
  rw [hT.free] at hextra
  cases hextra

namespace Operation

variable {α β : Type} {T : Tie}

/-! ## Remarks -/

theorem blind_orDocs (docs : Document) : Item.Blind (·.orDocs docs) := by
  constructor
  · intro item
    by_cases h : item.docs.isNull = true <;> simp [Item.orDocs, Item.nameless, h]
  · intro g item
    by_cases h : item.docs.isNull = true <;> simp [Item.orDocs, Item.relocate, h]

theorem blind_docs (docs : Document) : Item.Blind fun item => { item with docs := docs } :=
  ⟨fun _ => rfl, fun _ _ => rfl⟩

theorem blind_implHeader : Item.Blind fun item => { item with implHeader := true } :=
  ⟨fun _ => rfl, fun _ _ => rfl⟩

theorem blind_pubTypedef : Item.Blind fun item => { item with pubTypedef := true } :=
  ⟨fun _ => rfl, fun _ _ => rfl⟩

/-- The mark on a body that may be left out depends on whether an item has an inner name. -/
theorem blind_markOptional (required : Bool) : Item.Blind (markOptional required) := by
  constructor
  · intro item
    by_cases h : item.innerName.isNone = true <;> simp [markOptional, Item.nameless, h]
  · intro g item
    by_cases h : item.innerName.isNone = true <;> simp [markOptional, Item.relocate, h]

/-- Twins that are changed alike are twins. -/
theorem twins_of_blind {f : Item → Item} (hf : Item.Blind f) {item item' : Item}
    (h : T.Twins item item') : T.Twins (f item) (f item') := by
  rw [Tie.Twins, hf.nameless, h, hf.relocate, hf.nameless]

/-! ## Parameters -/

/-- The remark that an item made for a header gets, if the place asks for it. -/
theorem mark_abreast {c : Prop} [Decidable c] {r r' : Ref} (hr : T.Placed r r') :
    Abreast T
      (do
        if c then modifyItem r fun item => { item with implHeader := true }
        return r)
      (do
        if c then modifyItem r' fun item => { item with implHeader := true }
        return r') T.Placed :=
  .ite (fun _ => .bind (.modifyItem hr blind_implHeader) fun _ _ _ => .pure hr) fun _ => .pure hr

section

variable (hT : T.Straight)

include hT

/-- The item that a reference leads to; of the names for a scalar, only the source name counts. -/
theorem referredItem_abreast {names names' : Build (String × String)}
    (hnames : Abreast T names names' fun p p' => p'.1 = p.1) (path : Document) :
    Abreast T (referredItem names path) (referredItem names' path) T.Placed := by
  refine .skip (.require _) fun target => .ite (fun _ => ?_) fun _ => .named (hT.free _)
  refine .bind hnames fun ⟨specName, generatedName⟩ ⟨specName', generatedName'⟩ hspec => ?_
  cases hspec
  exact .addScalar (by simp)

/-- The registration of an item under a path, if one is given. -/
theorem register_abreast {path : Option String} {r r' : Ref} {rest : Build α} {rest' : Build β}
    {Q : α → β → Prop} (hr : T.Placed r r') (hrest : Abreast T rest rest' Q) :
    Abreast T
      (do
        match path with
        | some p => registerPath p r
        | none => pure ()
        rest)
      (do
        match path with
        | some p => registerPath p r'
        | none => pure ()
        rest') Q := by
  split
  · exact .bind (.registerPath hr (hT.free _)) fun _ _ _ => hrest
  · exact hrest

theorem insertParameter_abreast (path : Option String) (param : Document) :
    Abreast T (insertParameter path param) (insertParameter path param) T.Placed := by
  refine .skip (.require _) fun _ => .skip (.lift _) fun location => ?_
  refine .skip (steady_parameterSchema _ _) fun ⟨contentType, schema⟩ => ?_
  refine .skip (.field _ _) fun reference => ?_
  extract_lets description jp
  have hjp : ∀ r r', T.Placed r r' → Abreast T (jp r) (jp r') T.Placed :=
    fun r r' hr => register_abreast hT hr (mark_abreast hr)
  refine .ite (fun _ => ?_) fun _ => ?_
  · refine .skip (steady_namesFor _) fun ⟨specName, generatedName⟩ => ?_
    refine .bind (Schema.addInline_abreast hT.internal _ _ _ _ _ _ (by simp)) fun r r' hr => ?_
    exact .bind (.modifyItem hr (blind_orDocs _)) fun _ _ _ => hjp r r' hr
  -- a required parameter has the item that it refers to, an optional one an alias of that item
  · refine .bind (referredItem_abreast hT (.steady (steady_namesFor _) fun _ => rfl) _)
      fun target target' htarget => ?_
    refine .ite (fun _ => hjp _ _ htarget) fun _ => ?_
    refine .skip (steady_namesFor _) fun ⟨specName, generatedName⟩ => ?_
    refine .skip (.textOrNull _) fun docs => .skip (.optionalText _) fun contentType => ?_
    refine .bind (.addItem ?_ (by simp)) fun r r' hr => hjp r r' hr
    rw [htarget.eq_move]
    rfl

theorem namedBy_abreast (path : Document) : Abreast T (namedBy path) (namedBy path) T.Placed := by
  rw [Build.namedBy.eq_def]
  split
  · exact .named (hT.free _)
  · exact .ite (fun _ => .problem) fun _ => .throw

/-- The item of a path that a value names, registered under a further path. -/
theorem share_abreast {path : String} {reference : Document} :
    Abreast T
      (do
        let r ← namedBy reference
        registerPath path r
        return r)
      (do
        let r ← namedBy reference
        registerPath path r
        return r) T.Placed :=
  .bind (namedBy_abreast hT _) fun _ _ hr => .bind (.registerPath hr (hT.free _)) fun _ _ _ => .pure hr

theorem insertComponentParameter_abreast (path : String) (param : Document) :
    Abreast T (insertComponentParameter path param) (insertComponentParameter path param)
      T.Placed := by
  refine .skip (.require _) fun _ => ?_
  split
  · exact share_abreast hT
  · exact insertParameter_abreast hT ..

/-! ## Bodies -/

theorem mediaItem_abreast (specName generatedName : String) (schema contentType : Document) :
    Abreast T (mediaItem specName generatedName schema contentType)
      (mediaItem specName generatedName schema contentType) T.Twins := by
  refine .ite (fun _ => ?_) fun _ =>
    .ite (fun _ => Schema.lower_abreast hT.internal ..) fun _ => ?_
  · exact .skip (.optionalText _) fun _ => .pure rfl
  · refine .skip (.require _) fun path => .ite (fun _ => ?_) fun _ => ?_
    · exact .skip (.optionalText _) fun _ => .pure rfl
    · refine .bind (Schema.convert_abreast hT.internal ..) fun r r' hr => ?_
      refine .skip (.optionalText _) fun _ => .pure ?_
      rw [hr]
      rfl

theorem bodyVariant_abreast (required : Bool) (entry : Document × Document) :
    Abreast T (bodyVariant required entry) (bodyVariant required entry)
      fun v v' => v' = v.relocate T.move := by
  refine .skip (.require _) fun specName => .skip (.field _ _) fun schema => ?_
  refine .bind (mediaItem_abreast hT ..) fun item item' htwins => ?_
  refine .bind (.addItem (twins_of_blind (blind_markOptional _) htwins) (by simp)) fun r r' hr => ?_
  exact .pure (by rw [hr.eq_move, Variant.relocate])

theorem bodyItem_abreast (specName : String) (required : Bool)
    (content : List (Document × Document)) :
    Abreast T (bodyItem specName required content) (bodyItem specName required content)
      T.Twins := by
  unfold bodyItem
  dsimp only
  split
  · exact mediaItem_abreast hT ..
  · exact .skip (.field _ _) fun _ => mediaItem_abreast hT ..
  · refine .skip (steady_sharesReference _) fun shared => .ite (fun _ => ?_) fun _ => ?_
    · exact .skip (.field _ _) fun _ => mediaItem_abreast hT ..
    · refine .bind (Abreast.mapM fun entry _ => bodyVariant_abreast hT ..)
        fun variants variants' hvariants => .pure ?_
      rw [hvariants]
      rfl

theorem createBody_abreast (specName : String) (path : Option String) (body : Document) :
    Abreast T (createBody specName path body) (createBody specName path body) T.Placed := by
  refine .skip (.field _ _) fun _ => .skip (.require _) fun content => ?_
  refine .bind (bodyItem_abreast hT ..) fun item item' htwins => ?_
  refine .addItem (twins_of_blind (blind_markOptional _) ?_) fun p _ => hT.free p
  split
  · exact twins_of_blind (blind_orDocs _) htwins
  · exact htwins

theorem referredBody_abreast (body : Document) :
    Abreast T (referredBody body) (referredBody body) T.Placed :=
  .skip (.field _ _) fun _ => namedBy_abreast hT _

/-! ## Headers -/

theorem createHeader_abreast (specName : Document) (path : Option String) (header : Document) :
    Abreast T (createHeader specName path header) (createHeader specName path header)
      T.Placed := by
  refine .skip (.require _) fun name => .bind .deconflict fun generatedName generatedName' _ => ?_
  refine .skip (.require _) fun _ => .skip (steady_headerSchema _ _) fun schema => ?_
  extract_lets description jp
  have hjp : ∀ r r', T.Placed r r' → Abreast T (jp r) (jp r') T.Placed := fun r r' hr =>
    register_abreast hT hr (.bind (.modifyItem hr blind_implHeader) fun _ _ _ => .pure hr)
  have hfree : ∀ p, path = some p → T.extra.get? p = none := fun p _ => hT.free p
  refine .ite (fun _ => .bind (.addScalar hfree) fun r r' hr => hjp r r' hr) fun _ => ?_
  refine .skip (.require _) fun isReference => .ite (fun _ => ?_) fun _ => ?_
  · have hnames : Abreast T (pure (name, generatedName)) (pure (name, generatedName'))
        fun p p' => p'.1 = p.1 := .pure rfl
    refine .skip (.field _ _) fun reference => ?_
    refine .bind (referredItem_abreast hT hnames _) fun inner inner' hinner => ?_
    refine .ite (fun _ => hjp _ _ hinner) fun _ => .skip (.textOrNull _) fun docs => ?_
    refine .bind (.addItem ?_ hfree) fun r r' hr => hjp r r' hr
    rw [hinner.eq_move]
    rfl
  · refine .bind (Schema.addInline_abreast hT.internal _ _ _ _ _ _ hfree) fun r r' hr => ?_
    exact .bind (.modifyItem hr (blind_orDocs _)) fun _ _ _ => hjp r r' hr

theorem createShared_abreast (specName : Document) (path : String) (header : Document) :
    Abreast T (createShared specName path header) (createShared specName path header) T.Placed :=
  .bind (createHeader_abreast hT ..) fun _ _ hr =>
    .bind (.modifyItem hr blind_pubTypedef) fun _ _ _ => .pure hr

/-- The item of a registered path, or what is done when there is none. -/
theorem lookup_abreast {path : String} {orElse orElse' : Build Ref}
    (h : Abreast T orElse orElse' T.Placed) :
    Abreast T
      (do
        match (← model).namedReferences.get? path with
        | some index => return .back index
        | none => orElse)
      (do
        match (← model).namedReferences.get? path with
        | some index => return .back index
        | none => orElse') T.Placed := by
  refine .model fun m m' hm => ?_
  rw [hm.paths]
  cases m.namedReferences.get? path with
  | some index => exact .pure ⟨index, rfl, rfl⟩
  | none =>
    dsimp only
    rw [hT.free]
    exact h

end

/-! ## What is read through references -/

/-- Two readings of the documents that match. -/
theorem lift_abreast {γ δ : Type} {R : α → β → Prop} {x : Except Failure α} {y : Except Failure β}
    {f : α → Build γ} {g : β → Build δ} {Q : γ → δ → Prop} (h : Document.Matches R x y)
    (hf : ∀ a b, R a b → Abreast T (f a) (g b) Q) :
    Abreast T (lift x >>= f) (lift y >>= g) Q := by
  cases h with
  | fail e => exact .bind (R := fun _ _ => False) .throw fun _ _ hab => hab.elim
  | answer a b hab => exact hf a b hab

/-- The paths of shared headers lie apart from the shared schemas. -/
theorem segments?_of_headerName? {path name : String} (h : headerName? path = some name) :
    ∃ rest, Document.segments? path = some ("components" :: "headers" :: rest) := by
  have hbegin : headersPrefix.toList =
      '#' :: '/' :: ("components".toList ++ '/' :: ("headers".toList ++ ['/'])) := by
    decide +kernel
  rw [headerName?] at h
  split at h
  · rename_i hpath
    obtain ⟨rest, hrest⟩ := List.isPrefixOf_iff_prefix.mp hpath
    rw [hbegin] at hrest
    simp only [List.cons_append, List.append_assoc, List.nil_append] at hrest
    have hsplit : Text.splitAt '/' ("components".toList ++ '/' :: ("headers".toList ++ '/' :: rest)) =
        "components".toList :: "headers".toList :: Text.splitAt '/' rest := by
      rw [Text.splitAt_append_cons (by decide +kernel), Text.splitAt_append_cons (by decide +kernel)]
    have hfirst : Document.unescapeSegment "components".toList = "components".toList := by
      decide +kernel
    have hsecond : Document.unescapeSegment "headers".toList = "headers".toList := by
      decide +kernel
    refine ⟨(Text.splitAt '/' rest).map fun s => String.ofList (Document.unescapeSegment s), ?_⟩
    rw [Document.segments?, ← hrest]
    simp only [hsplit, List.map_cons, hfirst, hsecond, String.ofList_toList]
  · cases h

section

variable {schemas schemas' : Table Document} {components components' d d' : Document}

/-- What the path of a shared header leads to is the same in both documents. -/
theorem header_eq {path name : String} (hname : headerName? path = some name)
    {target target' : Document}
    (hfound : Document.FoundAlike schemas schemas' components components' (Document.segments? path)
      target target') : target' = target := by
  obtain ⟨rest, hsegments⟩ := segments?_of_headerName? hname
  generalize hpath : Document.segments? path = segments at hfound
  rw [hsegments] at hpath
  cases hfound with
  | same => rfl
  | components => simp at hpath
  | schemas => simp at hpath

variable (hT : T.Straight) (hd : Document.Reordered schemas schemas' components components' d d')

include hd in
/-- A field other than the one for the schemas is read alike. -/
theorem field_eq {path : Option (List String)} {target target' : Document}
    (hfound : Document.FoundAlike schemas schemas' components components' path target target')
    {key : String} (hkey : key ≠ "schemas") : field target' key = field target key := by
  rw [field, field, hfound.get?_eq hd hkey]

include hT in
/-- The headers along matching chains are made alike; the induction is on the chains. -/
theorem headerAlong_abreast {links links' : List Document.Link}
    (hlinks : List.Forall₂ (Document.LinkAlike schemas schemas' components components')
      links links') :
    Abreast T (headerAlong links) (headerAlong links') T.Placed := by
  induction hlinks with
  | nil => exact .throw
  | @cons link link' rest rest' hlink hrest ih =>
    obtain ⟨href, hfound⟩ := hlink
    have hempty : rest'.isEmpty = rest.isEmpty := by cases hrest <;> rfl
    rw [headerAlong, headerAlong, href]
    refine lookup_abreast hT ?_
    cases hname : headerName? link.reference with
    | none => exact .problem
    | some name =>
      dsimp only
      rw [hempty, header_eq hname hfound]
      refine .ite (fun _ => createShared_abreast hT ..) fun _ => .bind ih fun r r' hr => ?_
      exact .bind (.registerPath hr (hT.free _)) fun _ _ _ => .pure hr

include hT hd

theorem referredHeader_abreast (reference header : Document) :
    Abreast T (referredHeader d reference header) (referredHeader d' reference header)
      T.Placed := by
  unfold referredHeader
  split
  · have hchain := fun path => (hd.chain header).blame path
    refine lookup_abreast hT (.ite (fun _ => ?_) fun _ => ?_)
    · exact .bind (R := fun _ _ => True) .problem fun _ _ _ =>
        lift_abreast (hchain _) fun _ _ hlinks => headerAlong_abreast hT hlinks
    · exact lift_abreast (hchain _) fun _ _ hlinks => headerAlong_abreast hT hlinks
  · exact .throw

theorem convertHeader_abreast (specName header : Document) :
    Abreast T (convertHeader d specName header) (convertHeader d' specName header) T.Placed :=
  .skip (.field _ _) fun _ =>
    .ite (fun _ => createHeader_abreast hT ..) fun _ => referredHeader_abreast hT hd ..

theorem insertComponentHeader_abreast (specName header : Document) :
    Abreast T (insertComponentHeader d specName header) (insertComponentHeader d' specName header)
      T.Placed := by
  refine lookup_abreast hT (.skip (.require _) fun isReference => .ite (fun _ => ?_) fun _ => ?_)
  · exact .bind (convertHeader_abreast hT hd ..) fun r r' hr =>
      .bind (.registerPath hr (hT.free _)) fun _ _ _ => .pure hr
  · exact createShared_abreast hT ..

omit hT

/-- What tells a parameter apart is the same in both documents. -/
theorem parameterKey_eq (entry : Document) : parameterKey d' entry = parameterKey d entry := by
  have hends := hd.followOrBlame entry
  rw [parameterKey, parameterKey]
  generalize d.followOrBlame entry = x at hends ⊢
  generalize d'.followOrBlame entry = y at hends ⊢
  cases hends with
  | fail e => rfl
  | answer param param' hends =>
    obtain ⟨path, hfound, _⟩ := hends
    have hname : nameOf param' = nameOf param := by
      rw [nameOf, nameOf, hfound.find?_eq hd (by decide)]
    have hin : param'.find? "in" = param.find? "in" := hfound.find?_eq hd (by decide)
    rcases hfound.eq_or_object hd with rfl | ⟨fields, fields', rfl, rfl⟩
    · rfl
    · simp only [bind, Except.bind, Document.fields?, orMalformed, hname, hin]

theorem mergeParameters_eq (pathEntries ownEntries : List Document) :
    mergeParameters d' pathEntries ownEntries = mergeParameters d pathEntries ownEntries := by
  rw [mergeParameters, mergeParameters]
  simp only [parameterKey_eq hd]

/-- Whether a response has several content types is the same in both documents. -/
theorem hasSeveralContentTypes_eq (response : Document) :
    hasSeveralContentTypes d' response = hasSeveralContentTypes d response := by
  have hends := hd.followOrBlame response
  rw [hasSeveralContentTypes, hasSeveralContentTypes]
  generalize d.followOrBlame response = x at hends ⊢
  generalize d'.followOrBlame response = y at hends ⊢
  cases hends with
  | fail e => rfl
  | answer resolved resolved' hends =>
    obtain ⟨path, hfound, _⟩ := hends
    simp only [bind, Except.bind, hfound.get?_eq hd (show "content" ≠ "schemas" by decide)]

theorem anySeveral_eq (responses : Document) : anySeveral d' responses = anySeveral d responses := by
  simp only [anySeveral, hasSeveralContentTypes_eq hd]

/-- Parameters are made alike of objects that are found alike. -/
theorem makeParameter_abreast {path : Option (List String)} {param param' : Document} {r r' : Ref}
    (hfound : Document.FoundAlike schemas schemas' components components' path param param')
    (hr : r' = T.move r) :
    Abreast T (makeParameter param r) (makeParameter param' r')
      fun p p' => p' = p.relocate T.move := by
  have hname : nameOf param' = nameOf param := by
    rw [nameOf, nameOf, hfound.find?_eq hd (by decide)]
  have hlocation : locationOf param' = locationOf param := by
    rw [locationOf, locationOf, hfound.find?_eq hd (by decide)]
  have hrequired : isRequired param' = isRequired param := by
    rw [isRequired, isRequired, hlocation, hfound.find?_eq hd (by decide)]
  have hrest : Abreast T
      (do
        let specName ← require (nameOf param).text?
        return ({
          generatedName := Name.escape (Name.snake specName)
          specName
          location := ← lift (Location.parse (nameOf param) (locationOf param))
          required := isRequired param
          item := r } : Parameter))
      (do
        let specName ← require (nameOf param).text?
        return ({
          generatedName := Name.escape (Name.snake specName)
          specName
          location := ← lift (Location.parse (nameOf param) (locationOf param))
          required := isRequired param
          item := r' } : Parameter))
      fun p p' => p' = p.relocate T.move :=
    .skip (.require _) fun specName => .skip (.lift _) fun location =>
      .pure (by simp only [Parameter.relocate, hr])
  rw [makeParameter, makeParameter, hname, hlocation, hrequired]
  rcases hfound.eq_or_object hd with rfl | ⟨fields, fields', rfl, rfl⟩
  · exact .skip (.require _) fun _ => hrest
  · exact hrest

include hT

/-- An entry is converted alike: the parameter object is found alike, and the items correspond. -/
theorem convertParameter_abreast (entry : Document) :
    Abreast T (convertParameter d entry) (convertParameter d' entry) fun p p' =>
      (∃ path, Document.FoundAlike schemas schemas' components components' path p.1 p'.1) ∧
        T.Placed p.2 p'.2 := by
  refine .skip (.require _) fun _ => ?_
  split
  · exact .bind (insertParameter_abreast hT ..) fun r r' hr => .pure ⟨⟨none, .same _ _⟩, hr⟩
  · refine lift_abreast (hd.followOrBlame entry) fun param param' ⟨path, hfound, _⟩ => ?_
    exact .bind (namedBy_abreast hT _) fun r r' hr => .pure ⟨⟨path, hfound⟩, hr⟩

theorem parametersOf_abreast (pathItem operation : Document) :
    Abreast T (parametersOf d pathItem operation) (parametersOf d' pathItem operation)
      fun ps ps' => ps' = ps.map (Parameter.relocate T.move) := by
  refine .skip (steady_entries _) fun pathEntries => .skip (steady_entries _) fun ownEntries => ?_
  rw [mergeParameters_eq hd]
  refine .skip (.lift _) fun merged => .mapM fun entry _ => ?_
  refine .bind (convertParameter_abreast hT hd entry) fun p p' ⟨⟨path, hfound⟩, hr⟩ => ?_
  exact makeParameter_abreast hd hfound hr.eq_move

/-! ## Responses -/

omit hd in
/-- A payload is moved: it may be a reference that nobody knows yet. -/
theorem addPayload_abreast (specName generatedName : String)
    (schema contentType docs : Document) :
    Abreast T (addPayload specName generatedName schema contentType docs)
      (addPayload specName generatedName schema contentType docs) fun r r' => r' = T.move r := by
  have hnone : ∀ p, (none : Option String) = some p → T.extra.get? p = none := by simp
  refine .ite (fun _ => ?_) fun _ => .skip (.field _ _) fun reference =>
    .ite (fun _ => ?_) fun _ => ?_
  · exact .bind (.addScalar hnone) fun _ _ hr =>
      .bind (.modifyItem hr (blind_docs _)) fun _ _ _ => .pure hr.eq_move
  · exact .bind (Schema.addInline_abreast hT.internal _ _ _ _ _ _ hnone) fun _ _ hr =>
      .bind (.modifyItem hr (blind_orDocs _)) fun _ _ _ => .pure hr.eq_move
  · refine .skip (.require _) fun path =>
      .ite (fun _ => ?_) fun _ => Schema.convert_abreast hT.internal ..
    exact .bind (.addScalar hnone) fun _ _ hr =>
      .bind (.modifyItem hr (blind_docs _)) fun _ _ _ => .pure hr.eq_move

theorem headerMember_abreast (specName : String) (entry : String × Document) :
    Abreast T (headerMember d specName entry) (headerMember d' specName entry)
      fun p p' => p' = (p.1, { p.2 with definition := T.move p.2.definition }) := by
  obtain ⟨name, header⟩ := entry
  have hrest : Abreast T
      (do
        let target ← lift (d.followOrBlame header)
        let definition ← convertHeader d (.text name) header
        return (name, ({ definition, inlineOption := !(← field target "required").holds } : Member)))
      (do
        let target ← lift (d'.followOrBlame header)
        let definition ← convertHeader d' (.text name) header
        return (name, ({ definition, inlineOption := !(← field target "required").holds } : Member)))
      fun p p' => p' = (p.1, { p.2 with definition := T.move p.2.definition }) := by
    refine lift_abreast (hd.followOrBlame header) fun target target' ⟨path, hfound, _⟩ => ?_
    rw [field_eq hd hfound (show "required" ≠ "schemas" by decide)]
    refine .bind (convertHeader_abreast hT hd ..) fun r r' hr => .skip (.field _ _) fun _ => .pure ?_
    rw [hr.eq_move]
  exact .ite (fun _ => .bind (R := fun _ _ => True) .problem fun _ _ _ => hrest) fun _ => hrest

theorem wrapWithHeaders_abreast {name : String} {headers : List (String × Document)}
    {body body' : Ref} {contentType docs : Document} (hbody : body' = T.move body) :
    Abreast T (wrapWithHeaders d name headers body contentType docs)
      (wrapWithHeaders d' name headers body' contentType docs) T.Placed := by
  refine .bind (Abreast.mapM fun entry _ => headerMember_abreast hT hd ..)
    fun members members' hmembers => ?_
  refine .skip (.textOrNull _) fun docs => .skip (.optionalText _) fun contentType => ?_
  refine .addItem ?_ (by simp)
  -- the member for the payload is written after the others have been moved, or before
  have hinsert := Table.mapValues_insert
    (fun member : Member => { member with definition := T.move member.definition }) members "body"
    { definition := body }
  simp only [Table.mapValues] at hinsert
  rw [hmembers, hbody]
  simp only [Item.nameless, Item.relocate, Shape.relocate, hinsert]

theorem responseVariant_abreast (itemName : String) (multiple : Bool)
    (headers : List (String × Document)) (docs : Document) (entry : Document × Document) :
    Abreast T (responseVariant d itemName multiple headers docs entry)
      (responseVariant d' itemName multiple headers docs entry)
      fun v v' => v' = v.relocate T.move := by
  obtain ⟨contentType, schema⟩ := entry
  unfold responseVariant
  dsimp -zeta only
  extract_lets tag jp jp'
  have hjp : ∀ name, Abreast T (jp name) (jp' name) fun v v' => v' = v.relocate T.move := by
    refine fun name => .bind (addPayload_abreast hT ..) fun payload payload' hpayload =>
      .ite (fun _ => ?_) fun _ => ?_
    · exact .pure (by rw [hpayload, Variant.relocate])
    · refine .bind (wrapWithHeaders_abreast hT hd hpayload) fun r r' hr => .pure ?_
      rw [hr.eq_move, Variant.relocate]
  exact .ite (fun _ => .skip (.require _) fun t => hjp _) fun _ => hjp _

theorem createVariants_abreast (itemName : String) (response : Document) :
    Abreast T (createVariants d itemName response) (createVariants d' itemName response)
      fun vs vs' => vs' = vs.map (Variant.relocate T.move) := by
  refine .skip (.field _ _) fun _ => .skip (.require _) fun content => ?_
  refine .skip (steady_ownHeaders _) fun headers => .skip (.field _ _) fun docs => ?_
  refine .skip (steady_contentEntries _) fun entries => ?_
  exact .mapM fun entry _ => responseVariant_abreast hT hd ..

omit hT hd in
/-- The variants of a shared response are taken over as they were moved before. -/
theorem cachedVariantsBy_abreast (path : Document) :
    Abreast T (cachedVariantsBy path) (cachedVariantsBy path)
      fun vs vs' => vs' = vs.map (Variant.relocate T.move) := by
  unfold cachedVariantsBy
  split
  · exact .cachedVariants
  · exact .ite (fun _ => .problem) fun _ => .throw

theorem statusVariants_abreast (generatedName : String) (entry : String × Document) :
    Abreast T (statusVariants d generatedName entry) (statusVariants d' generatedName entry)
      fun vs vs' => vs' = vs.map (Variant.relocate T.move) := by
  obtain ⟨status, response⟩ := entry
  refine .skip (.lift _) fun name => .skip (.require _) fun _ => ?_
  extract_lets jp
  have hjp : ∀ vs vs', vs' = vs.map (Variant.relocate T.move) →
      Abreast T (jp vs) (jp vs') fun vs vs' => vs' = vs.map (Variant.relocate T.move) := by
    rintro vs _ rfl
    exact .pure (by simp [Variant.relocate, Function.comp_def])
  split
  · exact .bind (cachedVariantsBy_abreast _) hjp
  · exact .bind (createVariants_abreast hT hd ..) hjp

theorem createResponses_abreast (specName : String) (responses : Document) :
    Abreast T (createResponses d specName responses) (createResponses d' specName responses)
      T.Placed := by
  refine .skip (.require _) fun fields => ?_
  refine .bind (Abreast.mapM fun entry _ => statusVariants_abreast hT hd ..)
    fun variants variants' hvariants => .addItem ?_ (by simp)
  rw [hvariants]
  simp only [Item.nameless, Item.relocate, Shape.relocate_oneOf, List.map_flatten]

/-! ## Operations -/

omit hT hd in
/-- Without a source of external documentation, an operation says what is written there. -/
theorem documentation_abreast (operation : Document) :
    Abreast T (documentation operation) (documentation operation) fun docs docs' => docs' = docs := by
  have hread : ∀ w : Workbench, w.docs = none → exec (documentation operation) w =
      (.ok (((operation.find? "description").getD .null).orElse
        ((operation.find? "summary").getD .null)), w) := by
    intro w hw
    rw [documentation]
    simp only [exec_bind_get, hw]
    split
    · contradiction
    · rfl
  constructor
  intro u v huv
  rw [hread u huv.docs, hread v huv.docs']
  exact .answer _ _ _ _ huv rfl

omit hT hd in
/-- The implicit header is there on both sides or made on both. -/
theorem acceptParameter_abreast :
    Abreast T acceptParameter acceptParameter fun p p' => p' = p.relocate T.move := by
  refine .model fun m m' hm => ?_
  rw [hm.accept]
  extract_lets jp
  have hjp : ∀ r r', r' = T.move r →
      Abreast T (jp r) (jp r') fun p p' => p' = p.relocate T.move := by
    rintro r _ rfl
    exact .pure rfl
  cases m.acceptHeader with
  | some r => exact hjp _ _ rfl
  | none =>
    refine .bind (.addItem rfl (by simp)) fun r r' hr => ?_
    exact .bind (.accept hr.eq_move) fun _ _ _ => hjp _ _ hr.eq_move

omit hT hd in
theorem combine_abreast {kind specName label : String} {members members' : Table Member}
    (h : members' = members.mapValues fun member =>
      { member with definition := T.move member.definition }) :
    Abreast T (combine kind specName label members) (combine kind specName label members')
      fun o o' => o' = o.map T.move := by
  have hempty : members'.isEmpty = members.isEmpty := by
    rw [h]
    cases members <;> rfl
  unfold combine
  rw [hempty]
  refine .ite (fun _ => .pure rfl) fun _ => ?_
  refine .bind (.addItem ?_ (by simp)) fun r r' hr => .pure ?_
  · rw [h]
    rfl
  · rw [hr.eq_move]
    rfl

omit hT hd in
/-- Tables made of entries are moved with them. -/
theorem mapValues_foldl_insert {γ : Type} {key : α → String} {value : α → β} {f : β → γ}
    {l : List α} {t : Table β} :
    (l.foldl (fun t a => t.insert (key a) (value a)) t).mapValues f =
      l.foldl (fun t a => t.insert (key a) (f (value a))) (t.mapValues f) := by
  induction l generalizing t with
  | nil => rfl
  | cons a l ih => rw [List.foldl_cons, List.foldl_cons, ih, Table.mapValues_insert]

omit hT hd in
theorem membersAt_relocate (g : Ref → Ref) (location : Location) (parameters : List Parameter) :
    membersAt location (parameters.map (Parameter.relocate g)) =
      (membersAt location parameters).mapValues fun member =>
        { member with definition := g member.definition } := by
  simp only [membersAt, mapValues_foldl_insert, List.filter_map, List.foldl_map]
  rfl

omit hT hd in
theorem headerTable_relocate (g : Ref → Ref) (parameters : List Parameter) :
    headerTable (parameters.map (Parameter.relocate g)) =
      (headerTable parameters).mapValues (Parameter.relocate g) := by
  simp only [headerTable, mapValues_foldl_insert, List.filter_map, List.foldl_map]
  rfl

omit hd in
theorem bodyOf_abreast (verb : Verb) (path operationId operation : Document) :
    Abreast T (bodyOf verb path operationId operation) (bodyOf verb path operationId operation)
      fun o o' => o' = o.map T.move := by
  have hsome : ∀ r r', T.Placed r r' → Abreast T (pure (some r)) (pure (some r'))
      fun o o' => o' = o.map T.move := fun r r' hr => .pure (by rw [hr.eq_move]; rfl)
  refine .ite (fun _ => .pure rfl) fun _ => .skip (.require _) fun _ => .ite (fun _ => ?_) fun _ => ?_
  · exact .bind (referredBody_abreast hT _) hsome
  · exact .skip (steady_specNameOf _ _ _ _) fun _ => .bind (createBody_abreast hT ..) hsome

/-- **An operation is made alike**, its references moved. -/
theorem create_abreast (path : Document) (verb : Verb) (pathItem operation : Document) :
    Abreast T (create d path verb pathItem operation) (create d' path verb pathItem operation)
      fun o o' => o' = o.relocate T.move := by
  refine .skip (.field _ _) fun operationId => ?_
  extract_lets label responses
  refine .bind (parametersOf_abreast hT hd ..) fun declared declared' hdeclared => ?_
  subst hdeclared
  rw [headerTable_relocate]
  extract_lets declaredHeaders rest choose declaredHeaders' rest' choose'
  -- all of it but the implicit header, which is made before if it is wanted
  have hrest : ∀ accept accept', accept' = accept.map (Parameter.relocate T.move) →
      Abreast T (rest accept) (rest' accept') fun o o' => o' = o.relocate T.move := by
    rintro accept _ rfl
    refine .skip (steady_specNameOf ..) fun pathName => ?_
    refine .bind (combine_abreast (membersAt_relocate _ _ _))
      fun pathParameters pathParameters' hpath => ?_
    refine .skip (steady_specNameOf ..) fun queryName => ?_
    refine .bind (combine_abreast (membersAt_relocate _ _ _))
      fun queryParameters queryParameters' hquery => ?_
    refine .bind (bodyOf_abreast hT ..) fun requestBody requestBody' hbody => ?_
    refine .skip (steady_specNameOf ..) fun responseName => ?_
    refine .bind (createResponses_abreast hT hd ..) fun response response' hresponse => ?_
    refine .skip (.field _ _) fun description => .skip (.field _ _) fun summary => ?_
    refine .bind (documentation_abreast _) fun docs docs' hdocs => ?_
    subst hdocs
    refine .skip (.require _) fun pathText => .skip (.optionalText _) fun _ => ?_
    refine .skip (.optionalText _) fun _ => .skip (.optionalText _) fun _ => .pure ?_
    rw [hpath, hquery, hbody, hresponse.eq_move]
    simp [relocate, declaredHeaders, declaredHeaders', Table.mapValues, Parameter.relocate]
  have hchoose : ∀ implicit, Abreast T (choose implicit) (choose' implicit)
      fun o o' => o' = o.relocate T.move := by
    refine fun implicit => .ite (fun _ => ?_) fun _ => hrest [] [] rfl
    refine .bind (.bind acceptParameter_abreast fun p p' hp =>
      .pure (R := fun ps ps' : List Parameter => ps' = ps.map (Parameter.relocate T.move)) ?_)
      hrest
    rw [hp]
    rfl
  -- whether the implicit header is wanted depends on the names of the others, and on the responses
  have hdeclares : declaresAccept declaredHeaders' = declaresAccept declaredHeaders := by
    simp only [declaresAccept, declaredHeaders, declaredHeaders', Table.keys_mapValues]
  rw [hdeclares, anySeveral_eq hd]
  exact .ite (fun _ => hchoose false) fun _ => .skip (steady_anySeveral _ _) hchoose

theorem insertKey_abreast (path pathItem : Document) (entry : Document × Document) :
    Abreast T (insertKey d path pathItem entry) (insertKey d' path pathItem entry)
      fun _ _ => True := by
  refine .skip (.require _) fun key => .ite (fun _ => .pure trivial) fun _ => ?_
  exact .skip (.lift _) fun verb => .bind (create_abreast hT hd ..) fun o o' ho => .operate ho

omit hT hd in
/-- The components as a whole are no path: the key for the schemas is no method. -/
theorem exec_insertKey_schemas (document path pathItem value : Document) (w : Workbench) :
    ∃ e w', exec (insertKey document path pathItem (.text "schemas", value)) w = (.error e, w') :=
  ⟨_, _, rfl⟩

end

/-! ## All operations -/

/-- No path item of a document is a chain of references to the object that holds the shared
schemas. -/
def PathsApart (document : Document) : Prop :=
  ∀ paths entry links link, document.find? "paths" = some (.object paths) → entry ∈ paths →
    document.chain entry.2 = .ok links → links.getLast? = some link →
    link.reference ≠ "#/components/schemas"

section

variable {schemas schemas' : Table Document} {components components' d d' : Document}
  (hT : T.Straight) (hd : Document.Reordered schemas schemas' components components' d d')

include hT hd

theorem insertPath_abreast {entry : Document × Document}
    (hentry : ∀ links link, d.chain entry.2 = .ok links → links.getLast? = some link →
      link.reference ≠ "#/components/schemas") :
    Abreast T (insertPath d entry) (insertPath d' entry) fun _ _ => True := by
  refine lift_abreast (hd.followOrBlame entry.2) fun pathItem pathItem' ⟨path, hfound, hlast⟩ => ?_
  cases hfound with
  | same => exact .skip (.require _) fun fields => .forM fun field _ => insertKey_abreast hT hd ..
  | components =>
    obtain ⟨fields, fields', rfl, rfl, hfield, hfield'⟩ := hd.inner.fields?
    refine .fails (fun w => ?_) fun w => ?_
    · exact exec_forM_error hfield (exec_insertKey_schemas d entry.1 _ _) w
    · exact exec_forM_error hfield' (exec_insertKey_schemas d' entry.1 _ _) w
  | schemas =>
    obtain ⟨links, link, hchain, hlink, hsegments⟩ := hlast _ rfl
    exact absurd (Document.eq_of_segments?_schemas hsegments) (hentry links link hchain hlink)

/-- **All operations are made alike**, as long as no path is made of the schemas as they stand. -/
theorem insertAll_abreast (hapart : PathsApart d) :
    Abreast T (insertAll d) (insertAll d') fun _ _ => True := by
  have hfield : field d' "paths" = field d "paths" := by
    rw [field, field, hd.outer.get?_of_ne (by decide)]
  rw [insertAll, insertAll, hfield]
  refine .require fun paths hpaths => .require fun fields hfields => .forM fun entry hentry => ?_
  obtain ⟨hfind, rfl⟩ :=
    Document.find?_of_get?_orElse hpaths hfields (List.ne_nil_of_mem hentry)
  exact insertPath_abreast hT hd fun links link => hapart fields entry links link hfind hentry

end

end Operation

end TypedApi
