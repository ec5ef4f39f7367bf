import TypedApi.Proofs.Schema.Likewise
/-!
Lowering the operations of two respellings.

The parts of an operation are read in roles, and what they refer to is read in
the role of the reference, so each part is lowered to the same in both
documents. The schemas of parameters, of headers and of the media types of
responses are asked for a reference before they are lowered; they are objects on
both sides or on none.
-/

set_option autoImplicit false

namespace TypedApi.Operation

open Build Document

variable {d d' : Document} (hd : Respelled d d') {v v' : Document}

include hd

/-! ## Parameters -/

theorem nameOf_eq (h : ReadAs d d' .parameter v v') : nameOf v = nameOf v' := by
  rw [nameOf, nameOf, hd.inherited.find?_eq h "name" (by decide)]

theorem locationOf_eq (h : ReadAs d d' .parameter v v') : locationOf v = locationOf v' := by
  rw [locationOf, locationOf, hd.inherited.find?_eq h "in" (by decide)]

theorem isRequired_eq (h : ReadAs d d' .parameter v v') : isRequired v = isRequired v' := by
  rw [isRequired, isRequired, hd.inherited.find?_eq h "required" (by decide), locationOf_eq hd h]

omit hd in
/-- The fields of two maps, when they are matched by their constructors. -/
theorem exists_fields {σ : Role} {P : Role → Document → Document → Prop} (hP : Inherited P)
    (h : Given P (.map σ) v v') :
    (∃ fields fields', v = .object fields ∧ v' = .object fields' ∧
      List.Forall₂ (Entry P σ) fields fields') ∨
    (∀ fields, v ≠ .object fields) ∧ ∀ fields, v' ≠ .object fields := by
  have hakin := h.akin_of_ne hP nofun
  have hfields := h.fields? hP
  cases v with
  | object fields =>
    cases v' with
    | object fields' =>
      cases hfields with
      | some hentries => exact .inl ⟨fields, fields', rfl, rfl, hentries⟩
    | _ => cases hakin
  | _ => cases hakin <;> exact .inr ⟨nofun, nofun⟩

/-- The only entry of a content map. -/
theorem singleContent_accord {boolean : Bool} (name : Document)
    (h : Given (ReadAs d d') (.map (.media boolean)) v v') :
    Accord (fun p p' => p'.1 = p.1 ∧ Given (ReadAs d d') (.media boolean) p.2 p'.2)
      (singleContent name v) (singleContent name v') := by
  have hlength := (h.akin_of_ne hd.inherited nofun).length?_eq
  rcases exists_fields hd.inherited h with ⟨fields, fields', rfl, rfl, hentries⟩ | ⟨hnone, hnone'⟩
  · cases hentries with
    | nil => exact .fail _ _ rfl
    | @cons p p' rest rest' hp hrest =>
      cases hrest with
      | nil =>
        obtain ⟨contentType, media⟩ := p
        obtain ⟨contentType', media'⟩ := p'
        obtain ⟨rfl, hmedia⟩ := hp
        refine .answer _ _ ⟨rfl, ?_⟩
        exact (Given.read hmedia).orElse hd.inherited nofun .noFields
      | cons => exact .fail _ _ rfl
  · rw [singleContent, singleContent, hlength]
    · refine .bind (.refl (fun _ => rfl) _) fun count _ hcount => ?_
      cases hcount
      split <;> exact .fail _ _ rfl
    · exact fun _ _ => hnone' _
    · exact fun _ _ => hnone _

/-- The content type of a parameter, and its schema. -/
theorem parameterSchema_likewise (name : Document) (h : ReadAs d d' .parameter v v') :
    Likewise (parameterSchema name v) (parameterSchema name v') fun p p' =>
      p'.1 = p.1 ∧ Given (ReadAs d d') (.schema false) p.2 p'.2 := by
  have hcontent := hd.inherited.find? h "content" rfl
  have hschema := hd.inherited.find? h "schema" rfl
  rw [parameterSchema, parameterSchema]
  generalize v.find? "content" = o at hcontent ⊢
  generalize v'.find? "content" = o' at hcontent ⊢
  cases hcontent with
  | some hcontent =>
    have hgiven := (Given.read hcontent).orElse hd.inherited nofun .noFields
    refine .bind (.lift (singleContent_accord hd name hgiven)) ?_
    rintro ⟨contentType, media⟩ ⟨_, media'⟩ ⟨rfl, hmedia⟩
    refine .bind (.field hd.inherited hmedia nofun rfl) fun s s' hs => .pure ⟨rfl, ?_⟩
    exact hs.orElse hd.inherited nofun .noFields
  | none =>
    exact .pure ⟨rfl, (Given.of_rel hschema).orElse hd.inherited nofun .noFields⟩

theorem insertParameter_likewise (path : Option String) (h : ReadAs d d' .parameter v v') :
    Likewise (insertParameter path v) (insertParameter path v') Eq := by
  rw [insertParameter, insertParameter, nameOf_eq hd h, locationOf_eq hd h, isRequired_eq hd h,
    hd.inherited.find?_eq h "description" (by decide)]
  refine .bind (.fields hd.inherited (.read h) nofun) fun _ _ _ => .next fun location => ?_
  refine .bind (parameterSchema_likewise hd _ h) ?_
  rintro ⟨contentType, schema⟩ ⟨_, schema'⟩ ⟨rfl, hschema⟩
  refine .skip (.field_eq hd.inherited hschema nofun (by decide)) fun reference => ?_
  refine .ite (fun _ => ?_) fun _ => .rfl _
  refine .next fun ⟨specName, generatedName⟩ => ?_
  exact .skip (Schema.addInline_likewise hd hschema ..) fun r => .rfl _

theorem insertComponentParameter_likewise (path : String) (h : ReadAs d d' .parameter v v') :
    Likewise (insertComponentParameter path v) (insertComponentParameter path v') Eq := by
  rw [insertComponentParameter, insertComponentParameter,
    hd.inherited.find?_eq h "$ref" (by decide)]
  refine .bind (.fields hd.inherited (.read h) nofun) fun _ _ _ => ?_
  split
  · exact .rfl _
  · exact insertParameter_likewise hd _ h

/-- The parameter object of an entry and its item. -/
theorem convertParameter_likewise (h : ReadAs d d' .parameter v v') :
    Likewise (convertParameter d v) (convertParameter d' v') fun p p' =>
      ReadAs d d' .parameter p.1 p'.1 ∧ p'.2 = p.2 := by
  rw [convertParameter, convertParameter, hd.inherited.find?_eq h "$ref" (by decide)]
  refine .bind (.fields hd.inherited (.read h) nofun) fun _ _ _ => ?_
  split
  · exact .skip (insertParameter_likewise hd none h) fun r => .pure ⟨h, rfl⟩
  · refine .bind (.lift (hd.followOrBlame rfl h)) fun param param' hparam => ?_
    exact .next fun r => .pure ⟨hparam, rfl⟩

theorem makeParameter_likewise (item : Ref) (h : ReadAs d d' .parameter v v') :
    Likewise (makeParameter v item) (makeParameter v' item) Eq := by
  rw [makeParameter, makeParameter, nameOf_eq hd h, locationOf_eq hd h, isRequired_eq hd h]
  exact .bind (.fields hd.inherited (.read h) nofun) fun _ _ _ => .rfl _

/-- What tells a parameter apart. -/
theorem parameterKey_accord (h : ReadAs d d' .parameter v v') :
    Accord Eq (parameterKey d v) (parameterKey d' v') := by
  rw [parameterKey, parameterKey]
  refine .bind (hd.followOrBlame rfl h) fun param param' hparam => ?_
  rw [nameOf_eq hd hparam, hd.inherited.find?_eq hparam "in" (by decide)]
  have hakin := hd.inherited.akin_of_ne hparam nofun
  cases param with
  | object fields =>
    cases param' with
    | object fields' => exact .refl (fun _ => rfl) _
    | _ => cases hakin
  | _ => cases hakin <;> exact .fail _ _ rfl

/-- Entries under the same keys, to be read as parameters. -/
def EntryAs (d d' : Document) (p p' : (Document × Document) × Document) : Prop :=
  p'.1 = p.1 ∧ ReadAs d d' .parameter p.2 p'.2

omit hd in
theorem putEntry_forall₂ (key : Document × Document) (h : ReadAs d d' .parameter v v')
    {acc acc' : List ((Document × Document) × Document)}
    (hacc : List.Forall₂ (EntryAs d d') acc acc') :
    List.Forall₂ (EntryAs d d') (putEntry key v acc) (putEntry key v' acc') := by
  induction hacc with
  | nil => exact .cons ⟨rfl, h⟩ .nil
  | @cons p p' rest rest' hp hrest ih =>
    obtain ⟨k, e⟩ := p
    obtain ⟨k', e'⟩ := p'
    obtain ⟨rfl, he⟩ := hp
    rw [putEntry, putEntry]
    split
    · exact .cons ⟨rfl, h⟩ hrest
    · exact .cons ⟨rfl, he⟩ ih

theorem mergeParameters_accord {own own' path path' : List Document}
    (hpath : List.Forall₂ (ReadAs d d' .parameter) path path')
    (hown : List.Forall₂ (ReadAs d d' .parameter) own own') :
    Accord (List.Forall₂ (ReadAs d d' .parameter)) (mergeParameters d path own)
      (mergeParameters d' path' own') := by
  have hfold : ∀ {l l' : List Document} {acc acc' : List ((Document × Document) × Document)},
      List.Forall₂ (ReadAs d d' .parameter) l l' → List.Forall₂ (EntryAs d d') acc acc' →
      Accord (List.Forall₂ (EntryAs d d'))
        (l.foldlM (fun acc entry => do return putEntry (← parameterKey d entry) entry acc) acc)
        (l'.foldlM (fun acc entry => do return putEntry (← parameterKey d' entry) entry acc)
          acc') := by
    intro l l' acc acc' hl hacc
    induction hl generalizing acc acc' with
    | nil => exact .answer _ _ hacc
    | cons h _ ih =>
      rw [List.foldlM_cons, List.foldlM_cons]
      refine .bind (.bind (parameterKey_accord hd h) fun key key' hkey => ?_) fun _ _ => ih
      cases hkey
      exact .answer _ _ (putEntry_forall₂ key h hacc)
  rw [mergeParameters, mergeParameters]
  refine .bind (hfold (List.rel_append hpath hown) .nil) fun merged merged' hmerged => ?_
  exact .answer _ _ (List.rel_map (fun _ _ hp => hp.2) hmerged)

/-! ## Bodies -/

section

variable {boolean : Bool}

theorem mediaItem_likewise (specName generatedName : String) (contentType : Document)
    (h : Given (ReadAs d d') (.schema boolean) v v') :
    Likewise (mediaItem specName generatedName v contentType)
      (mediaItem specName generatedName v' contentType) Eq := by
  rw [mediaItem, mediaItem, Schema.referenceOf_eq_of_given hd h]
  refine .cond (Schema.isNull_eq_of_given hd.inherited h) (fun _ => .rfl _) fun _ => ?_
  refine .ite (fun _ => Schema.lower_given hd h _ _ _) fun _ => .next fun path => ?_
  refine .ite (fun _ => .rfl _) fun _ => ?_
  exact .skip (Schema.convert_likewise hd h _ _ _) fun _ => .rfl _

theorem mediaSchema_likewise (h : ReadAs d d' (.media boolean) v v') :
    Likewise (mediaSchema v) (mediaSchema v') (Given (ReadAs d d') (.schema boolean)) :=
  .field hd.inherited ((Given.read h).orElse hd.inherited nofun .noFields) nofun rfl

variable {content content' : List (Document × Document)}
  (hcontent : List.Forall₂ (Entry (ReadAs d d') (.media boolean)) content content')

include hcontent

theorem sharesReference_likewise :
    Likewise (sharesReference content) (sharesReference content') Eq := by
  rw [sharesReference, sharesReference]
  refine .skip (.mapM_eq hcontent fun p p' hp => ?_) fun references => .rfl _
  refine .bind (mediaSchema_likewise hd hp.2) fun s s' hs => ?_
  rw [Schema.referenceOf_eq_of_given hd hs]
  exact .rfl _

omit hcontent in
theorem bodyVariant_likewise (required : Bool) {p p' : Document × Document}
    (hp : Entry (ReadAs d d') (.media boolean) p p') :
    Likewise (bodyVariant required p) (bodyVariant required p') Eq := by
  rw [bodyVariant, bodyVariant, hp.1]
  refine .next fun specName => .bind (mediaSchema_likewise hd hp.2) fun s s' hs => ?_
  exact .skip (mediaItem_likewise hd _ _ _ hs) fun _ => .rfl _

theorem bodyItem_likewise (specName : String) (required : Bool) :
    Likewise (bodyItem specName required content) (bodyItem specName required content') Eq := by
  have hshares := sharesReference_likewise hd hcontent
  have hvariants : Likewise (content.mapM (bodyVariant required))
      (content'.mapM (bodyVariant required)) Eq :=
    .mapM_eq hcontent fun _ _ => bodyVariant_likewise hd _
  unfold bodyItem
  dsimp only
  cases hcontent with
  | nil => exact .rfl _
  | @cons p p' rest rest' hp hrest =>
    obtain ⟨contentType, media⟩ := p
    obtain ⟨contentType', media'⟩ := p'
    obtain ⟨rfl, hmedia⟩ := hp
    have hfirst : ∀ contentType, Likewise
        (do mediaItem specName (Name.upperCamel specName) (← mediaSchema media) contentType)
        (do mediaItem specName (Name.upperCamel specName) (← mediaSchema media') contentType) Eq :=
      fun contentType => .bind (mediaSchema_likewise hd hmedia) fun _ _ =>
        mediaItem_likewise hd _ _ _
    cases hrest with
    | nil => exact hfirst _
    | cons hq hrest =>
      refine .skip hshares fun shared => .ite (fun _ => hfirst _) fun _ => ?_
      exact .skip hvariants fun _ => .rfl _

end

/-- The entries of a map under a key, if there is one. -/
theorem entries_likewise {α β : Type} {Q : α → β → Prop} {ρ σ : Role} {key : String}
    {f : List (Document × Document) → Build α} {f' : List (Document × Document) → Build β}
    (h : Given (ReadAs d d') ρ v v') (hρ : ρ ≠ .schema true)
    (hσ : ρ.under v (.text key) = some (.map σ))
    (hf : ∀ entries entries', List.Forall₂ (Entry (ReadAs d d') σ) entries entries' →
      Likewise (f entries) (f' entries') Q) :
    Likewise (field v key >>= fun x => require (x.orElse (.object [])).fields? >>= f)
      (field v' key >>= fun x => require (x.orElse (.object [])).fields? >>= f') Q :=
  .bind (.field hd.inherited h hρ hσ) fun _ _ hx =>
    .bind (.require (hx.entries? hd.inherited)) hf

theorem createBody_likewise (specName : String) (path : Option String)
    (h : ReadAs d d' .body v v') :
    Likewise (createBody specName path v) (createBody specName path v') Eq := by
  refine entries_likewise hd (.read h) nofun rfl fun content content' hcontent => ?_
  rw [hd.inherited.find?_eq h "required" (by decide),
    hd.inherited.find?_eq h "description" (by decide), hcontent.length_eq]
  exact .skip (bodyItem_likewise hd hcontent _ _) fun _ => .rfl _

theorem referredBody_likewise (h : ReadAs d d' .body v v') :
    Likewise (referredBody v) (referredBody v') Eq :=
  .skip (.field_eq hd.inherited (.read h) nofun (by decide)) fun _ => .rfl _

/-! ## Headers -/

/-- The schema of a header. -/
theorem headerSchema_likewise (specName : Document) (h : ReadAs d d' .header v v') :
    Likewise (headerSchema specName v) (headerSchema specName v')
      (Given (ReadAs d d') (.schema false)) := by
  have hcontent := Given.of_rel (hd.inherited.find? h "content" rfl)
  have hschema := Given.of_rel (hd.inherited.find? h "schema" rfl)
  refine .cond (hcontent.akin_of_ne hd.inherited nofun).holds_eq (fun _ => ?_) fun _ => .pure hschema
  refine .bind (.lift (singleContent_accord hd _ hcontent)) ?_
  rintro ⟨contentType, media⟩ ⟨_, media'⟩ ⟨rfl, hmedia⟩
  exact .field hd.inherited hmedia nofun rfl

theorem createHeader_likewise (specName : Document) (path : Option String)
    (h : ReadAs d d' .header v v') :
    Likewise (createHeader specName path v) (createHeader specName path v') Eq := by
  rw [createHeader, createHeader, hd.inherited.find?_eq h "description" (by decide),
    hd.inherited.find?_eq h "required" (by decide)]
  refine .next fun name => .next fun generatedName => ?_
  refine .bind (.fields hd.inherited (.read h) nofun) fun _ _ _ => ?_
  refine .bind (headerSchema_likewise hd _ h) fun schema schema' hschema => ?_
  extract_lets description jp
  have hakin := hschema.akin_of_ne hd.inherited nofun
  refine .cond hakin.isNull_eq (fun _ => .rfl _) fun _ => ?_
  rw [hakin.mentions?_eq]
  refine .next fun isReference => .ite (fun _ => ?_) fun _ => ?_
  · exact .skip (.field_eq hd.inherited hschema nofun (by decide)) fun reference => .rfl _
  · exact .skip (Schema.addInline_likewise hd hschema ..) fun r => .rfl _

theorem createShared_likewise (specName : Document) (path : String)
    (h : ReadAs d d' .header v v') :
    Likewise (createShared specName path v) (createShared specName path v') Eq :=
  .skip (createHeader_likewise hd _ _ h) fun _ => .rfl _

/-- The headers along matching chains; the induction is on the chains. -/
theorem headerAlong_likewise {links links' : List Link}
    (h : List.Forall₂ (LinkAs d d' .header) links links') :
    Likewise (headerAlong links) (headerAlong links') Eq := by
  induction h with
  | nil => exact .rfl _
  | @cons link link' rest rest' hlink hrest ih =>
    have hempty : rest.isEmpty = rest'.isEmpty := by cases hrest <;> rfl
    rw [headerAlong, headerAlong, hlink.1]
    refine .next fun m => ?_
    split
    · exact .rfl _
    · split
      · exact .rfl _
      · refine .cond hempty (fun _ => createShared_likewise hd _ _ hlink.2) fun _ => ?_
        exact .skip ih fun _ => .rfl _

theorem referredHeader_likewise (reference : Document) (h : ReadAs d d' .header v v') :
    Likewise (referredHeader d reference v) (referredHeader d' reference v') Eq := by
  rw [referredHeader.eq_def, referredHeader.eq_def]
  split
  · rename_i path
    refine .next fun m => ?_
    split
    · exact .rfl _
    · have halong : Likewise (lift (blameReference path (d.chain v)) >>= headerAlong)
          (lift (blameReference path (d'.chain v')) >>= headerAlong) Eq :=
        .bind (.lift ((hd.chain rfl h).blame path)) fun _ _ => headerAlong_likewise hd
      exact .ite (fun _ => .problem_bind rfl) fun _ => halong
  · exact .rfl _

theorem convertHeader_likewise (specName : Document) (h : ReadAs d d' .header v v') :
    Likewise (convertHeader d specName v) (convertHeader d' specName v') Eq := by
  refine .skip (.field_eq hd.inherited (.read h) nofun (by decide)) fun reference => ?_
  exact .ite (fun _ => createHeader_likewise hd _ _ h) fun _ => referredHeader_likewise hd _ h

theorem insertComponentHeader_likewise (specName : Document) (h : ReadAs d d' .header v v') :
    Likewise (insertComponentHeader d specName v) (insertComponentHeader d' specName v') Eq := by
  rw [insertComponentHeader, insertComponentHeader,
    (hd.inherited.akin_of_ne h nofun).mentions?_eq]
  refine .next fun m => ?_
  split
  · exact .rfl _
  · refine .next fun isReference => .ite (fun _ => ?_) fun _ => createShared_likewise hd _ _ h
    exact .skip (convertHeader_likewise hd _ h) fun _ => .rfl _

/-! ## Responses -/

theorem addPayload_likewise (specName generatedName : String) (contentType docs : Document)
    (h : Given (ReadAs d d') (.schema false) v v') :
    Likewise (addPayload specName generatedName v contentType docs)
      (addPayload specName generatedName v' contentType docs) Eq := by
  refine .cond (h.akin_of_ne hd.inherited nofun).isNull_eq (fun _ => .rfl _) fun _ => ?_
  refine .skip (.field_eq hd.inherited h nofun (by decide)) fun reference => .ite (fun _ => ?_) fun _ => ?_
  · exact .skip (Schema.addInline_likewise hd h ..) fun _ => .rfl _
  · refine .next fun path => .ite (fun _ => .rfl _) fun _ => ?_
    exact Schema.convert_likewise hd h _ _ _

/-- Named values in one role. -/
def NamedAs (d d' : Document) (ρ : Role) (p p' : String × Document) : Prop :=
  p'.1 = p.1 ∧ ReadAs d d' ρ p.2 p'.2

omit hd in
/-- Named values are kept or left out by their names. -/
theorem filter_forall₂ {ρ : Role} {l l' : List (String × Document)}
    (h : List.Forall₂ (NamedAs d d' ρ) l l') (p : String → Bool) :
    List.Forall₂ (NamedAs d d' ρ) (l.filter fun q => p q.1) (l'.filter fun q => p q.1) := by
  refine List.rel_filter (fun q q' hq => ?_) h
  show p q.1 = true ↔ p q'.1 = true
  rw [hq.1]

theorem headerMember_likewise (specName : String) {p p' : String × Document}
    (hp : NamedAs d d' .header p p') :
    Likewise (headerMember d specName p) (headerMember d' specName p') Eq := by
  obtain ⟨name, header⟩ := p
  obtain ⟨name', header'⟩ := p'
  obtain ⟨rfl, h⟩ := hp
  have hmember : Likewise
      (do
        let target ← lift (d.followOrBlame header)
        let definition ← convertHeader d (.text name') header
        return (name', ({ definition, inlineOption := !(← field target "required").holds } : Member)))
      (do
        let target ← lift (d'.followOrBlame header')
        let definition ← convertHeader d' (.text name') header'
        return (name', ({ definition, inlineOption := !(← field target "required").holds } : Member)))
      Eq := by
    refine .bind (.lift (hd.followOrBlame rfl h)) fun target target' htarget => ?_
    refine .skip (convertHeader_likewise hd _ h) fun definition => ?_
    exact .skip (.field_eq hd.inherited (.read htarget) nofun (by decide)) fun _ => .rfl _
  exact .ite (fun _ => .problem_bind rfl) fun _ => hmember

section

variable {headers headers' : List (String × Document)}
  (hheaders : List.Forall₂ (NamedAs d d' .header) headers headers')

include hheaders

theorem wrapWithHeaders_likewise (name : String) (body : Ref) (contentType docs : Document) :
    Likewise (wrapWithHeaders d name headers body contentType docs)
      (wrapWithHeaders d' name headers' body contentType docs) Eq :=
  .skip (.mapM_eq hheaders fun _ _ => headerMember_likewise hd name) fun _ => .rfl _

theorem responseVariant_likewise (itemName : String) (multiple : Bool) (docs : Document)
    {p p' : Document × Document}
    (hp : p'.1 = p.1 ∧ Given (ReadAs d d') (.schema false) p.2 p'.2) :
    Likewise (responseVariant d itemName multiple headers docs p)
      (responseVariant d' itemName multiple headers' docs p') Eq := by
  obtain ⟨contentType, schema⟩ := p
  obtain ⟨contentType', schema'⟩ := p'
  obtain ⟨rfl, h⟩ := hp
  have hempty : headers.isEmpty = headers'.isEmpty := by cases hheaders <;> rfl
  unfold responseVariant
  dsimp -zeta only
  rw [hempty]
  extract_lets tag jp jp'
  have hjp : ∀ name, Likewise (jp name) (jp' name) Eq := by
    refine fun name => .skip (addPayload_likewise hd _ _ _ _ h) fun payload => ?_
    refine .ite (fun _ => .rfl _) fun _ => ?_
    exact .skip (wrapWithHeaders_likewise hd hheaders _ _ _ _) fun _ => .rfl _
  exact .ite (fun _ => .next fun t => hjp _) fun _ => hjp _

end

/-- The headers of a response under their names. -/
theorem ownHeaders_likewise (h : ReadAs d d' .response v v') :
    Likewise (ownHeaders v) (ownHeaders v') (List.Forall₂ (NamedAs d d' .header)) := by
  refine entries_likewise hd (.read h) nofun rfl fun fields fields' hfields => ?_
  refine .bind (.mapM (Q := NamedAs d d' .header) hfields fun p p' hp => ?_)
    fun named named' hnamed => .pure (filter_forall₂ hnamed fun name => !isContentTypeHeader name)
  rw [hp.1]
  exact .next fun name => .pure ⟨rfl, hp.2⟩

/-- The schemas of a response under their content types. -/
theorem contentEntries_likewise (h : ReadAs d d' .response v v') :
    Likewise (contentEntries v) (contentEntries v') (List.Forall₂ fun p p' =>
      p'.1 = p.1 ∧ Given (ReadAs d d') (.schema false) p.2 p'.2) := by
  refine entries_likewise hd (.read h) nofun rfl fun content content' hcontent => ?_
  refine .bind (.mapM (Q := fun p p' : Document × Document =>
    p'.1 = p.1 ∧ Given (ReadAs d d') (.schema false) p.2 p'.2) hcontent fun p p' hp => ?_)
    fun entries entries' hentries => .pure ?_
  · have hmedia := (Given.read hp.2).orElse hd.inherited nofun .noFields
    rw [hp.1]
    exact .bind (.field hd.inherited hmedia nofun rfl) fun s s' hs => .pure ⟨rfl, hs⟩
  · cases hentries with
    | nil => exact .cons ⟨rfl, .null⟩ .nil
    | cons he hrest => exact .cons he hrest

theorem createVariants_likewise (itemName : String) (h : ReadAs d d' .response v v') :
    Likewise (createVariants d itemName v) (createVariants d' itemName v') Eq := by
  refine entries_likewise hd (.read h) nofun rfl fun content content' hcontent => ?_
  refine .bind (ownHeaders_likewise hd h) fun headers headers' hheaders => ?_
  refine .skip (.field_eq hd.inherited (.read h) nofun (by decide)) fun docs => ?_
  refine .bind (contentEntries_likewise hd h) fun entries entries' hentries => ?_
  rw [hcontent.length_eq]
  exact .mapM_eq hentries fun _ _ => responseVariant_likewise hd hheaders _ _ _

/-- Whether a response has several content types, read through references. -/
theorem hasSeveralContentTypes_accord (h : ReadAs d d' .response v v') :
    Accord Eq (hasSeveralContentTypes d v) (hasSeveralContentTypes d' v') := by
  rw [hasSeveralContentTypes, hasSeveralContentTypes]
  refine .bind (hd.followOrBlame rfl h) fun r r' hr => ?_
  have hcontent := (Given.read hr).get? hd.inherited nofun
    (show Role.under .response r (.text "content") = _ from rfl)
  generalize r.get? "content" = o at hcontent ⊢
  generalize r'.get? "content" = o' at hcontent ⊢
  cases hcontent with
  | none => exact .fail _ _ rfl
  | some hc =>
    have hgiven := hc.orElse hd.inherited nofun .noFields
    have hlength := (hgiven.akin_of_ne hd.inherited nofun).length?_eq
    dsimp only [orMalformed, bind, Except.bind]
    rw [hlength]
    exact .refl (fun _ => rfl) _

theorem statusVariants_likewise (generatedName : String) {p p' : String × Document}
    (hp : NamedAs d d' .response p p') :
    Likewise (statusVariants d generatedName p) (statusVariants d' generatedName p') Eq := by
  obtain ⟨status, response⟩ := p
  obtain ⟨status', response'⟩ := p'
  obtain ⟨rfl, h⟩ := hp
  rw [statusVariants, statusVariants, hd.inherited.find?_eq h "$ref" (by decide)]
  refine .next fun name => .bind (.fields hd.inherited (.read h) nofun) fun _ _ _ => ?_
  dsimp only
  split
  · exact .rfl _
  · exact .skip (createVariants_likewise hd _ h) fun _ => .rfl _

omit hd in
/-- The statuses in order, the default one at the end. -/
theorem orderedStatuses_forall₂ {responses responses' : List (Document × Document)}
    (h : List.Forall₂ (Entry (ReadAs d d') .response) responses responses') :
    List.Forall₂ (NamedAs d d' .response) (orderedStatuses responses)
      (orderedStatuses responses') := by
  have hentries : List.Forall₂ (NamedAs d d' .response)
      (responses.map fun p => (p.1.display, p.2)) (responses'.map fun p => (p.1.display, p.2)) :=
    List.rel_map (fun p p' hp => ⟨congrArg display hp.1, hp.2⟩) h
  rw [orderedStatuses, orderedStatuses]
  exact List.rel_append (filter_forall₂ hentries fun name => decide (name ≠ "default"))
    (filter_forall₂ hentries fun name => decide (name = "default"))

theorem createResponses_likewise (specName : String)
    (h : Given (ReadAs d d') (.map .response) v v') :
    Likewise (createResponses d specName v) (createResponses d' specName v') Eq := by
  refine .bind (.require (h.entries? hd.inherited)) fun fields fields' hfields => ?_
  exact .skip (.mapM_eq (orderedStatuses_forall₂ hfields) fun _ _ => statusVariants_likewise hd _)
    fun _ => .rfl _

/-! ## Operations -/

theorem anySeveral_likewise (h : Given (ReadAs d d') (.map .response) v v') :
    Likewise (anySeveral d v) (anySeveral d' v') Eq := by
  refine .bind (.require (h.fields? hd.inherited)) fun fields fields' hfields => .lift ?_
  induction hfields with
  | nil => exact .refl (fun _ => rfl) _
  | cons hp _ ih =>
    rw [List.anyM_cons, List.anyM_cons]
    refine .bind (hasSeveralContentTypes_accord hd hp.2) fun several several' hseveral => ?_
    cases hseveral
    cases several with
    | true => exact .answer _ _ rfl
    | false => exact ih

theorem documentation_eq (h : ReadAs d d' .operation v v') : documentation v = documentation v' := by
  rw [documentation, documentation, hd.inherited.find?_eq h "externalDocs" (by decide),
    hd.inherited.find?_eq h "operationId" (by decide),
    hd.inherited.find?_eq h "description" (by decide),
    hd.inherited.find?_eq h "summary" (by decide)]

theorem bodyOf_likewise (verb : Verb) (path operationId : Document)
    (h : ReadAs d d' .operation v v') :
    Likewise (bodyOf verb path operationId v) (bodyOf verb path operationId v') Eq := by
  have hbody := hd.inherited.find? h "requestBody" rfl
  rw [bodyOf, bodyOf]
  generalize v.find? "requestBody" = o at hbody ⊢
  generalize v'.find? "requestBody" = o' at hbody ⊢
  cases hbody with
  | none => exact .rfl _
  | @some b b' hb =>
    dsimp only [Option.getD_some]
    have hnull := (hd.inherited.akin_of_ne hb nofun).isNull_eq
    refine .cond (by rw [hnull]) (fun _ => .rfl _) fun _ => ?_
    refine .bind (.fields hd.inherited (.read hb) nofun) fun _ _ _ => ?_
    refine .cond (hd.inherited.hasField_eq hb _) (fun _ => ?_) fun _ => .next fun specName => ?_
    · exact .skip (referredBody_likewise hd hb) fun _ => .rfl _
    · exact .skip (createBody_likewise hd _ _ hb) fun _ => .rfl _

/-- The entries of a list of parameters, if there is one. -/
theorem parameterEntries_likewise {ρ : Role} (h : ReadAs d d' ρ v v') (hρ : ρ ≠ .schema true)
    (hσ : ρ.under v (.text "parameters") = some (.list .parameter)) :
    Likewise (do require ((← field v "parameters").orElse (.array [])).elements?)
      (do require ((← field v' "parameters").orElse (.array [])).elements?)
      (List.Forall₂ (ReadAs d d' .parameter)) := by
  refine .bind (.field hd.inherited (.read h) hρ hσ) fun x x' hx => .require ?_
  exact (hx.orElse hd.inherited nofun .noItems).elements? hd.inherited

theorem parametersOf_likewise {pathItem pathItem' : Document}
    (hpath : ReadAs d d' .pathItem pathItem pathItem') (h : ReadAs d d' .operation v v') :
    Likewise (parametersOf d pathItem v) (parametersOf d' pathItem' v') Eq := by
  refine .bind (parameterEntries_likewise hd hpath nofun rfl) fun entries entries' hentries => ?_
  refine .bind (parameterEntries_likewise hd h nofun rfl) fun own own' hown => ?_
  refine .bind (.lift (mergeParameters_accord hd hentries hown)) fun merged merged' hmerged => ?_
  refine .mapM_eq hmerged fun entry entry' hentry => ?_
  refine .bind (convertParameter_likewise hd hentry) ?_
  rintro ⟨param, item⟩ ⟨param', _⟩ ⟨hparam, rfl⟩
  exact makeParameter_likewise hd _ hparam

/-- **An operation is the same in both documents.** -/
theorem create_likewise (path : Document) (verb : Verb) {pathItem pathItem' : Document}
    (hpath : ReadAs d d' .pathItem pathItem pathItem') (h : ReadAs d d' .operation v v') :
    Likewise (create d path verb pathItem v) (create d' path verb pathItem' v') Eq := by
  have hresponses := (Given.of_rel (hd.inherited.find? h "responses" rfl)).orElse hd.inherited
    nofun .noFields
  refine .skip (.field_eq hd.inherited (.read h) nofun (by decide)) fun operationId => ?_
  extract_lets label responses responses'
  refine .skip (parametersOf_likewise hd hpath h) fun declared => ?_
  extract_lets declaredHeaders rest choose rest' choose'
  -- all of it but the implicit header, which is made before if it is wanted
  have hrest : ∀ accept, Likewise (rest accept) (rest' accept) Eq := by
    refine fun accept => .next fun pathName => .next fun pathParameters => ?_
    refine .next fun queryName => .next fun queryParameters => ?_
    refine .skip (bodyOf_likewise hd _ _ _ h) fun requestBody => .next fun responseName => ?_
    refine .skip (createResponses_likewise hd _ hresponses) fun response => ?_
    refine .skip (.field_eq hd.inherited (.read hpath) nofun (by decide)) fun description => ?_
    refine .skip (.field_eq hd.inherited (.read hpath) nofun (by decide)) fun summary => ?_
    rw [documentation_eq hd h]
    exact .rfl _
  have hchoose : ∀ implicit, Likewise (choose implicit) (choose' implicit) Eq :=
    fun implicit => .ite (fun _ => .next fun _ => hrest _) fun _ => hrest []
  exact .ite (fun _ => hchoose false) fun _ => .skip (anySeveral_likewise hd hresponses) hchoose

omit hd in
/-- What stands under a key of a path that is no keyword is an operation. -/
theorem under_operation {key : String} (parent : Document)
    (h : ¬(pathKeywords.contains key || "x-".toList.isPrefixOf key.toList) = true) :
    Role.under .pathItem parent (.text key) = some .operation := by
  have hkeyword : ∀ keyword, pathKeywords.contains keyword = true → key ≠ keyword := by
    rintro keyword hmem rfl
    rw [hmem] at h
    exact h rfl
  have hplain : ¬(Role.keywords .pathItem).contains key = true := by
    simp [Role.keywords, hkeyword "$ref" rfl, hkeyword "summary" rfl, hkeyword "description" rfl]
  rw [Role.under, Role.field, if_neg hplain, if_neg h]
  · exact hkeyword "parameters" rfl
  · nofun

/-- What stands under one key of a path. -/
theorem insertKey_likewise (path : Document) {pathItem pathItem' : Document}
    (hpath : ReadAs d d' .pathItem pathItem pathItem') {p p' : Document × Document}
    (hp : p'.1 = p.1 ∧ ∀ σ, Role.under .pathItem pathItem p.1 = some σ →
      ReadAs d d' σ p.2 p'.2) :
    Likewise (insertKey d path pathItem p) (insertKey d' path pathItem' p') Eq := by
  obtain ⟨key, operation⟩ := p
  obtain ⟨key', operation'⟩ := p'
  obtain ⟨rfl, hp⟩ := hp
  rw [insertKey, insertKey]
  dsimp only
  cases key' with
  | text key =>
    refine .ite (fun _ => .rfl _) fun hkey => .next fun verb => ?_
    exact .skip (create_likewise hd _ _ hpath (hp _ (under_operation _ hkey))) fun _ => .rfl _
  | _ => exact .throw rfl

theorem insertPath_likewise {p p' : Document × Document}
    (hp : Entry (ReadAs d d') .pathItem p p') :
    Likewise (insertPath d p) (insertPath d' p') Eq := by
  rw [insertPath, insertPath, hp.1]
  refine .bind (.lift (hd.followOrBlame rfl hp.2)) fun pathItem pathItem' hpath => ?_
  have hakin := hd.inherited.akin_of_ne hpath nofun
  cases pathItem with
  | object fields =>
    cases pathItem' with
    | object fields' =>
      exact .forM (hd.inherited.pairs hpath) fun _ _ => insertKey_likewise hd _ hpath
    | _ => cases hakin
  | _ => cases hakin <;> exact .throw rfl

/-- **All operations are the same in both documents.** -/
theorem insertAll_likewise : Likewise (insertAll d) (insertAll d') Eq :=
  entries_likewise hd (.read .root) nofun rfl fun _ _ hpaths =>
    .forM hpaths fun _ _ => insertPath_likewise hd

end TypedApi.Operation
