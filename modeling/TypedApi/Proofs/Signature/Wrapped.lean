import TypedApi.Proofs.Build.Follows
import TypedApi.Proofs.Schema.Denotation
import TypedApi.Proofs.Signature.Union
/-!
Responses with headers.

A response that declares headers of its own, other than the one that repeats its
content type, is wrapped: the variant for each content type is an object with
the headers in declared order and the payload behind them. Headers are lowered
between the payload and the object, once for each content type, and a reference
among them may add the shared headers along its chain; so the object is read off
the model that the whole response leaves, and everything in it was made before.
-/

set_option autoImplicit false

namespace TypedApi

open Build

namespace Operation

variable {document response : Document} {itemName name bodyName : String} {w w' : Workbench}
  {r : Ref} {m m' : Model}

/-! ## What a response declares -/

/-- The headers that a response declares, if it has the form for them and their names are texts. -/
def declaredHeaders? (response : Document) : Option (List (String × Document)) := do
  let fields ← ((← response.get? "headers").orElse (.object [])).fields?
  fields.mapM fun p => do return (← p.1.text?, p.2)

/-- Those that are not there to repeat the content type. -/
def own (declared : List (String × Document)) : List (String × Document) :=
  declared.filter fun p => !isContentTypeHeader p.1

/-- The content types of a response with their schemas, a single empty entry if it has none. -/
def contentEntries? (response : Document) : Option (List (Document × Document)) := do
  let entries ← (← contentOf? response).mapM fun p => do
    return (p.1, ← (p.2.orElse (.object [])).get? "schema")
  return if entries.isEmpty then [(.null, .null)] else entries

theorem finds_ownHeaders (response : Document) :
    Finds (ownHeaders response) (do return own (← declaredHeaders? response)) := by
  unfold ownHeaders declaredHeaders?
  simp only [bind_assoc]
  exact .bind (.field _ _) fun _ => .bind (.require _) fun _ =>
    .bind (.mapM (fun _ => .bind (.require _) fun _ => .pure _) _) fun _ => .pure _

theorem finds_contentEntries (response : Document) :
    Finds (contentEntries response) (contentEntries? response) := by
  unfold contentEntries contentEntries? contentOf?
  simp only [bind_assoc]
  exact .bind (.field _ _) fun _ => .bind (.require _) fun _ =>
    .bind (.mapM (fun _ => .bind (.field _ _) fun _ => .pure _) _) fun _ => .pure _

/-- Without content there is one entry, and otherwise one for each content type. -/
theorem length_contentEntries? {entries : List (Document × Document)}
    (h : contentEntries? response = some entries) :
    ∃ content, contentOf? response = some content ∧ entries.length = max 1 content.length := by
  have hexec : exec (contentEntries response) {} = (.ok entries, {}) := by
    rw [(finds_contentEntries response).runs, h]
    rfl
  obtain ⟨content, hcontent, hfst⟩ := fst_of_contentEntries hexec
  refine ⟨content, hcontent, ?_⟩
  rw [← List.length_map Prod.fst, hfst]
  cases content with
  | nil => rfl
  | cons p content =>
    simp only [List.isEmpty_cons, Bool.false_eq_true, if_false, List.length_map, List.length_cons]
    omega

/-! ## Payloads -/

/-- The payload of a content type: nothing without a schema, what the reference leads to if the
schema is one, and otherwise an item of the shape that lowering the schema answers. -/
inductive Payload (name bodyName : String) (contentType schema : Document) (m : Model) : Ref → Prop
  | empty (r : Ref) : schema.isNull = true → m.Shows r (.scalar .unit) →
    Payload name bodyName contentType schema m r
  | external (path : String) (r : Ref) :
    Schema.referenceOf schema = .text path → WellKnown.isExternal path = true →
    m.Shows r (.scalar (WellKnown.scalar path)) → Payload name bodyName contentType schema m r
  | later (path : String) :
    Schema.referenceOf schema = .text path → WellKnown.isExternal path = false →
    Payload name bodyName contentType schema m (.forward path)
  | registered (path : String) (index : Int) :
    Schema.referenceOf schema = .text path → WellKnown.isExternal path = false →
    m.namedReferences.get? path = some index →
    Payload name bodyName contentType schema m (.back index)
  | inline (item : Item) (r : Ref) :
    schema.isNull = false → (Schema.referenceOf schema).isNull = true →
    Answers (Schema.lower name bodyName schema none contentType) item → m.Shows r item.shape →
    Payload name bodyName contentType schema m r

/-- A payload stays what it is. -/
theorem Payload.steps {contentType schema : Document}
    (h : Payload name bodyName contentType schema m r) (hsteps : Steps .anything m m') :
    Payload name bodyName contentType schema m' r := by
  cases h with
  | empty _ hnull hshows => exact .empty r hnull (hshows.steps hsteps)
  | external path _ href hexternal hshows => exact .external path r href hexternal (hshows.steps hsteps)
  | later path href hinternal => exact .later path href hinternal
  | registered path index href hinternal hget =>
    exact .registered path index href hinternal (Table.get?_of_prefix hsteps.kept.paths hget)
  | inline item _ hschema hnull hitem hshows =>
    exact .inline item r hschema hnull hitem (hshows.steps hsteps)

/-- An item that is added and then remarked on has the shape that it was added with. -/
theorem shows_of_remarked {item : Item} {f : Item → Item} (hf : Item.Remark f)
    (h : exec (do
      let r ← addItem item
      modifyItem r f
      return r) w = (.ok r, w')) : w'.model.Shows r item.shape := by
  obtain ⟨r', u, hadd, h⟩ := of_exec_bind_ok h
  obtain ⟨_, u', hremark, h⟩ := of_exec_bind_ok h
  cases h
  have hsteps := (Keeps.of_along fun m => .modifyItem hf).of_exec hremark
  exact (Model.shows_of_addItem hadd).steps hsteps

/-- A reference inside the document is answered by where its path leads, and adds nothing. -/
theorem exec_convert_internal {schema : Document} {path : String}
    (href : Schema.referenceOf schema = .text path) (hinternal : WellKnown.isExternal path = false)
    (w : Workbench) : exec (Schema.convert name bodyName none schema) w =
      (.ok (leadsTo w.model.namedReferences path), w) := by
  have hpath : exec (require (Document.text path).text?) w = (.ok path, w) := exec_require _ w
  rw [Schema.convert, Schema.convertWith, href, if_neg (by simp [Document.isNull]),
    exec_bind_ok hpath, exec_bind_model, leadsTo]
  cases w.model.namedReferences.get? path with
  | some index => rfl
  | none =>
    simp only [hinternal]
    rfl

theorem payload_of_addPayload {schema contentType docs : Document}
    (h : exec (addPayload name bodyName schema contentType docs) w = (.ok r, w')) :
    Payload name bodyName contentType schema w'.model r := by
  rw [addPayload] at h
  split at h
  · exact .empty r ‹_› (shows_of_remarked (remark_docs docs) h)
  have hschema : schema.isNull = false := by simpa using ‹¬schema.isNull = true›
  obtain ⟨reference, hreference, h⟩ := of_exec_bind_steady (.field _ _) h
  have href : Schema.referenceOf schema = reference := by
    have hget := of_exec_require_ok (hreference w)
    cases schema with
    | object fields => exact Option.some.inj hget
    | _ => cases hget
  split at h
  · rw [Schema.addInline, Schema.addInlineWith, bind_assoc] at h
    obtain ⟨item, u, hitem, h⟩ := of_exec_bind_ok h
    exact .inline item r hschema (href ▸ ‹_›) ⟨w, u, hitem⟩ (shows_of_remarked (remark_orDocs docs) h)
  · obtain ⟨path, hpath, h⟩ := of_exec_bind_steady (.require _) h
    have href : Schema.referenceOf schema = .text path :=
      href.trans (Schema.eq_text_of_text? (of_exec_require_ok (hpath w)))
    split at h
    · exact .external path r href ‹_› (shows_of_remarked (remark_docs docs) h)
    · have hinternal : WellKnown.isExternal path = false := by
        simpa using ‹¬WellKnown.isExternal path = true›
      rw [exec_convert_internal href hinternal, leadsTo] at h
      cases hget : w.model.namedReferences.get? path with
      | some index =>
        rw [hget] at h
        cases h
        exact .registered path index href hinternal hget
      | none =>
        rw [hget] at h
        cases h
        exact .later path href hinternal

/-! ## Wrapping -/

/-- The member for a header: it has the name of the header and refers to what lowering it answers,
and it may be left out unless the header, read through references, is required. -/
def IsMemberFor (document : Document) (header : String × Document) (member : String × Member) :
    Prop :=
  ∃ definition target required,
    Answers (convertHeader document (.text header.1) header.2) definition ∧
    document.followOrBlame header.2 = .ok target ∧ target.get? "required" = some required ∧
    member = (header.1, { definition, inlineOption := !required.holds })

variable {headers : List (String × Document)} {payload : Ref} {contentType docs : Document}

/-- What a variant refers to: the payload itself if the response has no headers of its own, and
otherwise an object with one member for each of them, in order, and the payload as the last. -/
inductive Wraps (document : Document) (headers : List (String × Document)) (payload : Ref)
    (m : Model) : Ref → Prop
  | bare : headers = [] → Wraps document headers payload m payload
  | wrapped (r : Ref) (members : List (String × Member)) : headers ≠ [] →
    List.Forall₂ (IsMemberFor document) headers members →
    m.Shows r (.object (members ++ [("body", { definition := payload, inlineOption := false })])) →
    Wraps document headers payload m r

theorem isMemberFor_of_headerMember {header : String × Document} {member : String × Member}
    (h : exec (headerMember document name header) w = (.ok member, w')) :
    header.1 ≠ "body" ∧ IsMemberFor document header member := by
  obtain ⟨headerName, header⟩ := header
  rw [headerMember] at h
  split at h
  · cases h
  refine ⟨‹_›, ?_⟩
  obtain ⟨target, htarget, h⟩ := of_exec_bind_steady (.lift _) h
  obtain ⟨definition, u, hdefinition, h⟩ := of_exec_bind_ok h
  obtain ⟨required, hrequired, h⟩ := of_exec_bind_steady (.field _ _) h
  cases h
  exact ⟨definition, target, required, ⟨_, _, hdefinition⟩, of_exec_lift_ok (htarget w),
    of_exec_require_ok (hrequired w), rfl⟩

/-- An object with headers comes from a run over the headers, and has the payload behind them. No
header is named like the payload, so that none is replaced by it. -/
theorem exists_members (h : exec (wrapWithHeaders document name headers payload contentType docs) w =
    (.ok r, w')) :
    ∃ members u, exec (headers.mapM (headerMember document name)) w = (.ok members, u) ∧
      u.model.Grows w'.model ∧
      w'.model.Shows r
        (.object (members ++ [("body", { definition := payload, inlineOption := false })])) := by
  rw [wrapWithHeaders] at h
  obtain ⟨members, u, hmembers, h⟩ := of_exec_bind_ok h
  obtain ⟨docs, _, h⟩ := of_exec_bind_steady (.textOrNull _) h
  obtain ⟨contentType, _, h⟩ := of_exec_bind_steady (.optionalText _) h
  have hfree : Table.get? members "body" = none := by
    rw [Table.get?_eq_none_iff, Table.keys, List.mem_map]
    rintro ⟨member, hmember, hbody⟩
    obtain ⟨p, _, _, _, hrun⟩ := exists_of_mem_forall₂_right (forall₂_of_exec_mapM hmembers) hmember
    obtain ⟨hne, _, _, _, _, _, _, rfl⟩ := isMemberFor_of_headerMember hrun
    exact hne hbody
  have hshows := Model.shows_of_addItem h
  rw [Table.insert_of_get?_eq_none members _ _ hfree] at hshows
  exact ⟨members, u, hmembers, (Keeps.addItem _).of_exec h, hshows⟩

/-- The object has a member for each header and the payload behind them. -/
theorem wraps_of_wrapWithHeaders (hne : headers ≠ [])
    (h : exec (wrapWithHeaders document name headers payload contentType docs) w = (.ok r, w')) :
    (∀ p ∈ headers, p.1 ≠ "body") ∧ Wraps document headers payload w'.model r := by
  obtain ⟨members, u, hmembers, _, hshows⟩ := exists_members h
  have hmembers := (forall₂_of_exec_mapM hmembers).imp fun _ _ ⟨_, _, hmember⟩ =>
    isMemberFor_of_headerMember hmember
  refine ⟨fun p hp => ?_, .wrapped r members hne (hmembers.imp fun _ _ hmember => hmember.2) hshows⟩
  obtain ⟨_, _, hbody, _⟩ := exists_of_mem_forall₂ hmembers hp
  exact hbody

theorem Wraps.steps (h : Wraps document headers payload m r) (hsteps : Steps .anything m m') :
    Wraps document headers payload m' r := by
  cases h with
  | bare hempty => exact .bare hempty
  | wrapped _ members hne hmembers hshows => exact .wrapped r members hne hmembers (hshows.steps hsteps)

/-! ## Variants -/

/-- The name of the items for a content type: that of the response, with the content type behind it
if there are several. -/
def variantName (itemName : String) (several : Bool) (contentType : Document) : String :=
  if several then itemName ++ Name.upperCamel (contentType.text?.getD "") else itemName

/-- A variant of a response refers to the payload of its content type, or to an object that wraps
it. -/
def VariantFor (document : Document) (itemName : String) (several : Bool)
    (headers : List (String × Document)) (m : Model) (entry : Document × Document) (v : Variant) :
    Prop :=
  let name := variantName itemName several entry.1
  let bodyName := if headers = [] then name else name ++ "Body"
  ∃ payload, Payload name bodyName entry.1 entry.2 m payload ∧
    Wraps document headers payload m v.definition

variable {several : Bool} {entry : Document × Document} {v : Variant} {vs : List Variant}

theorem VariantFor.steps (h : VariantFor document itemName several headers m entry v)
    (hsteps : Steps .anything m m') : VariantFor document itemName several headers m' entry v := by
  obtain ⟨payload, hpayload, hwraps⟩ := h
  exact ⟨payload, hpayload.steps hsteps, hwraps.steps hsteps⟩

/-- A variant comes from its payload, and from wrapping that if there are headers. -/
theorem exists_payload
    (h : exec (responseVariant document itemName several headers docs entry) w = (.ok v, w')) :
    let name := variantName itemName several entry.1
    let bodyName := if headers = [] then name else name ++ "Body"
    ∃ payload u, exec (addPayload name bodyName entry.2 entry.1 docs) w = (.ok payload, u) ∧
      ((headers = [] ∧ v.definition = payload ∧ w' = u) ∨
        (headers ≠ [] ∧ exec (wrapWithHeaders document name headers payload entry.1 docs) u =
          (.ok v.definition, w'))) := by
  obtain ⟨contentType, schema⟩ := entry
  unfold responseVariant at h
  dsimp -zeta only at h
  extract_lets finish rest at h
  have hrest : exec (rest (variantName itemName several contentType)) w = (.ok v, w') := by
    cases several with
    | false => exact h
    | true =>
      obtain ⟨t, ht, h⟩ := of_exec_bind_steady (.require _) h
      rw [variantName, if_pos rfl, of_exec_require_ok (ht w)]
      exact h
  obtain ⟨payload, u, hpayload, h⟩ := of_exec_bind_ok hrest
  simp only [List.isEmpty_iff] at hpayload h
  refine ⟨payload, u, hpayload, ?_⟩
  split at h
  · cases h
    exact .inl ⟨‹_›, rfl, rfl⟩
  · obtain ⟨definition, u', hwrap, h⟩ := of_exec_bind_ok h
    cases h
    exact .inr ⟨‹_›, hwrap⟩

theorem variantFor_of_responseVariant
    (h : exec (responseVariant document itemName several headers docs entry) w = (.ok v, w')) :
    (∀ p ∈ headers, p.1 ≠ "body") ∧
      VariantFor document itemName several headers w'.model entry v := by
  obtain ⟨payload, u, hpayload, ⟨hempty, rfl, rfl⟩ | ⟨hne, hwrap⟩⟩ := exists_payload h
  · exact ⟨by simp [hempty], _, payload_of_addPayload hpayload, .bare hempty⟩
  · obtain ⟨hnames, hwraps⟩ := wraps_of_wrapWithHeaders hne hwrap
    have hsteps := (Keeps.of_along fun m => wrapWithHeaders_along trivial).of_exec hwrap
    exact ⟨hnames, payload, (payload_of_addPayload hpayload).steps hsteps, hwraps⟩

/-- The variants of a response come from a run over its content types. -/
theorem exists_entries (h : exec (createVariants document itemName response) w = (.ok vs, w')) :
    ∃ declared entries docs, declaredHeaders? response = some declared ∧
      contentEntries? response = some entries ∧ 0 < entries.length ∧
      exec (entries.mapM
        (responseVariant document itemName (1 < entries.length) (own declared) docs)) w =
          (.ok vs, w') := by
  rw [createVariants] at h
  obtain ⟨d, hd, h⟩ := of_exec_bind_steady (.field _ _) h
  obtain ⟨content, hcontent, h⟩ := of_exec_bind_steady (.require _) h
  obtain ⟨headers, hheaders, h⟩ := of_exec_bind_steady (steady_ownHeaders _) h
  obtain ⟨docs, _, h⟩ := of_exec_bind_steady (.field _ _) h
  obtain ⟨entries, hentries, h⟩ := of_exec_bind_steady (steady_contentEntries _) h
  have hentries := ((finds_contentEntries response).of_exec (hentries w)).1
  obtain ⟨declared, hdeclared, hown⟩ :=
    Option.bind_eq_some_iff.mp ((finds_ownHeaders response).of_exec (hheaders w)).1
  obtain rfl : own declared = headers := Option.some.inj hown
  obtain ⟨content', hcontent', hlength⟩ := length_contentEntries? hentries
  -- whether there are several is asked of the content, and comes to the same there
  have hseveral : decide (1 < content.length) = decide (1 < entries.length) := by
    rw [contentOf?, of_exec_require_ok (hd w)] at hcontent'
    obtain rfl : content = content' :=
      Option.some.inj ((of_exec_require_ok (hcontent w)).symm.trans hcontent')
    rw [hlength, decide_eq_decide]
    omega
  rw [hseveral] at h
  exact ⟨declared, entries, docs, hdeclared, hentries, by omega, h⟩

/-- **Headers are wrapped around every payload.** A response that is lowered has one variant for
each content type, or a single one. Without headers of its own, each refers to the payload itself;
with some, to an object with a member for each header, in order, and behind them `body`, which
refers to the payload and may not be left out. No header is named `body`: such a response is not
lowered. -/
theorem wrapped_of_createVariants
    (h : exec (createVariants document itemName response) w = (.ok vs, w')) :
    ∃ declared entries, declaredHeaders? response = some declared ∧
      contentEntries? response = some entries ∧
      (∀ p ∈ declared, p.1 ≠ "body") ∧
      List.Forall₂ (VariantFor document itemName (1 < entries.length) (own declared) w'.model)
        entries vs := by
  obtain ⟨declared, entries, docs, hdeclared, hentries, hpos, h⟩ := exists_entries h
  have hvariants : List.Forall₂ (fun entry v => (∀ p ∈ own declared, p.1 ≠ "body") ∧
      VariantFor document itemName (1 < entries.length) (own declared) w'.model entry v)
      entries vs := by
    refine (forall₂_between (R := Steps .anything) (fun _ _ _ _ hrun =>
      (Keeps.of_along fun _ => responseVariant_along ..).of_exec hrun) h).2.imp
        fun entry v ⟨_, _, _, hrun, hrest⟩ => ?_
    exact (variantFor_of_responseVariant hrun).imp_right fun hv => hv.steps hrest
  refine ⟨declared, entries, hdeclared, hentries, fun p hp hbody => ?_,
    hvariants.imp fun _ _ hv => hv.2⟩
  -- there is at least one entry, and wrapping its payload would have failed
  have hentry : entries.get ⟨0, hpos⟩ ∈ entries := List.get_mem _ _
  obtain ⟨_, _, hnames, _⟩ := exists_of_mem_forall₂ hvariants hentry
  exact hnames p (List.mem_filter.mpr ⟨hp, by rw [hbody]; decide⟩) hbody

/-! ## A listing with headers -/

/-- A document with a shared header that is required, and another name for it. -/
def listingDocument : Document :=
  .object [(.text "components", .object [(.text "headers", .object [
    (.text "Total", .object [(.text "required", .bool true),
      (.text "schema", .object [(.text "type", .text "integer")])]),
    (.text "Count", .object [(.text "$ref", .text "#/components/headers/Total")])])])]

/-- A listing in two content types: it repeats the content type, counts the entries under the other
name, and may say which page it is. -/
def listing : Document :=
  .object [
    (.text "headers", .object [
      (.text "Content-Type", .object []),
      (.text "X-Count", .object [(.text "$ref", .text "#/components/headers/Count")]),
      (.text "X-Page", .object [(.text "schema", .object [(.text "type", .text "integer")])])]),
    (.text "content", .object [
      (.text "application/json", .object [(.text "schema", .object [(.text "type", .text "object")])]),
      (.text "text/csv", .null)])]

/-- The members of the object that a variant refers to, and whether they may be left out. -/
def membersOf (m : Model) (v : Variant) : List (String × Bool) :=
  match (m.resolve v.definition).toOption.map Item.shape with
  | some (.object members) => members.map fun p => (p.1, p.2.inlineOption)
  | _ => []

/-- The listing is wrapped in both content types. -/
theorem listing_wrapped :
    ∃ vs w', exec (createVariants listingDocument "Listing" listing) {} = (.ok vs, w') ∧
      vs.map (membersOf w'.model) = [[("X-Count", false), ("X-Page", true), ("body", false)],
        [("X-Count", false), ("X-Page", true), ("body", false)]] ∧
      ∃ declared entries, declaredHeaders? listing = some declared ∧
        contentEntries? listing = some entries ∧ (∀ p ∈ declared, p.1 ≠ "body") ∧
        List.Forall₂ (VariantFor listingDocument "Listing" (1 < entries.length) (own declared)
          w'.model) entries vs := by
  have hmembers : (exec (createVariants listingDocument "Listing" listing) {}).1.toOption.map
      (fun vs => vs.map
        (membersOf (exec (createVariants listingDocument "Listing" listing) {}).2.model)) =
      some [[("X-Count", false), ("X-Page", true), ("body", false)],
        [("X-Count", false), ("X-Page", true), ("body", false)]] := by decide +kernel
  rcases hrun : exec (createVariants listingDocument "Listing" listing) {} with ⟨result, w'⟩
  rw [hrun] at hmembers
  obtain ⟨vs, rfl, hmembers⟩ := exists_of_toOption_map hmembers
  exact ⟨vs, w', rfl, hmembers, wrapped_of_createVariants hrun⟩

end Operation
end TypedApi
