import TypedApi.Proofs.Bindings.Named
import TypedApi.Proofs.Conversion.AliasOrder
import TypedApi.Proofs.Document.Fields
import TypedApi.Proofs.Operation.Blame
/-!
A conversion fails only over the document.

A shared schema, parameter or request body is stored under the path of its key,
which must be free. It is, since the keys of a section are distinct texts and
the paths of different sections begin differently. So nothing that a document
with texts as keys can hold makes a conversion store two items under one path,
give a name twice, name a variant twice or change a finished model, and no
failure to follow a reference comes out as a failure to read the document. And
where a model is returned, it can be rendered without breaking an invariant.
-/

set_option autoImplicit false

namespace TypedApi.Conversion

open Build

variable {m : Model}

/-! ## Sections -/

/-- Entries that are stored under different paths are stored one after the other. -/
theorem forM_blames_of_paths {f : Document × Document → Build PUnit}
    {path : Document × Document → String} {entries : List (Document × Document)}
    (hf : ∀ e ∈ entries, ∀ m', m'.Free (path e) → Blames m' (f e))
    (htouches : ∀ e, Keeps (Model.Touches (· = path e)) (f e))
    (hdistinct : (entries.map path).Nodup) (hfree : ∀ e ∈ entries, m.Free (path e)) :
    Blames m (entries.forM f) := by
  refine .forM (P := fun e m' => m'.Free (path e)) hf ?_ hfree
  refine (List.pairwise_map.mp hdistinct).imp fun {a b} hne m₁ m₂ hleaves hb => ?_
  -- the path of a later entry is not the one that this entry has touched
  refine Table.get?_eq_none_iff.mpr fun hmem => ?_
  rcases ((htouches a).of_leaves hleaves).mem_paths hmem with hold | heq
  · exact Table.get?_eq_none_iff.mp hb hold
  · exact hne heq.symm

/-- What a loop over a section registers has a property that the paths of its entries have. -/
theorem forM_touches {f : Document × Document → Build PUnit}
    {path : Document × Document → String} {P : String → Prop}
    (htouches : ∀ e, Keeps (Model.Touches (· = path e)) (f e)) (hP : ∀ e, P (path e))
    (entries : List (Document × Document)) : Keeps (Model.Touches P) (entries.forM f) :=
  .forM fun e _ => (htouches e).mono fun _ _ => Model.Touches.mono fun p (hp : p = path e) => hp ▸ hP e

/-- Distinct texts as keys give distinct paths. -/
theorem nodup_paths {fields : List (Document × Document)}
    (h : Document.areTextKeyed fields = true) (beginning : String) :
    (fields.map fun e => beginning ++ e.1.display).Nodup := by
  have hkeys := h
  rw [Document.areTextKeyed, Bool.and_eq_true, decide_eq_true_iff] at hkeys
  refine List.pairwise_map.mpr ?_
  refine (List.pairwise_map.mp hkeys.2).imp_of_mem fun {a b} ha hb hne heq => hne ?_
  obtain ⟨s, hs⟩ := Document.exists_text_of_areTextKeyed h ha
  obtain ⟨t, ht⟩ := Document.exists_text_of_areTextKeyed h hb
  rw [hs, ht] at heq ⊢
  exact congrArg some (String.append_right_inj beginning |>.mp heq)

theorem reads_section? (components : Document) (key : String) : Reads (section? components key) :=
  .bind (.field _ _) fun _ => .require _

/-- The entries of a section have text keys if the document has. -/
theorem areTextKeyed_of_section? {components : Document} {key : String}
    {fields : List (Document × Document)} (h : components.hasTextKeys = true)
    (hfields : Answers (section? components key) fields) :
    Document.areTextKeyed fields = true := by
  obtain ⟨w, w', hexec⟩ := hfields
  obtain ⟨content, u, hread, hexec⟩ := of_exec_bind_ok hexec
  rw [field, exec_require] at hread
  cases hget : components.get? key with
  | none =>
    rw [hget] at hread
    cases hread
  | some value =>
    rw [hget] at hread
    cases hread
    have hvalue : (content.orElse (.object [])).hasTextKeys = true :=
      Document.hasTextKeys_orElse (Document.hasTextKeys_of_get? h hget) (by decide)
    rw [exec_require] at hexec
    cases hsome : (content.orElse (.object [])).fields? with
    | none =>
      rw [hsome] at hexec
      cases hexec
    | some entries =>
      rw [hsome] at hexec
      cases hexec
      exact Document.areTextKeyed_of_fields? hvalue hsome

/-! ## The shared components -/

theorem publish_blames (r : Ref) : Blames m (publish r) :=
  .modifyItem r _

/-- A shared schema is added if the path of its key is free. -/
theorem insertSchema_blames {key : String} (schema : Document)
    (h : m.Free ("#/components/schemas/" ++ key)) :
    Blames m (insertSchema (.text key, schema)) := by
  refine .bind ?_ fun r _ _ => publish_blames r
  show Blames m (addSchema (.text key) schema)
  refine .skip_answer (.require _) fun specName hname => ?_
  obtain ⟨_, _, hname⟩ := hname
  cases hname
  have hpath : ∀ p, some ("#/components/schemas/" ++ key) = some p → m.Free p := by
    rintro _ ⟨⟩
    exact h
  refine .ite (fun _ => Schema.addInline_blames _ _ _ _ _ hpath) fun _ => ?_
  refine .skip (.require _) fun target => .ite (fun _ => ?_) fun _ => ?_
  · exact .skip (.note _) fun _ => .addScalar hpath
  · refine .bind (Schema.convert_blames ..) fun inner m' hinner => .skip (.textOrNull _) fun docs => ?_
    have hgrows : m.Grows m' := (Schema.convert_grows ..).of_leaves hinner
    exact .addItem fun p hp => hgrows.samePaths.free (hpath p hp)

theorem insertParameter_blames (entry : Document × Document)
    (h : m.Free ("#/components/parameters/" ++ entry.1.display)) :
    Blames m (insertParameter entry) :=
  .bind (Operation.insertComponentParameter_blames _ h) fun r _ _ => publish_blames r

theorem insertBody_blames (entry : Document × Document)
    (h : m.Free ("#/components/requestBodies/" ++ entry.1.display)) :
    Blames m (insertBody entry) := by
  obtain ⟨key, body⟩ := entry
  refine .skip (.require _) fun _ => ?_
  split
  · exact .skip (Blames.namedBy _) fun r => .registerFree h
  · refine .skip (.require _) fun specName => ?_
    refine .bind (Operation.createBody_blames _ _ (by rintro _ ⟨⟩; exact h)) fun r _ _ => ?_
    exact .bind (publish_blames r) fun _ _ _ => .modifyItem r _

theorem insertResponse_blames (document : Document) (entry : Document × Document) :
    Blames m (insertResponse document entry) := by
  obtain ⟨key, response⟩ := entry
  have hshare : ∀ variants m', Blames m' (modifyModel fun m =>
      m.withShared ("#/components/responses/" ++ key.display) variants) := by
    intro variants m'
    constructor
    rintro hopen w rfl
    exact ⟨.ok (), hopen⟩
  refine .skip (.require _) fun _ => ?_
  split
  · exact .skip (Operation.reads_cachedVariantsBy _) fun variants => hshare variants m
  · exact .skip (.require _) fun _ =>
      .bind (Operation.createVariants_blames ..) fun variants m' _ => hshare variants m'

theorem insertHeader_blames (document : Document) (entry : Document × Document) :
    Blames m (insertHeader document entry) :=
  .bind (Operation.insertComponentHeader_blames ..) fun _ _ _ => .pure ()

/-! ## The whole document -/

/-- Paths of one section are free where only another section has been stored. -/
theorem free_of_touches {m' : Model} {P : String → Prop} {path : String} (h : m.Touches P m')
    (hfree : m.Free path) (hpath : ¬P path) : m'.Free path := by
  refine Table.get?_eq_none_iff.mpr fun hmem => ?_
  rcases h.mem_paths hmem with hold | htouched
  · exact Table.get?_eq_none_iff.mp hfree hold
  · exact hpath htouched

/-- **Constructing a model fails only over the document**, if its objects have texts as keys and
nothing has been stored before. -/
theorem construct_blames {document : Document} (hkeys : document.hasTextKeys = true)
    (hempty : m.namedReferences = []) : Blames m (construct document) := by
  have hnone : ∀ path, m.Free path := fun path => by rw [Model.Free, hempty]; rfl
  refine .skip_answer (.field _ _) fun components hcomponents => ?_
  have htext : (components.orElse (.object [])).hasTextKeys = true := by
    obtain ⟨w, w', hread⟩ := hcomponents
    rw [field, exec_require] at hread
    cases hget : document.get? "components" with
    | none =>
      rw [hget] at hread
      cases hread
    | some value =>
      rw [hget] at hread
      cases hread
      exact Document.hasTextKeys_orElse (Document.hasTextKeys_of_get? hkeys hget) (by decide)
  -- the shared schemas come first, when no path is taken
  refine .skip_answer (reads_section? _ _) fun schemas hschemas => ?_
  have hschemas := areTextKeyed_of_section? htext hschemas
  refine .bind (forM_blames_of_paths (fun e he m' hfree => ?_) insertSchema_touches
    (nodup_paths hschemas _) fun e _ => hnone _) fun _ m₁ h₁ => ?_
  · obtain ⟨key, schema⟩ := e
    obtain ⟨name, rfl⟩ := Document.exists_text_of_areTextKeyed hschemas he
    exact insertSchema_blames schema hfree
  have htouches₁ : m.Touches (fun p => ∃ name, p = "#/components/schemas/" ++ name) m₁ :=
    (forM_touches insertSchema_touches (fun _ => ⟨_, rfl⟩) schemas).of_leaves h₁
  refine .skip (.note _) fun _ => ?_
  refine .skip_answer (reads_section? _ _) fun parameters hparameters => ?_
  have hparameters := areTextKeyed_of_section? htext hparameters
  refine .bind (forM_blames_of_paths (fun e _ _ => insertParameter_blames e) insertParameter_touches
    (nodup_paths hparameters _) fun e _ => ?_) fun _ m₂ h₂ => ?_
  · refine free_of_touches htouches₁ (hnone _) ?_
    rintro ⟨name, heq⟩
    exact append_ne_append (by decide) (by decide) heq
  have htouches₂ : m₁.Touches (fun p => ∃ name, p = "#/components/parameters/" ++ name) m₂ :=
    (forM_touches insertParameter_touches (fun _ => ⟨_, rfl⟩) parameters).of_leaves h₂
  refine .skip_answer (reads_section? _ _) fun bodies hbodies => ?_
  have hbodies := areTextKeyed_of_section? htext hbodies
  refine .bind (forM_blames_of_paths (fun e _ _ => insertBody_blames e) insertBody_touches
    (nodup_paths hbodies _) fun e _ => ?_) fun _ m₃ _ => ?_
  · refine free_of_touches htouches₂ (free_of_touches htouches₁ (hnone _) ?_) ?_
    · rintro ⟨name, heq⟩
      exact append_ne_append (by decide) (by decide) heq
    · rintro ⟨name, heq⟩
      exact append_ne_append (by decide) (by decide) heq
  -- responses are kept in a table of their own, and headers look before they register
  refine .skip (reads_section? _ _) fun responses => ?_
  refine .bind (Operation.forM_blames fun _ _ => insertResponse_blames ..) fun _ _ _ => ?_
  refine .skip (reads_section? _ _) fun headers => ?_
  refine .bind (Operation.forM_blames fun _ _ => insertHeader_blames ..) fun _ _ _ => ?_
  refine .bind (Operation.insertAll_blames _) fun _ _ _ => .model ?_
  exact .skip (.note _) fun _ => .pure ()

/-- A conversion that fails has failed to construct a model, or to finish the one that it has
constructed. -/
theorem of_run_eq_error {document : Document} {options : ConversionOptions}
    {docs : Option Docs.Fetcher} {e : Failure} (h : (run document options docs).1 = .error e) :
    (exec (construct document) (start options docs)).1 = .error e ∨
      (exec finish (exec (construct document) (start options docs)).2).1 = .error e := by
  have hrun : (run document options docs).1 =
      (exec (build document) (start options docs)).1.map
        fun _ => (exec (build document) (start options docs)).2.model := rfl
  rw [hrun, build_eq] at h
  rcases hconstruct : exec (construct document) (start options docs) with ⟨e' | _, w⟩
  · rw [exec_bind_error hconstruct] at h
    cases h
    exact .inl rfl
  · rw [exec_bind_ok hconstruct] at h
    rcases hfinish : exec finish w with ⟨e' | _, w'⟩
    · rw [hfinish] at h
      cases h
      exact .inr rfl
    · rw [hfinish] at h
      cases h

/-- **A conversion fails only over the document.** If all objects of a document have texts as keys,
then a conversion of it that fails does so over an unknown reference, the shape of a schema, a
schema without an item, or an operation, or the document or an address in it is malformed. So it
never fails over a broken invariant, a path given twice, a model that is finished already or a
document that cannot be read. Rendering a model that it returns breaks no invariant either. -/
theorem run_blames_document (document : Document) (options : ConversionOptions)
    (docs : Option Docs.Fetcher) (hkeys : document.hasTextKeys = true) :
    (∀ e, (run document options docs).1 = .error e →
      e.problem.kind ∈ [.unknownReference, .shape, .schema, .operation, .unknownVerb,
        .unsupportedLocation, .malformedContent] ∨
      e.problem.kind = .malformed ∨ e.problem.kind = .unusableAddress) ∧
    ∀ m, (run document options docs).1 = .ok m →
      ∀ emitDocs e, Bindings.ofModel m emitDocs = .error e → e.problem.kind ≠ .invariant := by
  refine ⟨fun e he => ?_, fun m hm emitDocs => ?_⟩
  · have hover : e.OverDocument := by
      rcases of_run_eq_error he with hconstruct | hfinish
      · exact ((construct_blames hkeys rfl).runs rfl _ rfl).1 e hconstruct
      -- what has been constructed can be finished, unless a reference leads nowhere
      · have hpending := pending_construct document options docs
        obtain ⟨reference, rfl⟩ := unknown_of_exec_finish hpending hfinish
        rfl
    rw [Failure.OverDocument] at hover
    generalize e.problem.kind = kind at hover ⊢
    revert hover
    cases kind <;> decide
  · obtain ⟨p, hpending, hfinish⟩ := finished_of_run hm
    exact Bindings.failsOnly_ofModel emitDocs (hpending.closed_of_finish_eq hfinish).presentable

/-- Two shared headers, the first a reference to the second, and two shared responses, of which one
needs the first header and the other is a reference to that response. -/
def sharedHeaders : Document :=
  let reference := fun (path : String) => Document.object [(.text "$ref", .text path)]
  let limit : Document := .object
    [(.text "schema", .object [(.text "type", .text "integer")])]
  let limited : Document := .object
    [(.text "description", .text "Limited"),
      (.text "headers", .object [(.text "X-Limit", reference "#/components/headers/Alias")])]
  .object
    [(.text "components", .object
      [(.text "responses", .object
        [(.text "Limited", limited), (.text "Same", reference "#/components/responses/Limited")]),
        (.text "headers", .object
          [(.text "Alias", reference "#/components/headers/Limit"), (.text "Limit", limit)])]),
      (.text "paths", .object [(.text "/items", .object
        [(.text "get", .object [(.text "responses", .object
          [(.text "200", reference "#/components/responses/Limited"),
            (.text "404", reference "#/components/responses/Same")])])])])]

/-- Headers that a response has needed first are not stored again, and variants that two operations
share are named apart: the document is converted, with one item for both headers. -/
theorem run_sharedHeaders :
    sharedHeaders.hasTextKeys = true ∧
    ∃ m, (run sharedHeaders {} none).1 = .ok m ∧
      m.namedReferences =
        [("#/components/headers/Limit", 1), ("#/components/headers/Alias", 1)] ∧
      ∀ emitDocs e, Bindings.ofModel m emitDocs = .error e → e.problem.kind ≠ .invariant := by
  have hkeys : sharedHeaders.hasTextKeys = true := by decide
  have hrun : (run sharedHeaders {} none).1.toOption.map Model.namedReferences =
      some [("#/components/headers/Limit", 1), ("#/components/headers/Alias", 1)] := by
    decide +kernel
  cases hm : (run sharedHeaders {} none).1 with
  | error e =>
    rw [hm] at hrun
    cases hrun
  | ok m =>
    rw [hm] at hrun
    exact ⟨hkeys, m, rfl, Option.some.inj hrun,
      (run_blames_document sharedHeaders {} none hkeys).2 m hm⟩

end TypedApi.Conversion
