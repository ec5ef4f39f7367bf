import TypedApi.Proofs.Conversion.Steps
import TypedApi.Proofs.Document.Pointer
import TypedApi.Proofs.Graph.Finish
import TypedApi.Proofs.Schema.Grows
/-!
The stages of a conversion.

A conversion that returns a model has lowered the shared schemas one after the
other, then everything else, and then finished what it had constructed. The
lemmas here take such a run apart at an entry of the shared schemas, and say
what is kept from there on: a path that is registered leads to the same item
ever after, on the finished model too.
-/

set_option autoImplicit false

/-! # A converted model is closed

While a model is constructed, every reference in it is the index of an item
that is there or the path of one that may come later, and no variant has a
name. Finishing such a model fails unless every path is registered, so a model
that a conversion returns refers to nothing but its own items, and each of its
variants has a name that a generated module can use.
-/

namespace TypedApi

open Build

/-! ## Under construction -/

/-- What a construction promises: no reference is resolved yet, an index is that of an item, and no
variant has a name. -/
def Standard.pending : Standard where
  ref n r := r.isResolved = false ∧ ∀ index, r.index? = some index → 0 ≤ index ∧ index < n
  variant v := v.name = .unnamed
  ref_mono := by
    intro n k r hle h
    refine ⟨h.1, fun index hindex => ?_⟩
    have := h.2 index hindex
    omega
  ref_back := by
    intro n i hi
    refine ⟨rfl, fun index hindex => ?_⟩
    cases hindex
    omega
  ref_forward := ⟨rfl, fun index hindex => by cases hindex⟩
  variant_unnamed := id

/-- No step of a build finishes the model. -/
theorem Step.finalized_eq {S : Standard} {m m' : Model} (h : Step S m m') :
    m'.finalized = m.finalized := by
  cases h <;> rfl

/-- No number of steps finishes the model. -/
theorem Steps.finalized_eq {S : Standard} {m m' : Model} (h : Steps S m m') :
    m'.finalized = m.finalized := by
  induction h with
  | refl => rfl
  | tail _ step ih => exact step.finalized_eq.trans ih

/-- A model that keeps the promises of a construction can still be finished. -/
theorem Standard.Sound.pending {m : Model} (h : Standard.pending.Sound m)
    (hopen : m.finalized = false) : m.Pending := by
  refine ⟨hopen, fun v hv => ?_, fun p hp => (h.registered p hp).2 p.2 rfl⟩
  rcases Model.mem_variants.mp hv with ⟨item, hitem, hv⟩ | ⟨p, hp, hv⟩
  · obtain ⟨i, hi⟩ := List.mem_iff_getElem?.mp hitem
    exact (h.definitions i item hi).variants v hv
  · exact (h.shared p hp v hv).variant

namespace Conversion

/-- **The model of a construction can still be finished**, whether the construction answers or
fails. -/
theorem pending_construct (document : Document) (options : ConversionOptions)
    (docs : Option Docs.Fetcher) :
    (exec (construct document) (start options docs)).2.model.Pending := by
  -- an empty model breaks no promise, and neither does a step
  have hempty : Standard.pending.Sound (start options docs).model := Standard.sound_empty _
  have hsteps := ((construct_along document).runs hempty _ rfl).1
  exact (sound_construct document hempty).pending hsteps.finalized_eq

end Conversion

/-! ## Closed models -/

/-- A model that stands on its own: it is finished, it refers to nothing but its own items, and all
of its variants have usable names. -/
structure Model.Closed (m : Model) : Prop where
  finalized : m.finalized = true
  resolved : ∀ r ∈ m.refs, ∃ index, r = .resolved index ∧ 0 ≤ index ∧ index < m.size
  accepted : m.acceptHeader = none
  presentable : ∀ v ∈ m.variants, v.Presentable

/-- A pending model that is finished without failure is closed. -/
theorem Model.Pending.closed_finish {m : Model} (h : m.Pending) (hnone : m.finish.2 = none) :
    m.finish.1.Closed := by
  rcases Model.finish_cases h.unfinished with ⟨e, hfinish, _⟩ | ⟨hfinish, hrefs⟩
  · rw [hfinish] at hnone
    cases hnone
  · rw [hfinish] at hnone ⊢
    -- naming keeps everything but the names, so all but the names can be read off before it
    have hsame := Model.unnamed_nameAll m.settled
    have hsize := congrArg Model.size hsame
    have hslots := congrArg Model.refs hsame
    rw [Model.size_unnamed, Model.size_unnamed] at hsize
    rw [Model.refs_unnamed, Model.refs_unnamed] at hslots
    have hkept : m.settled.size = m.size := Model.size_relocate _ _
    refine ⟨congrArg Model.finalized hsame, fun r hr => ?_, congrArg Model.acceptHeader hsame,
      Model.presentable_nameAll hnone⟩
    rw [hslots] at hr
    rw [hsize, hkept]
    exact Model.settled_refs hrefs h.registered r hr

theorem Model.Pending.closed_of_finish_eq {m m' : Model} (h : m.Pending)
    (hfinish : m.finish = (m', none)) : m'.Closed := by
  have hclosed := h.closed_finish (by rw [hfinish])
  rwa [hfinish] at hclosed

namespace Conversion

/-- **A model that a conversion returns is closed.** -/
theorem closed_of_run {document : Document} {options : ConversionOptions}
    {docs : Option Docs.Fetcher} {m : Model} (h : (run document options docs).1 = .ok m) :
    m.Closed := by
  have hrun : (run document options docs).1 =
      (exec (build document) (start options docs)).1.map
        fun _ => (exec (build document) (start options docs)).2.model := rfl
  rw [hrun] at h
  rcases hbuild : exec (build document) (start options docs) with ⟨_ | u, w⟩
  · rw [hbuild] at h
    cases h
  · rw [hbuild] at h
    cases h
    rw [build_eq] at hbuild
    -- a conversion that returns a model has constructed one and then finished it
    obtain ⟨_, w₁, hconstruct, hfinish⟩ := of_exec_bind_ok hbuild
    have hpending := pending_construct document options docs
    rw [hconstruct] at hpending
    rw [exec_finish] at hfinish
    cases hnone : w₁.model.finish.2 with
    | some e =>
      rw [hnone] at hfinish
      cases hfinish
    | none =>
      rw [hnone] at hfinish
      cases hfinish
      exact hpending.closed_finish hnone

/-- A document with a recursive schema, a union inside it, and an operation that returns it. -/
def treeDocument : Document :=
  let node : Document := .object [(.text "$ref", .text "#/components/schemas/Node")]
  let leaf : Document := .object
    [(.text "oneOf", .array [.object [(.text "type", .text "string")]])]
  let schema : Document := .object
    [(.text "type", .text "object"),
      (.text "properties", .object [(.text "next", node), (.text "leaf", leaf)])]
  let content : Document := .object [(.text "application/json", .object [(.text "schema", node)])]
  let responses : Document := .object [(.text "200", .object [(.text "content", content)])]
  .object
    [(.text "components", .object [(.text "schemas", .object [(.text "Node", schema)])]),
      (.text "paths", .object
        [(.text "/nodes", .object [(.text "get", .object [(.text "responses", responses)])])])]

set_option maxRecDepth 4000 in
/-- The model of a recursive document is closed, and it has four items. -/
theorem closed_treeDocument :
    ∃ m, (run treeDocument {} none).1 = .ok m ∧ m.size = 4 ∧ m.Closed := by
  obtain ⟨m, hm, hsize⟩ : ∃ m, (run treeDocument {} none).1 = .ok m ∧ m.size = 4 := ⟨_, rfl, rfl⟩
  exact ⟨m, hm, hsize, closed_of_run hm⟩

end Conversion

end TypedApi

/-! # Stages of a run -/

namespace TypedApi

open Build

/-! ## Registered paths -/

variable {S : Standard} {m m' : Model}

/-- A step keeps every registered path with its index. -/
theorem Step.get?_namedReferences (h : Step S m m') {path : String} {index : Int}
    (hpath : m.namedReferences.get? path = some index) :
    m'.namedReferences.get? path = some index := by
  cases h with
  | add item path' _ _ _ _ hfree _ =>
    cases path' with
    | none => exact hpath
    | some p =>
      have hne : path ≠ p := by
        rintro rfl
        rw [hfree _ rfl] at hpath
        cases hpath
      exact (Table.get?_insert_of_ne _ _ hne).trans hpath
  | register p i _ hold _ =>
    by_cases heq : path = p
    · subst heq
      rw [hold index hpath]
      exact Table.get?_insert_self _ _ _
    · exact (Table.get?_insert_of_ne _ _ heq).trans hpath
  | change | operate | share | accept => exact hpath

/-- Steps keep every registered path with its index. -/
theorem Steps.get?_namedReferences (h : Steps S m m') {path : String} {index : Int}
    (hpath : m.namedReferences.get? path = some index) :
    m'.namedReferences.get? path = some index := by
  induction h with
  | refl => exact hpath
  | tail _ step ih => exact step.get?_namedReferences ih

/-- A reference leads to the same index after the model has been finished. -/
theorem Model.indexOf_finish (hopen : m.finalized = false) (r : Ref) :
    m.finish.1.indexOf r = m.indexOf r := by
  rcases Model.finish_cases hopen with ⟨e, hfinish, _⟩ | ⟨hfinish, _⟩
  · rw [hfinish]
  · rw [hfinish]
    have hsame := Model.unnamed_nameAll m.settled
    -- finishing keeps the paths and the count of items, and nothing else decides an index
    have hpaths : m.settled.nameAll.1.namedReferences = m.namedReferences := by
      have h := congrArg Model.namedReferences hsame
      exact h
    have hsize : m.settled.nameAll.1.size = m.size := by
      have h := congrArg Model.size hsame
      rw [Model.size_unnamed, Model.size_unnamed] at h
      exact h.trans (Model.size_relocate _ _)
    cases r <;> simp only [Model.indexOf, Model.inRange, hpaths, hsize] <;> rfl

namespace Conversion

/-! ## The run of a conversion -/

/-- A shared schema that is added: some items without paths, then one under its own path. -/
theorem of_addSchema {key : String} {schema : Document} {w w' : Workbench} {r : Ref}
    (h : exec (addSchema (.text key) schema) w = (.ok r, w')) :
    ∃ item u, w.model.Grows u.model ∧
      exec (addItem item (some (schemaPath key))) u = (.ok r, w') := by
  have hname : exec (require (Document.text key).text?) w = (.ok key, w) := rfl
  rw [addSchema, exec_bind_ok hname] at h
  dsimp only at h
  split at h
  · obtain ⟨item, u, hlower, hadd⟩ := of_exec_bind_ok h
    exact ⟨item, u, (Schema.lower_grows ..).of_exec hlower, hadd⟩
  · obtain ⟨target, u, htarget, h⟩ := of_exec_bind_ok h
    have hstart : w.model.Grows u.model := (Keeps.still (.require _)).of_exec htarget
    split at h
    · obtain ⟨_, u', hnote, h⟩ := of_exec_bind_ok h
      exact ⟨_, u', hstart.trans ((Keeps.still (.note _)).of_exec hnote), h⟩
    · obtain ⟨inner, u', hinner, h⟩ := of_exec_bind_ok h
      obtain ⟨docs, u'', hdocs, h⟩ := of_exec_bind_ok h
      have hinner' := (Schema.convert_grows ..).of_exec hinner
      exact ⟨_, u'', (hstart.trans hinner').trans ((Keeps.still (.textOrNull _)).of_exec hdocs), h⟩

/-- **A conversion returns a model exactly if the construction answers and what it constructed can be
finished.** -/
theorem run_eq_ok_iff {document : Document} {options : ConversionOptions}
    {docs : Option Docs.Fetcher} {m : Model} :
    (run document options docs).1 = .ok m ↔
      ∃ w, exec (construct document) (start options docs) = (.ok (), w) ∧
        w.model.finish = (m, none) := by
  have hrun : (run document options docs).1 =
      (exec (build document) (start options docs)).1.map
        fun _ => (exec (build document) (start options docs)).2.model := rfl
  rw [hrun, build_eq]
  rcases hconstruct : exec (construct document) (start options docs) with ⟨_ | u, w⟩
  · rw [exec_bind_error hconstruct]
    simp [Except.map]
  · rw [exec_bind_ok hconstruct, exec_finish]
    rcases hfinish : w.model.finish with ⟨m', _ | e⟩
    · simp [Except.map, hfinish]
    · simp [Except.map, hfinish]

/-- What a conversion returns is a pending model that could be finished. -/
theorem finished_of_run {document : Document} {options : ConversionOptions}
    {docs : Option Docs.Fetcher} {m : Model} (h : (run document options docs).1 = .ok m) :
    ∃ p : Model, p.Pending ∧ p.finish = (m, none) := by
  obtain ⟨w, hconstruct, hfinish⟩ := run_eq_ok_iff.mp h
  have hpending := pending_construct document options docs
  rw [hconstruct] at hpending
  exact ⟨w.model, hpending, hfinish⟩

/-- The fields of one section of the components, if the document has the form for it. -/
def sectionOf? (document : Document) (key : String) : Option (List (Document × Document)) := do
  let components ← document.get? "components"
  ((← (components.orElse (.object [])).get? key).orElse (.object [])).fields?

/-- A section that has fields is found in the components of the document. -/
theorem find?_of_sectionOf? {document : Document} {key : String}
    {fields : List (Document × Document)} (h : sectionOf? document key = some fields)
    (hne : fields ≠ []) :
    ∃ components, document.find? "components" = some components ∧
      components.find? key = some (.object fields) := by
  rw [sectionOf?, Option.bind_eq_bind, Option.bind_eq_some_iff] at h
  obtain ⟨components, hcomponents, h⟩ := h
  obtain ⟨content, hcontent, hfields⟩ := Option.bind_eq_some_iff.mp h
  obtain ⟨hfind, rfl⟩ := Document.find?_of_get?_orElse hcontent hfields hne
  -- the components have the section, so they are an object with fields themselves
  cases hobject : components.orElse (.object []) with
  | object entries =>
    rw [hobject] at hfind
    have hentries : entries ≠ [] := by
      rintro rfl
      cases hfind
    obtain ⟨hcomp, rfl⟩ := Document.find?_of_get?_orElse hcomponents (by rw [hobject]; rfl) hentries
    exact ⟨_, hcomp, hfind⟩
  | _ =>
    rw [hobject] at hfind
    cases hfind

/-- The fields of a section that is found in the components of the document. -/
theorem sectionOf?_of_find? {document components : Document} {key : String}
    {fields : List (Document × Document)} (hcomponents : document.find? "components" = some components)
    (hsection : components.find? key = some (.object fields)) :
    sectionOf? document key = some fields := by
  rw [sectionOf?, Document.get?_of_find? hcomponents, Option.bind_eq_bind, Option.bind_some,
    Document.orElse_of_find? hsection, Document.get?_of_find? hsection, Option.bind_some,
    Document.orElse_object]
  rfl

/-- Reading a section of the components of a document. -/
theorem exec_section? {document components : Document}
    (hcomponents : document.get? "components" = some components) (key : String) (w : Workbench) :
    exec (section? (components.orElse (.object [])) key) w =
      (orMalformed (sectionOf? document key), w) := by
  rw [section?, sectionOf?, hcomponents, exec_bind, field, exec_require]
  cases hget : (components.orElse (.object [])).get? key with
  | none => simp [orMalformed, hget]
  | some content => simp [orMalformed, hget]

/-- What goes on from a section has read it, and starts where the reading did. -/
theorem of_exec_bind_section? {β : Type} {document components : Document} {key : String}
    {f : List (Document × Document) → Build β} {w w' : Workbench} {b : β}
    (hcomponents : document.get? "components" = some components)
    (h : exec (section? (components.orElse (.object [])) key >>= f) w = (.ok b, w')) :
    ∃ fields, sectionOf? document key = some fields ∧ exec (f fields) w = (.ok b, w') := by
  rw [exec_bind, exec_section? hcomponents] at h
  cases hsection : sectionOf? document key with
  | none =>
    rw [hsection] at h
    cases h
  | some fields =>
    rw [hsection] at h
    exact ⟨fields, rfl, h⟩

/-- A document that has a section has components. -/
theorem exists_components {document : Document} {key : String}
    {fields : List (Document × Document)} (h : sectionOf? document key = some fields) :
    ∃ components, document.get? "components" = some components := by
  rw [sectionOf?, Option.bind_eq_bind, Option.bind_eq_some_iff] at h
  obtain ⟨components, hcomponents, _⟩ := h
  exact ⟨components, hcomponents⟩

/-- A construction lowers the shared schemas and goes on from there. -/
theorem exec_construct {document components : Document} {schemas : List (Document × Document)}
    (hcomponents : document.get? "components" = some components)
    (hschemas : sectionOf? document "schemas" = some schemas) (w : Workbench) :
    exec (construct document) w =
      exec (schemas.forM insertSchema >>= fun _ =>
        afterSchemas document (components.orElse (.object [])) schemas.length) w := by
  have hread : exec (field document "components") w = (.ok components, w) := by
    rw [field, exec_require, hcomponents]
    rfl
  have hentries := exec_section? hcomponents "schemas" w
  rw [hschemas] at hentries
  rw [construct, exec_bind_ok hread, exec_bind_ok hentries]
  rfl

/-- **The stages of a construction that answers**: the schemas on what it started with, then the
parameters, the request bodies, the responses, the headers and the operations, each on what the
stage before has left. -/
theorem exists_all_stages {document : Document} {w w' : Workbench}
    (hrun : exec (construct document) w = (.ok (), w')) :
    ∃ schemas parameters bodies responses headers u₁ v₁ u₂ u₃ u₄ u₅ u₆,
      (sectionOf? document "schemas" = some schemas ∧
        exec (schemas.forM insertSchema) w = (.ok (), u₁) ∧ v₁.model = u₁.model) ∧
      (sectionOf? document "parameters" = some parameters ∧
        exec (parameters.forM insertParameter) v₁ = (.ok (), u₂)) ∧
      (sectionOf? document "requestBodies" = some bodies ∧
        exec (bodies.forM insertBody) u₂ = (.ok (), u₃)) ∧
      (sectionOf? document "responses" = some responses ∧
        exec (responses.forM (insertResponse document)) u₃ = (.ok (), u₄)) ∧
      (sectionOf? document "headers" = some headers ∧
        exec (headers.forM (insertHeader document)) u₄ = (.ok (), u₅)) ∧
      exec (Operation.insertAll document) u₅ = (.ok (), u₆) ∧ w'.model = u₆.model := by
  rw [construct, field, exec_bind, exec_require] at hrun
  cases hcomponents : document.get? "components" with
  | none =>
    rw [hcomponents] at hrun
    cases hrun
  | some components =>
    rw [hcomponents] at hrun
    obtain ⟨schemas, hschemas, h⟩ := of_exec_bind_section? hcomponents hrun
    obtain ⟨_, u₁, hloop₁, h⟩ := of_exec_bind_ok h
    -- the remarks between the stages and after the last one leave the model alone
    obtain ⟨_, v₁, _, hsame, h⟩ := of_exec_bind_still (.note _) h
    obtain ⟨parameters, hparameters, h⟩ := of_exec_bind_section? hcomponents h
    obtain ⟨_, u₂, hloop₂, h⟩ := of_exec_bind_ok h
    obtain ⟨bodies, hbodies, h⟩ := of_exec_bind_section? hcomponents h
    obtain ⟨_, u₃, hloop₃, h⟩ := of_exec_bind_ok h
    obtain ⟨responses, hresponses, h⟩ := of_exec_bind_section? hcomponents h
    obtain ⟨_, u₄, hloop₄, h⟩ := of_exec_bind_ok h
    obtain ⟨headers, hheaders, h⟩ := of_exec_bind_section? hcomponents h
    obtain ⟨_, u₅, hloop₅, h⟩ := of_exec_bind_ok h
    obtain ⟨_, u₆, hloop₆, h⟩ := of_exec_bind_ok h
    rw [exec_bind_model] at h
    have hlast := (Still.note (.built u₆.model.operations.length u₆.model.size)).model_eq u₆
    rw [h] at hlast
    exact ⟨schemas, parameters, bodies, responses, headers, u₁, v₁, u₂, u₃, u₄, u₅, u₆,
      ⟨hschemas, hloop₁, hsame⟩, ⟨hparameters, hloop₂⟩, ⟨hbodies, hloop₃⟩, ⟨hresponses, hloop₄⟩,
      ⟨hheaders, hloop₅⟩, hloop₆, hlast⟩

/-- The stages up to the responses. -/
theorem exists_stages {document : Document} {w w' : Workbench}
    (hrun : exec (construct document) w = (.ok (), w')) :
    ∃ schemas parameters bodies responses u₁ v₁ u₂ u₃ u₄,
      (sectionOf? document "schemas" = some schemas ∧
        exec (schemas.forM insertSchema) w = (.ok (), u₁) ∧ v₁.model = u₁.model) ∧
      (sectionOf? document "parameters" = some parameters ∧
        exec (parameters.forM insertParameter) v₁ = (.ok (), u₂)) ∧
      (sectionOf? document "requestBodies" = some bodies ∧
        exec (bodies.forM insertBody) u₂ = (.ok (), u₃)) ∧
      sectionOf? document "responses" = some responses ∧
        exec (responses.forM (insertResponse document)) u₃ = (.ok (), u₄) := by
  obtain ⟨schemas, parameters, bodies, responses, _, u₁, v₁, u₂, u₃, u₄, _, _, hschemas,
    hparameters, hbodies, hresponses, _⟩ := exists_all_stages hrun
  exact ⟨schemas, parameters, bodies, responses, u₁, v₁, u₂, u₃, u₄, hschemas, hparameters, hbodies,
    hresponses⟩

end Conversion

end TypedApi
