import TypedApi.Proofs.Conversion.SchemaOrder
import TypedApi.Proofs.Graph.Isomorphic
/-!
Conversions of documents that differ in the order of their shared schemas.

The order of the shared schemas decides the numbers of items and the names that
are generated for them, and nothing else: both conversions fail, or both return
a model, and the two models are isomorphic. One kind of document is excepted.
If a path is a reference to the object of the shared schemas itself, the schemas
that are named like methods are its operations, and operations are made in the
order in which they are written.
-/

set_option autoImplicit false

namespace TypedApi.Conversion

open Build

variable {schemas schemas' : Table Document} {components components' d d' : Document}

/-! ## The construction -/

/-- A construction lowers the schemas that are found in the document and goes on from there. -/
theorem exec_construct_of_find? (hcomponents : d.find? "components" = some components)
    (hschemas : components.find? "schemas" = some (.object (Document.textFields schemas)))
    (w : Workbench) :
    exec (construct d) w =
      exec ((Document.textFields schemas).forM insertSchema >>= fun _ =>
        afterSchemas d components (Document.textFields schemas).length) w := by
  rw [exec_construct (Document.get?_of_find? hcomponents) (sectionOf?_of_find? hcomponents hschemas),
    Document.orElse_of_find? hschemas]

/-- **Models are constructed alike**: after the shared schemas, which are lowered in either order,
everything else is the same in both documents. -/
theorem construct_reordered
    (hd : Document.Reordered schemas schemas' components components' d d')
    (hapart : Operation.PathsApart d) (options : ConversionOptions) :
    SameUpToOrder (exec (construct d) (start options none))
      (exec (construct d') (start options none)) := by
  rw [exec_construct_of_find? hd.outer.find?_self.1 hd.inner.find?_self.1,
    exec_construct_of_find? hd.outer.find?_self.2 hd.inner.find?_self.2]
  obtain ⟨σ, hlevel⟩ := forM_insertSchema_perm hd.perm hd.distinct (staged_start options)
  exact ⟨σ, hlevel.bind fun _ _ _ =>
    afterSchemas_abreast (Tie.straight_ofPerm σ) hd hapart _ _⟩

/-! ## The conversion -/

/-- **The order of shared schemas does not matter.** If no path is a reference to the object of the
shared schemas itself, documents that differ in the order of these schemas are both converted or
both not, and the models are the same but for the numbers and names of their items. -/
theorem run_reordered
    (hd : Document.Reordered schemas schemas' components components' d d')
    (hapart : Operation.PathsApart d) (options : ConversionOptions) :
    ((∃ m, (run d options none).1 = .ok m) ↔ ∃ m', (run d' options none).1 = .ok m') ∧
      ∀ m m', (run d options none).1 = .ok m → (run d' options none).1 = .ok m' →
        ∃ σ, Model.Isomorphic σ m m' := by
  have hpending := pending_construct d options none
  have hpending' := pending_construct d' options none
  obtain ⟨σ, hlevel⟩ := construct_reordered hd hapart options
  simp only [run_eq_ok_iff]
  generalize exec (construct d) (start options none) = p at hlevel hpending ⊢
  generalize exec (construct d') (start options none) = q at hlevel hpending' ⊢
  cases hlevel with
  | fail e e' u v => simp
  | answer _ _ u v htied _ =>
    obtain ⟨hiff, hisomorphic⟩ := htied.models.isomorphic_finish hpending hpending'
    refine ⟨⟨?_, ?_⟩, ?_⟩
    · rintro ⟨m, _, hu, hm⟩
      cases hu
      exact ⟨_, v, rfl, Prod.ext rfl (hiff.mp (by rw [hm]))⟩
    · rintro ⟨m', _, hv, hm'⟩
      cases hv
      exact ⟨_, u, rfl, Prod.ext rfl (hiff.mpr (by rw [hm']))⟩
    · rintro m m' ⟨_, hu, hm⟩ ⟨_, hv, hm'⟩
      cases hu
      cases hv
      have hiso := hisomorphic (by rw [hm])
      rw [hm, hm'] at hiso
      exact ⟨σ, hiso⟩

/-! ## Schemas that refer to each other -/

/-- The components with these schemas. -/
def shelves (schemas : Table Document) : Document :=
  .object [(.text "schemas", .object (Document.textFields schemas))]

/-- A document with these schemas, and an operation that returns the one under the key for shelves. -/
def library (schemas : Table Document) : Document :=
  let shelf : Document := .object [(.text "$ref", .text "#/components/schemas/Shelf")]
  let content : Document := .object [(.text "application/json", .object [(.text "schema", shelf)])]
  let responses : Document := .object [(.text "200", .object [(.text "content", content)])]
  .object
    [(.text "components", shelves schemas),
      (.text "paths", .object
        [(.text "/shelf", .object [(.text "get", .object [(.text "responses", responses)])])])]

/-- A shelf of books. -/
def shelfSchema : Document :=
  .object
    [(.text "type", .text "array"),
      (.text "items", .object [(.text "$ref", .text "#/components/schemas/Book")])]

/-- A book knows its shelf. -/
def bookSchema : Document :=
  .object
    [(.text "type", .text "object"),
      (.text "properties", .object
        [(.text "shelf", .object [(.text "$ref", .text "#/components/schemas/Shelf")])])]

/-- Shelves before books. -/
def shelfFirst : Table Document :=
  [("Shelf", shelfSchema), ("Book", bookSchema)]

/-- Books before shelves. -/
def bookFirst : Table Document :=
  [("Book", bookSchema), ("Shelf", shelfSchema)]

set_option maxRecDepth 4000 in
/-- Shelves and books refer to each other, and either may come first. -/
theorem run_library_reordered :
    ∃ m m', (run (library shelfFirst) {} none).1 = .ok m ∧
      (run (library bookFirst) {} none).1 = .ok m' ∧
      m.namedReferences ≠ m'.namedReferences ∧ ∃ σ, Model.Isomorphic σ m m' := by
  have hd : Document.Reordered shelfFirst bookFirst (shelves shelfFirst) (shelves bookFirst)
      (library shelfFirst) (library bookFirst) :=
    ⟨.swap _ _ _, by decide, .intro [] [] rfl, .intro [] _ rfl⟩
  have hapart : Operation.PathsApart (library shelfFirst) := by
    intro paths entry links link hpaths hentry hchain hlast
    cases hpaths
    cases List.mem_singleton.mp hentry
    -- the one path is no reference
    cases hchain
    cases hlast
  obtain ⟨m, hm, hpath⟩ : ∃ m, (run (library shelfFirst) {} none).1 = .ok m ∧
      m.namedReferences.get? "#/components/schemas/Shelf" = some 0 := ⟨_, rfl, rfl⟩
  obtain ⟨m', hm', hpath'⟩ : ∃ m, (run (library bookFirst) {} none).1 = .ok m ∧
      m.namedReferences.get? "#/components/schemas/Shelf" = some 1 := ⟨_, rfl, rfl⟩
  refine ⟨m, m', hm, hm', fun heq => ?_, (run_reordered hd hapart {}).2 m m' hm hm'⟩
  rw [heq, hpath'] at hpath
  cases hpath

/-! ## A path that is the object of the shared schemas -/

/-- The reference to the schema of a shared header. -/
def headerSchema : Document :=
  .object [(.text "$ref", .text "#/components/headers/A/schema")]

/-- Components whose schemas, which are named like methods, read as operations. The schema of the
shared header reads as a parameter. -/
def methods (schemas : Table Document) : Document :=
  let schema : Document := .object
    [(.text "type", .text "string"), (.text "name", .text "p"), (.text "in", .text "query")]
  .object
    [(.text "schemas", .object (Document.textFields schemas)),
      (.text "headers", .object [(.text "A", .object [(.text "schema", schema)])])]

/-- A document with a path that is the object of its schemas. -/
def selfPath (schemas : Table Document) : Document :=
  .object
    [(.text "components", methods schemas),
      (.text "paths", .object
        [(.text "/x", .object [(.text "$ref", .text "#/components/schemas")])])]

/-- An operation with the schema of the shared header as a parameter. -/
def putSchema : Document :=
  .object [(.text "parameters", .array [headerSchema])]

/-- An operation that answers with the shared header. -/
def getSchema : Document :=
  .object
    [(.text "responses", .object
      [(.text "200", .object [(.text "headers", .object [(.text "H", headerSchema)])])])]

/-- The operation with the parameter comes first. -/
def putFirst : Table Document :=
  [("put", putSchema), ("get", getSchema)]

/-- The operation with the header comes first. -/
def getFirst : Table Document :=
  [("get", getSchema), ("put", putSchema)]

set_option maxRecDepth 4000 in
/-- **There the order of the schemas is the order of the operations.** The one with the header
registers the schema of the header, which the other one refers to: if the other one comes first, the
reference leads nowhere yet, and the conversion fails. -/
theorem selfPath_order_counts :
    Document.Reordered putFirst getFirst (methods putFirst) (methods getFirst) (selfPath putFirst)
        (selfPath getFirst) ∧
      (run (selfPath putFirst) {} none).1 =
        .error ⟨.unknownReference "#/components/headers/A/schema", none⟩ ∧
      ∃ m, (run (selfPath getFirst) {} none).1 = .ok m := by
  refine ⟨⟨.swap _ _ _, by decide, .intro [] _ rfl, .intro [] _ rfl⟩, rfl, ?_⟩
  have hok : (run (selfPath getFirst) {} none).1.isOk = true := by decide +kernel
  cases hrun : (run (selfPath getFirst) {} none).1 with
  | ok m => exact ⟨m, rfl⟩
  | error e =>
    rw [hrun] at hok
    cases hok

end TypedApi.Conversion
