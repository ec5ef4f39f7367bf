import TypedApi.Conversion
import TypedApi.Proofs.Operation.Steps
/-!
A conversion goes along with every standard.

A conversion constructs a model and then finishes it. The construction adds the
shared components and the operations of the document one after the other, and
each of them goes along with every standard, so what holds of an empty model
and is kept by every step holds of the model that is about to be finished.
-/

set_option autoImplicit false

namespace TypedApi.Conversion

open Build

variable {S : Standard} {m : Model}

/-! ## The construction -/

/-- A conversion up to the point where the model is finished. -/
def construct (document : Document) : Build Unit := do
  let components := (← field document "components").orElse (.object [])
  let schemas ← section? components "schemas"
  schemas.forM insertSchema
  note (.lowered schemas.length)
  (← section? components "parameters").forM insertParameter
  (← section? components "requestBodies").forM insertBody
  (← section? components "responses").forM (insertResponse document)
  (← section? components "headers").forM (insertHeader document)
  Operation.insertAll document
  let m ← model
  note (.built m.operations.length m.size)

/-- What a construction does after the shared schemas. -/
def afterSchemas (document components : Document) (count : Nat) : Build Unit := do
  note (.lowered count)
  (← section? components "parameters").forM insertParameter
  (← section? components "requestBodies").forM insertBody
  (← section? components "responses").forM (insertResponse document)
  (← section? components "headers").forM (insertHeader document)
  Operation.insertAll document
  let m ← model
  note (.built m.operations.length m.size)

/-- The path of a shared schema. -/
def schemaPath (key : String) : String :=
  "#/components/schemas/" ++ key

/-- The path of a shared schema is one of the document. -/
theorem isExternal_schemaPath (key : String) : WellKnown.isExternal (schemaPath key) = false := by
  have hchars : (schemaPath key).toList = "#/components/schemas/".toList ++ key.toList :=
    String.toList_append
  rw [WellKnown.isExternal, hchars]
  rfl

/-- A conversion is the construction of a model and the end of it. -/
theorem build_eq (document : Document) :
    build document = construct document >>= fun _ => finish := by
  simp only [build, construct, bind_assoc]

/-! ## The shared components -/

theorem steady_section? (components : Document) (key : String) :
    Steady (section? components key) :=
  .bind (.field _ _) fun _ => .require _

theorem publish_along (r : Ref) : Along S m (publish r) fun _ _ => True :=
  .modifyItem Operation.remark_pubTypedef

theorem addSchema_along (key schema : Document) :
    Along S m (addSchema key schema) fun r m' => S.Places m'.size r := by
  refine .skip (.require _) fun specName => .ite (fun _ => Schema.addInline_along ..) fun _ => ?_
  refine .skip (.require _) fun target => .ite (fun _ => .skip (.note _) fun _ => .addScalar)
    fun _ => ?_
  refine .bind (Schema.convert_along ..) fun inner m' _ hinner => ?_
  refine .skip (.textOrNull _) fun docs => ?_
  exact .addItem (Standard.fits_synonym hinner)

theorem insertSchema_along (entry : Document × Document) :
    Along S m (insertSchema entry) fun _ _ => True :=
  .bind (addSchema_along ..) fun _ _ _ _ => publish_along _

theorem insertParameter_along (entry : Document × Document) :
    Along S m (insertParameter entry) fun _ _ => True :=
  .bind (Operation.insertComponentParameter_along ..) fun _ _ _ _ => publish_along _

theorem insertBody_along (entry : Document × Document) :
    Along S m (insertBody entry) fun _ _ => True := by
  obtain ⟨key, body⟩ := entry
  refine .skip (.require _) fun _ => ?_
  split
  · exact .bind .namedBy fun r m' _ hr => .registerPath (Along.ref_of_places hr)
  · refine .skip (.require _) fun specName => ?_
    refine .bind (Operation.createBody_along ..) fun r m' _ _ => ?_
    exact .bind (publish_along _) fun _ _ _ _ => .modifyItem (Operation.remark_orDocs _)

/-- The model keeps variants that meet the standard. -/
theorem share_along {path : String} {variants : List Variant}
    (h : ∀ v ∈ variants, S.Admits m.size v) :
    Along S m (modifyModel fun m => m.withShared path variants) fun _ _ => True := by
  constructor
  rintro _ w rfl
  exact ⟨.single (.share _ path variants h), fun _ _ => trivial⟩

theorem insertResponse_along (document : Document) (entry : Document × Document) :
    Along S m (insertResponse document entry) fun _ _ => True := by
  obtain ⟨key, response⟩ := entry
  refine .skip (.require _) fun _ => ?_
  split
  · exact .bind (Operation.cachedVariantsBy_along _) fun variants m' _ h => share_along h
  · refine .skip (.require _) fun specName => ?_
    exact .bind (Operation.createVariants_along ..) fun variants m' _ h => share_along h

theorem insertHeader_along (document : Document) (entry : Document × Document) :
    Along S m (insertHeader document entry) fun _ _ => True :=
  .bind (Operation.insertComponentHeader_along ..) fun _ _ _ _ => .pure trivial

/-! ## The whole document -/

/-- What comes after the shared schemas goes along with every standard: each section of the
components is a loop over its entries, and each entry takes steps only. -/
theorem afterSchemas_along (document components : Document) (count : Nat) :
    Along S m (afterSchemas document components count) fun _ _ => True := by
  refine .skip (.note _) fun _ => .skip (steady_section? _ _).still fun parameters => ?_
  refine .bind (.forM fun entry _ m' _ => insertParameter_along entry) fun _ m₂ _ _ => ?_
  refine .skip (steady_section? _ _).still fun bodies => ?_
  refine .bind (.forM fun entry _ m' _ => insertBody_along entry) fun _ m₃ _ _ => ?_
  refine .skip (steady_section? _ _).still fun responses => ?_
  refine .bind (.forM fun entry _ m' _ => insertResponse_along document entry) fun _ m₄ _ _ => ?_
  refine .skip (steady_section? _ _).still fun headers => ?_
  refine .bind (.forM fun entry _ m' _ => insertHeader_along document entry) fun _ m₅ _ _ => ?_
  refine .bind (Operation.insertAll_along document) fun _ m₆ _ _ => .model ?_
  exact .skip (.note _) fun _ => .pure trivial

/-- **The construction of a model goes along with every standard.** -/
theorem construct_along (document : Document) :
    Along S m (construct document) fun _ _ => True := by
  refine .skip (.field _ _) fun _ => .skip (steady_section? _ _).still fun schemas => ?_
  refine .bind (.forM fun entry _ m' _ => insertSchema_along entry) fun _ m₁ _ _ => ?_
  exact afterSchemas_along ..

/-- What a standard promises holds of the model that a construction leaves, whether it answers or
fails. -/
theorem sound_construct (document : Document) {w : Workbench} (h : S.Sound w.model) :
    S.Sound (exec (construct document) w).2.model :=
  h.steps ((construct_along document).runs h w rfl).1

end TypedApi.Conversion
