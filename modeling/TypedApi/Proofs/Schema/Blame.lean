import TypedApi.Proofs.Build.Blame
import TypedApi.Proofs.Schema.Grows
/-!
Lowering a schema fails only over the document.

No part of a schema is stored under a path, so nothing is asked of the model but
that it is unfinished. Each part blames the document as soon as the lowering of
the schemas inside it does, and `lowerNested` follows by induction on the bound.
-/

set_option autoImplicit false

namespace TypedApi.Schema

open Build

variable {m : Model} {lower : Lower}

/-- A way to lower schemas that fails only over the document. -/
def LowersBlaming (lower : Lower) : Prop :=
  ∀ specName generatedName schema placement contentType m,
    Blames m (lower specName generatedName schema placement contentType)

/-! ## Reading the keywords -/

theorem reads_schemaObject (specName : String) (schema : Document) :
    Reads (schemaObject specName schema) := by
  cases schema with
  | object fields => exact .pure _
  | bool b =>
    cases b
    · exact .problem rfl
    · exact .pure _
  | loop inObject =>
    cases inObject
    · exact .problem rfl
    · exact .throw rfl
  | _ => exact .problem rfl

theorem reads_isSingleton (placement : Option Placement) (schema : Document) :
    Reads (isSingleton placement schema) := by
  cases placement with
  | none => exact .pure _
  | some p =>
    refine .ite (.pure _) (.bind (.require _) fun _ => .ite (.pure _) ?_)
    split <;> exact .pure _

theorem reads_normalize (schema : Document) : Reads (normalize schema) := by
  unfold normalize
  dsimp only
  split
  · split
    · exact .pure _
    · exact .pure _
    · exact .problem rfl
  · exact .pure _

theorem reads_documentation (specName : String) (schema : Document) :
    Reads (documentation specName schema) := by
  refine .bind .get fun w => ?_
  split
  · exact .bind (.require _) fun _ => .bind (.fetchDocs _ _ _) fun _ => .pure _
  · exact .pure _

theorem reads_blame {α : Type} (generatedName : String) (e : Except ShapeProblem α) :
    Reads (blame generatedName e) := by
  cases e
  · exact .throw rfl
  · exact .pure _

theorem reads_requiredNames (schema : Document) : Reads (requiredNames schema) :=
  .bind (.require _) fun _ => .ite (.pure _) (.throw rfl)

theorem reads_mappingKey (mapping reference : Document) : Reads (mappingKey mapping reference) :=
  .bind (.require _) fun _ => .pure _

theorem reads_titled (specName generatedName : String) (schema : Document) :
    Reads (titled specName generatedName schema) :=
  .ite (.bind (.require _) fun _ => .bind (.deconflict _) fun _ => .pure _) (.pure _)

theorem reads_stringShape (generatedName : String) (schema : Document) (nullable : Bool) :
    Reads (stringShape generatedName schema nullable) := by
  refine .bind (reads_blame _ _) fun o => ?_
  cases o with
  | some shape => exact .pure _
  | none => exact .bind (.require _) fun _ => .pure _

/-! ## References and shapes -/

theorem convertWith_blames (hl : LowersBlaming lower) (specName generatedName : String)
    (schema : Document) (placement : Option Placement) :
    Blames m (convertWith lower specName generatedName none schema placement) := by
  refine .ite (fun _ => .bind (hl ..) fun item _ _ => .addInner item) fun _ => ?_
  refine .skip (.require _) fun target => .model ?_
  split
  · exact .pure _
  · split
    · exact .addScalar (by simp)
    · exact .pure _

theorem arrayShape_blames (hl : LowersBlaming lower) (specName generatedName : String)
    (schema : Document) : Blames m (arrayShape lower specName generatedName schema) := by
  unfold arrayShape
  extract_lets itemName items jp
  have hjp : ∀ item (m' : Model), Blames m' (jp item) := fun item m' =>
    .ite (fun _ => .pure _) fun _ => .pure _
  refine .ite (fun _ => ?_) fun _ => ?_
  · exact .bind (.addScalar (by simp)) fun r m' _ => hjp r m'
  · exact .bind (convertWith_blames hl ..) fun r m' _ => hjp r m'

theorem memberOf_blames (hl : LowersBlaming lower) (generatedName : String) (schema : Document)
    (required : List Document) (property : Document × Document) :
    Blames m (memberOf lower generatedName schema required property) := by
  obtain ⟨key, declared⟩ := property
  refine .skip (.require _) fun name => .model (.skip (.deconflict _) fun ident => ?_)
  exact .bind (convertWith_blames hl ..) fun _ _ _ => .pure _

theorem objectShape_blames (hl : LowersBlaming lower) (specName generatedName : String)
    (schema : Document) : Blames m (objectShape lower specName generatedName schema) := by
  unfold objectShape
  extract_lets properties additional jp
  -- what comes after the check of two keywords that exclude each other
  have hjp : Blames m (jp ()) := by
    simp only [jp]
    clear_value additional
    split
    · refine .skip (reads_requiredNames _) fun required => .skip (.require _) fun fields => ?_
      exact .bind (.mapM fun property _ m' => memberOf_blames hl ..) fun _ _ _ => .pure _
    · exact .pure _
    · exact .pure _
    · exact .bind (convertWith_blames hl ..) fun _ _ _ => .pure _
    · exact .problem rfl
  exact .ite (fun _ => .skip (.problem rfl) fun _ => hjp) fun _ => hjp

theorem variantOf_blames (hl : LowersBlaming lower) (specName generatedName : String)
    (mapping alternative : Document) :
    Blames m (variantOf lower specName generatedName mapping alternative) := by
  unfold variantOf
  extract_lets reference jp
  have hjp : ∀ key, Blames m (jp key) := fun key =>
    .bind (convertWith_blames hl ..) fun _ _ _ => .skip (.optionalText _) fun _ => .pure _
  exact .ite (fun _ => .skip (.pure _) hjp) fun _ => .skip (reads_mappingKey _ _) hjp

theorem oneOfShape_blames (hl : LowersBlaming lower) (specName generatedName : String)
    (schema : Document) : Blames m (oneOfShape lower specName generatedName schema) := by
  refine .skip (.field _ _) fun discriminant => .skip (.field _ _) fun mapping => ?_
  refine .skip (.require _) fun alternatives => ?_
  refine .bind (.mapM fun alternative _ m' => variantOf_blames hl ..) fun _ _ _ => ?_
  exact .skip (.optionalText _) fun _ => .pure _

theorem overrideShape_blames (hl : LowersBlaming lower) (specName generatedName : String)
    (schema : Document) : Blames m (overrideShape lower specName generatedName schema) := by
  unfold overrideShape
  extract_lets flag jp
  have hjp : ∀ entry, Blames m (jp entry) := fun entry =>
    .bind (convertWith_blames hl ..) fun _ _ _ =>
      .skip (.optionalText _) fun _ => .skip (.optionalText _) fun _ => .pure _
  split
  · exact .skip (.pure _) hjp
  · exact .skip (.throw rfl) hjp

/-! ## Dispatch -/

theorem typedShape_blames (hl : LowersBlaming lower) (specName generatedName : String)
    (schema : Document) (nullable : Bool) :
    Blames m (typedShape lower specName generatedName schema nullable) := by
  unfold typedShape
  split
  · exact .pure _
  · exact .skip (reads_blame _ _) fun _ => .pure _
  · refine .model (.skip (reads_blame _ _) fun reading => ?_)
    exact .ite (fun _ => .skip (.note _) fun _ => .pure _) fun _ => .pure _
  · exact .reads (reads_stringShape ..)
  · exact arrayShape_blames hl ..
  · exact objectShape_blames hl ..
  · exact .pure _
  · exact .pure _
  · exact .problem rfl

theorem shapeOf_blames (hl : LowersBlaming lower) (specName generatedName : String)
    (schema : Document) (nullable singleton : Bool) :
    Blames m (shapeOf lower specName generatedName schema nullable singleton) := by
  refine .ite (fun _ => .problem rfl) fun _ => .ite (fun _ => oneOfShape_blames hl ..) fun _ => ?_
  refine .ite (fun _ => ?_) fun _ => typedShape_blames hl ..
  exact .ite (fun _ => overrideShape_blames hl ..) fun _ => .problem rfl

theorem wrapNullable_blames (item : Item) : Blames m (wrapNullable item) := by
  refine .bind (.addInner item) fun inner m' _ => .model ?_
  refine .skip (.lift (Blames.overDocument_of_nameOf _)) fun innerName => ?_
  exact .skip (.deconflict _) fun _ => .pure _

theorem lowerWith_blames (hl : LowersBlaming lower) : LowersBlaming (lowerWith lower) := by
  intro specName generatedName schema placement contentType m
  refine .skip (reads_schemaObject _ _) fun object => .skip (reads_isSingleton _ _) fun single => ?_
  refine .skip (reads_normalize _) fun ⟨schema, nullable⟩ => ?_
  refine .skip (reads_titled _ _ _) fun ⟨specName, generatedName⟩ => ?_
  refine .bind (shapeOf_blames hl ..) fun shape m' _ => ?_
  refine .skip (reads_documentation _ _) fun docs => .skip (.textOrNull _) fun docs => ?_
  refine .skip (.optionalText _) fun contentType => ?_
  exact .ite (fun _ => wrapNullable_blames _) fun _ => .pure _

/-! ## Schemas of any depth -/

theorem lowerNested_blames (bound : Nat) : LowersBlaming (lowerNested bound) := by
  induction bound with
  | zero => exact fun _ _ _ _ _ _ => .reads (.throw rfl)
  | succ bound ih => exact lowerWith_blames ih

/-- **Lowering a schema fails only over the document.** -/
theorem lower_blames : LowersBlaming Schema.lower :=
  fun _ _ _ _ _ _ => lowerNested_blames _ ..

/-- A schema is added under its path if the path is free: the schemas inside it take none. -/
theorem addInline_blames (specName generatedName : String) {path : Option String}
    (schema : Document) (placement : Option Placement) (contentType : Document)
    (h : ∀ p, path = some p → m.Free p) :
    Blames m (addInline specName generatedName path schema placement contentType) := by
  refine .bind (lower_blames ..) fun item m' hleaves => .addItem fun p hp => ?_
  have hgrows : m.Grows m' := (lower_grows ..).of_leaves hleaves
  rw [Model.Free, hgrows.sameBesidesItems.namedReferences]
  exact h p hp

theorem convert_blames (specName generatedName : String) (schema : Document)
    (placement : Option Placement) :
    Blames m (convert specName generatedName none schema placement) :=
  convertWith_blames lower_blames ..

end TypedApi.Schema
