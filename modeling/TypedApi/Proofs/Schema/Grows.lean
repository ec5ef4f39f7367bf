import TypedApi.Proofs.Build.Keeps
import TypedApi.Proofs.Schema.Steps
/-!
Lowering a schema adds items and does nothing else.

The items inside a schema have no paths of their own, so as long as the schema
itself is not given one, lowering it registers nothing; and lowering touches
neither operations nor shared variants. In particular it leaves a finished
model alone.
-/

set_option autoImplicit false

namespace TypedApi.Schema

open Build

variable {lower : Lower}

/-- A way to lower schemas that only adds items. -/
def LowersGrowing (lower : Lower) : Prop :=
  ∀ specName generatedName schema placement contentType,
    Keeps Model.Grows (lower specName generatedName schema placement contentType)

theorem addInlineWith_grows (hl : LowersGrowing lower) (specName generatedName : String)
    (schema : Document) (placement : Option Placement) (contentType : Document) :
    Keeps Model.Grows (addInlineWith lower specName generatedName none schema placement contentType) :=
  .bind (hl ..) fun _ => .addItem _

theorem convertWith_grows (hl : LowersGrowing lower) (specName generatedName : String)
    (schema : Document) (placement : Option Placement) :
    Keeps Model.Grows (convertWith lower specName generatedName none schema placement) := by
  refine .ite (addInlineWith_grows hl ..) (.skip (.require _) fun target => .model fun m => ?_)
  -- of the references only an external one makes a new item, its scalar
  split
  · exact .pure _
  · split
    · exact .addScalar ..
    · exact .pure _

theorem stringShape_grows (generatedName : String) (schema : Document) (nullable : Bool) :
    Keeps Model.Grows (stringShape generatedName schema nullable) := by
  refine .skip (steady_blame _ _).still fun o => ?_
  cases o with
  | some shape => exact .pure _
  | none => exact .skip (.require _) fun _ => .pure _

theorem arrayShape_grows (hl : LowersGrowing lower) (specName generatedName : String)
    (schema : Document) : Keeps Model.Grows (arrayShape lower specName generatedName schema) := by
  have hitem : ∀ item, Keeps Model.Grows (if ((schema.find? "uniqueItems").getD .null).holds
      then (return .set item : Build Shape) else return .list item) :=
    fun _ => .ite (.pure _) (.pure _)
  refine .ite (.bind (.addScalar ..) hitem) ((convertWith_grows hl ..).bind hitem)

theorem memberOf_grows (hl : LowersGrowing lower) (generatedName : String) (schema : Document)
    (required : List Document) (property : Document × Document) :
    Keeps Model.Grows (memberOf lower generatedName schema required property) := by
  obtain ⟨key, declared⟩ := property
  refine .skip (.require _) fun name => .model fun m => .skip (.deconflict _) fun ident => ?_
  exact (convertWith_grows hl ..).bind fun _ => .pure _

theorem objectShape_grows (hl : LowersGrowing lower) (specName generatedName : String)
    (schema : Document) : Keeps Model.Grows (objectShape lower specName generatedName schema) := by
  unfold objectShape
  extract_lets properties additional jp
  have hjp : Keeps Model.Grows (jp ()) := by
    simp only [jp]
    clear_value additional
    split
    · refine .skip (steady_requiredNames _).still fun required => .skip (.require _) fun fields => ?_
      exact (Keeps.mapM (fun _ => memberOf_grows hl ..) _).bind fun _ => .pure _
    · exact .pure _
    · exact .pure _
    · exact (convertWith_grows hl ..).bind fun _ => .pure _
    · exact .problem _
  exact .ite (.skip (.problem _) fun _ => hjp) hjp

theorem variantOf_grows (hl : LowersGrowing lower) (specName generatedName : String)
    (mapping alternative : Document) :
    Keeps Model.Grows (variantOf lower specName generatedName mapping alternative) := by
  have hkey : ∀ key, Keeps Model.Grows (do
      let definition ← convertWith lower specName generatedName none alternative none
      return { definition, mappingName := ← optionalText key : Variant }) := fun _ =>
    (convertWith_grows hl ..).bind fun _ => .skip (.optionalText _) fun _ => .pure _
  exact .ite (.skip (.pure _) hkey) (.skip (steady_mappingKey _ _).still hkey)

theorem oneOfShape_grows (hl : LowersGrowing lower) (specName generatedName : String)
    (schema : Document) : Keeps Model.Grows (oneOfShape lower specName generatedName schema) := by
  refine .skip (.field _ _) fun _ => .skip (.field _ _) fun _ => .skip (.require _) fun _ => ?_
  exact (Keeps.mapM (fun _ => variantOf_grows hl ..) _).bind fun _ =>
    .skip (.optionalText _) fun _ => .pure _

theorem overrideShape_grows (hl : LowersGrowing lower) (specName generatedName : String)
    (schema : Document) : Keeps Model.Grows (overrideShape lower specName generatedName schema) := by
  unfold overrideShape
  extract_lets flag jp
  have hjp : ∀ entry, Keeps Model.Grows (jp entry) := fun _ =>
    (convertWith_grows hl ..).bind fun _ =>
      .skip (.optionalText _) fun _ => .skip (.optionalText _) fun _ => .pure _
  split
  · exact .skip (.pure _) hjp
  · exact .skip (.throw _) hjp

theorem typedShape_grows (hl : LowersGrowing lower) (specName generatedName : String)
    (schema : Document) (nullable : Bool) :
    Keeps Model.Grows (typedShape lower specName generatedName schema nullable) := by
  unfold typedShape
  split
  · exact .pure _
  · exact .skip (steady_blame _ _).still fun _ => .pure _
  · refine .model fun m => .skip (steady_blame _ _).still fun _ => ?_
    exact .ite (.skip (.note _) fun _ => .pure _) (.pure _)
  · exact stringShape_grows ..
  · exact arrayShape_grows hl ..
  · exact objectShape_grows hl ..
  · exact .pure _
  · exact .pure _
  · exact .problem _

theorem shapeOf_grows (hl : LowersGrowing lower) (specName generatedName : String)
    (schema : Document) (nullable singleton : Bool) :
    Keeps Model.Grows (shapeOf lower specName generatedName schema nullable singleton) := by
  refine .ite (.problem _) (.ite (oneOfShape_grows hl ..) (.ite ?_ (typedShape_grows hl ..)))
  exact .ite (overrideShape_grows hl ..) (.problem _)

theorem lowerWith_grows (hl : LowersGrowing lower) : LowersGrowing (lowerWith lower) := by
  intro specName generatedName schema placement contentType
  refine .skip (steady_schemaObject _ _).still fun object => .skip (steady_isSingleton _ _).still fun single => ?_
  refine .skip (steady_normalize _).still fun ⟨schema, nullable⟩ => ?_
  refine .skip (still_titled _ _ _) fun ⟨specName, generatedName⟩ => ?_
  refine (shapeOf_grows hl ..).bind fun shape => .skip (still_documentation _ _) fun docs => ?_
  refine .skip (.textOrNull _) fun docs => .skip (.optionalText _) fun contentType => ?_
  refine .ite (.bind (.addItem _) fun inner => .model fun m => ?_) (.pure _)
  exact .skip (.lift _) fun _ => .skip (.deconflict _) fun _ => .pure _

theorem lowerNested_grows (bound : Nat) : LowersGrowing (lowerNested bound) := by
  induction bound with
  | zero => exact fun _ _ _ _ _ => .throw _
  | succ bound ih => exact lowerWith_grows ih

/-- **Lowering only adds items.** -/
theorem lower_grows : LowersGrowing Schema.lower :=
  fun _ _ _ _ _ => lowerNested_grows _ ..

theorem addInline_grows (specName generatedName : String) (schema : Document)
    (placement : Option Placement) (contentType : Document) :
    Keeps Model.Grows (addInline specName generatedName none schema placement contentType) :=
  addInlineWith_grows lower_grows ..

theorem convert_grows (specName generatedName : String) (schema : Document)
    (placement : Option Placement) :
    Keeps Model.Grows (convert specName generatedName none schema placement) :=
  convertWith_grows lower_grows ..

end TypedApi.Schema
