import TypedApi.Proofs.Build.Along
import TypedApi.Schema.Lowering
/-!
Lowering a schema goes along with every standard.

The lowering of a schema is written over the lowering of the schemas inside
it, and so are the lemmas: each part goes along with a standard as soon as the
lowering inside it does. `lowerNested` then follows by induction on the bound,
and the item that comes out fits the model in which it is to be placed.
-/

set_option autoImplicit false

namespace TypedApi.Schema

open Build

variable {S : Standard} {m : Model} {lower : Lower}

/-- A way to lower schemas that takes steps only, to an item that fits the model afterwards. -/
def LowersAlong (S : Standard) (lower : Lower) : Prop :=
  ∀ specName generatedName schema placement contentType m,
    Along S m (lower specName generatedName schema placement contentType)
      fun item m' => S.Fits m'.size item.shape

/-! ## Steps that leave the model alone -/

theorem steady_schemaObject (specName : String) (schema : Document) :
    Steady (schemaObject specName schema) := by
  cases schema with
  | object fields => exact .pure _
  | bool b =>
    cases b
    · exact .problem _
    · exact .pure _
  | loop inObject =>
    cases inObject
    · exact .problem _
    · exact .throw _
  | _ => exact .problem _

theorem steady_isSingleton (placement : Option Placement) (schema : Document) :
    Steady (isSingleton placement schema) := by
  cases placement with
  | none => exact .pure _
  | some p =>
    refine .ite (.pure _) (.bind (.require _) fun _ => .ite (.pure _) ?_)
    split <;> exact .pure _

theorem steady_normalize (schema : Document) : Steady (normalize schema) := by
  unfold normalize
  dsimp only
  split
  · split
    · exact .pure _
    · exact .pure _
    · exact .problem _
  · exact .pure _

theorem still_documentation (specName : String) (schema : Document) :
    Still (documentation specName schema) := by
  refine .bind .get fun w => ?_
  split
  · exact .bind (.require _) fun _ => .bind (.fetchDocs _ _ _) fun _ => .pure _
  · exact .pure _

theorem steady_blame {α : Type} (generatedName : String) (e : Except ShapeProblem α) :
    Steady (blame generatedName e) := by
  cases e
  · exact .throw _
  · exact .pure _

theorem steady_requiredNames (schema : Document) : Steady (requiredNames schema) :=
  .bind (.require _) fun _ => .ite (.pure _) (.throw _)

theorem steady_mappingKey (mapping reference : Document) : Steady (mappingKey mapping reference) :=
  .bind (.require _) fun _ => .pure _

theorem still_titled (specName generatedName : String) (schema : Document) :
    Still (titled specName generatedName schema) :=
  .ite (.bind (.require _) fun _ => .bind (.deconflict _) fun _ => .pure _) (.pure _)

/-! ## References and inline schemas -/

theorem addInlineWith_along (hl : LowersAlong S lower) (specName generatedName : String)
    (path : Option String) (schema : Document) (placement : Option Placement)
    (contentType : Document) :
    Along S m (addInlineWith lower specName generatedName path schema placement contentType)
      fun r m' => S.Places m'.size r :=
  .bind (hl ..) fun _ _ _ hfits => .addItem hfits

theorem convertWith_along (hl : LowersAlong S lower) (specName generatedName : String)
    (path : Option String) (schema : Document) (placement : Option Placement) :
    Along S m (convertWith lower specName generatedName path schema placement)
      fun r m' => S.ref m'.size r := by
  -- an item that is added answers with its place, of which only the reference matters here
  have hadd : ∀ r (m' : Model), S.Places m'.size r → S.ref m'.size r := fun _ _ h => h.ref
  refine .ite (fun _ => (addInlineWith_along hl ..).weaken hadd) fun _ => ?_
  refine .skip (.require _) fun target => .sound fun hm => .model ?_
  split
  · exact .pure (Along.lookup ‹_› hm).ref
  · split
    · exact Along.addScalar.weaken hadd
    · exact .pure S.ref_forward

/-! ## Shapes -/

/-- An enumeration has no shape but that of a list of texts. -/
theorem shape_of_enumeration {schema : Document} {nullable : Bool} {shape : Shape}
    (h : enumeration schema nullable = .ok (some shape)) :
    ∃ variants extensible, shape = .stringEnum variants extensible := by
  unfold enumeration at h
  simp only [bind, Except.bind, pure, Except.pure, throw, throwThe, MonadExceptOf.throw] at h
  -- every branch fails, finds no enumeration, or answers with one
  repeat' split at h
  all_goals cases h
  all_goals exact ⟨_, _, rfl⟩

/-- What an answer blamed on nobody was before. -/
theorem eq_ok_of_blame {α : Type} {generatedName : String} {e : Except ShapeProblem α} {a : α}
    (h : Answers (blame generatedName e) a) : e = .ok a := by
  obtain ⟨w, w', h⟩ := h
  cases e with
  | error p => cases h
  | ok b =>
    cases h
    rfl

theorem stringShape_along (generatedName : String) (schema : Document) (nullable : Bool) :
    Along S m (stringShape generatedName schema nullable)
      fun shape m' => S.Fits m'.size shape := by
  refine .skip_answer (steady_blame _ _).still fun o ho => ?_
  cases o with
  | some shape =>
    -- the answer may be used here, since an enumeration is the one shape not made on the spot
    obtain ⟨variants, extensible, rfl⟩ := shape_of_enumeration (eq_ok_of_blame ho)
    exact .pure ⟨by simp [Shape.refs], by simp [Shape.variants]⟩
  | none => exact .skip (.require _) fun scalar => .pure (Standard.fits_scalar _ _)

theorem arrayShape_along (hl : LowersAlong S lower) (specName generatedName : String)
    (schema : Document) :
    Along S m (arrayShape lower specName generatedName schema)
      fun shape m' => S.Fits m'.size shape := by
  unfold arrayShape
  extract_lets itemName items jp
  have hjp : ∀ item (m' : Model), S.ref m'.size item →
      Along S m' (jp item) fun shape m'' => S.Fits m''.size shape := by
    intro item m' hitem
    refine .ite (fun _ => .pure ?_) fun _ => .pure ?_
    · exact ⟨by simpa [Shape.refs] using hitem, by simp [Shape.variants]⟩
    · exact ⟨by simpa [Shape.refs] using hitem, by simp [Shape.variants]⟩
  refine .ite (fun _ => ?_) fun _ => ?_
  · exact .bind Along.addScalar fun r m' _ hr => hjp r m' hr.ref
  · exact .bind (convertWith_along hl ..) fun r m' _ hr => hjp r m' hr

theorem memberOf_along (hl : LowersAlong S lower) (generatedName : String) (schema : Document)
    (required : List Document) (property : Document × Document) :
    Along S m (memberOf lower generatedName schema required property)
      fun p m' => S.ref m'.size p.2.definition := by
  obtain ⟨key, declared⟩ := property
  refine .skip (.require _) fun name => .model ?_
  refine .skip (.deconflict _) fun ident => ?_
  exact .bind (convertWith_along hl ..) fun r m' _ hr => .pure hr

theorem objectShape_along (hl : LowersAlong S lower) (specName generatedName : String)
    (schema : Document) :
    Along S m (objectShape lower specName generatedName schema)
      fun shape m' => S.Fits m'.size shape := by
  unfold objectShape
  extract_lets properties additional jp
  -- what comes after the check of two keywords that exclude each other
  have hjp : Along S m (jp ()) fun shape m' => S.Fits m'.size shape := by
    simp only [jp]
    clear_value additional
    split
    · refine .skip (steady_requiredNames _).still fun required => .skip (.require _) fun fields => ?_
      refine .bind (Along.mapM (P := fun (p : String × Member) n => S.ref n p.2.definition)
        (fun _ _ _ h hp => S.ref_mono h hp) fun property _ m' _ => memberOf_along hl ..)
        fun members m' _ hmembers => ?_
      exact .pure (Standard.fits_object hmembers)
    · exact .pure ⟨by simp [Shape.refs], by simp [Shape.variants]⟩
    · exact .pure ⟨by simp [Shape.refs], by simp [Shape.variants]⟩
    · refine .bind (convertWith_along hl ..) fun r m' _ hr => .pure ?_
      exact ⟨by simpa [Shape.refs] using hr, by simp [Shape.variants]⟩
    · exact .problem
  exact .ite (fun _ => .skip (.problem _) fun _ => hjp) fun _ => hjp

theorem variantOf_along (hl : LowersAlong S lower) (specName generatedName : String)
    (mapping alternative : Document) :
    Along S m (variantOf lower specName generatedName mapping alternative)
      fun v m' => S.Admits m'.size v := by
  unfold variantOf
  extract_lets reference jp
  have hjp : ∀ key, Along S m (jp key) fun v m' => S.Admits m'.size v := fun key =>
    .bind (convertWith_along hl ..) fun r m' _ hr =>
      .skip (.optionalText _) fun name => .pure ⟨hr, S.variant_unnamed rfl⟩
  exact .ite (fun _ => .skip (.pure _) hjp) fun _ => .skip (steady_mappingKey _ _).still hjp

theorem oneOfShape_along (hl : LowersAlong S lower) (specName generatedName : String)
    (schema : Document) :
    Along S m (oneOfShape lower specName generatedName schema)
      fun shape m' => S.Fits m'.size shape := by
  refine .skip (.field _ _) fun discriminant => .skip (.field _ _) fun mapping => ?_
  refine .skip (.require _) fun alternatives => ?_
  -- the variants of a union are made before its item, and stay admitted while more are made
  refine .bind (Along.mapM (P := fun v n => S.Admits n v) (fun _ _ _ h hv => hv.mono h)
    fun alternative _ m' _ => variantOf_along hl ..) fun variants m' _ hvariants => ?_
  exact .skip (.optionalText _) fun name => .pure (Standard.fits_oneOf hvariants)

theorem overrideShape_along (hl : LowersAlong S lower) (specName generatedName : String)
    (schema : Document) :
    Along S m (overrideShape lower specName generatedName schema)
      fun shape m' => S.Fits m'.size shape := by
  unfold overrideShape
  extract_lets flag jp
  have hjp : ∀ entry, Along S m (jp entry) fun shape m' => S.Fits m'.size shape := by
    refine fun entry => .bind (convertWith_along hl ..) fun r m' _ hr => ?_
    refine .skip (.optionalText _) fun title => .skip (.optionalText _) fun description => ?_
    exact .pure ⟨by simpa [Shape.refs] using hr, by simp [Shape.variants]⟩
  split
  · exact .skip (.pure _) hjp
  · exact .skip (.throw _) hjp

/-! ## Dispatch -/

theorem typedShape_along (hl : LowersAlong S lower) (specName generatedName : String)
    (schema : Document) (nullable : Bool) :
    Along S m (typedShape lower specName generatedName schema nullable)
      fun shape m' => S.Fits m'.size shape := by
  have hscalar : ∀ (scalar : Scalar) (m' : Model), S.Fits m'.size (.scalar scalar) :=
    fun _ _ => Standard.fits_scalar _ _
  unfold typedShape
  split
  · exact .pure (hscalar _ _)
  · exact .skip (steady_blame _ _).still fun scalar => .pure (hscalar _ _)
  · refine .model (.skip (steady_blame _ _).still fun reading => ?_)
    exact .ite (fun _ => .skip (.note _) fun _ => .pure (hscalar _ _)) fun _ =>
      .pure (hscalar _ _)
  · exact stringShape_along ..
  · exact arrayShape_along hl ..
  · exact objectShape_along hl ..
  · exact .pure (hscalar _ _)
  · exact .pure (hscalar _ _)
  · exact .problem

theorem shapeOf_along (hl : LowersAlong S lower) (specName generatedName : String)
    (schema : Document) (nullable singleton : Bool) :
    Along S m (shapeOf lower specName generatedName schema nullable singleton)
      fun shape m' => S.Fits m'.size shape := by
  refine .ite (fun _ => .problem) fun _ => .ite (fun _ => oneOfShape_along hl ..) fun _ => ?_
  refine .ite (fun _ => ?_) fun _ => typedShape_along hl ..
  exact .ite (fun _ => overrideShape_along hl ..) fun _ => .problem

/-- The alias around an item refers to the item, which is added first. -/
theorem wrapNullable_along {item : Item} (hfits : S.Fits m.size item.shape) :
    Along S m (wrapNullable item) fun outer m' => S.Fits m'.size outer.shape := by
  refine .bind (Along.addItem hfits) fun inner m' _ hinner => ?_
  refine .model (.skip (.lift _) fun innerName => .skip (.deconflict _) fun name => ?_)
  exact .pure (Standard.fits_synonym hinner.ref)

theorem lowerWith_along (hl : LowersAlong S lower) : LowersAlong S (lowerWith lower) := by
  intro specName generatedName schema placement contentType m
  refine .skip (steady_schemaObject _ _).still fun object => .skip (steady_isSingleton _ _).still fun single => ?_
  refine .skip (steady_normalize _).still fun ⟨schema, nullable⟩ => ?_
  refine .skip (still_titled _ _ _) fun ⟨specName, generatedName⟩ => ?_
  -- the shape is the only part that changes the model; the documentation is only read
  refine .bind (shapeOf_along hl ..) fun shape m' _ hshape => ?_
  refine .skip (still_documentation _ _) fun docs => .skip (.textOrNull _) fun docs => ?_
  refine .skip (.optionalText _) fun contentType => ?_
  exact .ite (fun _ => wrapNullable_along hshape) fun _ => .pure hshape

/-! ## Schemas of any depth -/

theorem lowerNested_along (bound : Nat) : LowersAlong S (lowerNested bound) := by
  induction bound with
  | zero => exact fun _ _ _ _ _ _ => .throw
  | succ bound ih => exact lowerWith_along ih

/-- **Lowering goes along with every standard.** -/
theorem lower_along : LowersAlong S Schema.lower :=
  fun _ _ _ _ _ _ => lowerNested_along _ ..

theorem addInline_along (specName generatedName : String) (path : Option String)
    (schema : Document) (placement : Option Placement) (contentType : Document) :
    Along S m (addInline specName generatedName path schema placement contentType)
      fun r m' => S.Places m'.size r :=
  addInlineWith_along lower_along ..

theorem convert_along (specName generatedName : String) (path : Option String)
    (schema : Document) (placement : Option Placement) :
    Along S m (convert specName generatedName path schema placement)
      fun r m' => S.ref m'.size r :=
  convertWith_along lower_along ..

end TypedApi.Schema
