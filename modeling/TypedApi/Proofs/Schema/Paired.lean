import TypedApi.Proofs.Build.Paired
import TypedApi.Proofs.Schema.Faithful
/-!
Nullable schemas make pairs.

A schema that admits null makes one pair: its item without null is stored as soon
as all schemas inside it have been lowered, and the alias that admits null is the
answer, which is stored next. No other item names one. So lowering a schema makes
as many pairs as there are schemas written out in it that admit null, itself
included, whatever the model holds already.
-/

set_option autoImplicit false

namespace TypedApi

open Build

/-- What a build answers is what it comes to without a model. -/
theorem Plain.eq_ok_of_answers {α : Type} {x : Build α} {v : Except ProblemKind α} {a : α}
    (hx : Plain x v) (h : Answers x a) : v = .ok a := by
  obtain ⟨w, w', h⟩ := h
  rcases hx.runs w with ⟨kind, _, e, he, _⟩ | ⟨b, hb, hrun⟩
  · rw [he] at h
    cases h
  · rw [hrun] at h
    cases h
    exact hb

namespace Schema

/-! ## The schemas inside a schema -/

/-- The alternatives of a union. -/
def insideUnion (schema : Document) : List Document :=
  ((schema.find? "oneOf").getD .null).elements?.getD []

/-- What an override is an override of. -/
def insideOverride (schema : Document) : List Document :=
  match schema.find? "allOf" with
  | some (.array (entry :: _)) => [entry]
  | _ => []

/-- The schema of the elements of an array, if there is one. -/
def insideArray (schema : Document) : List Document :=
  let items := (schema.find? "items").getD .null
  if items.isNull then [] else [items]

/-- The schemas of the properties of an object, or the one of the values of a map. -/
def insideObject (schema : Document) : List Document :=
  match furtherFields schema with
  | .null =>
    let properties := ((schema.find? "properties").getD .null).orElse (.object [])
    (properties.fields?.getD []).map Prod.snd
  | .object (f :: fs) => [.object (f :: fs)]
  | _ => []

/-- The schemas that a schema is made of by its type. -/
def insideTyped (schema : Document) : Document → List Document
  | .text "array" => insideArray schema
  | .text "object" => insideObject schema
  | _ => []

/-- The schemas that a schema with one type is made of, in order; some of them may be
references. -/
def inside (schema : Document) : List Document :=
  if schema.hasField "oneOf" then insideUnion schema
  else if schema.hasField "allOf" then insideOverride schema
  else insideTyped schema (typeOf schema)

/-- What is counted in a schema that is written out; nothing is counted in a reference. -/
def written (count : Document → Nat) (schema : Document) : Nat :=
  if (referenceOf schema).isNull then count schema else 0

/-- What is counted in the schemas inside a schema, and the schema itself if it admits null. -/
def nullablesWith (count : Document → Nat) (schema : Document) : Nat :=
  match readObject schema >>= readNullable with
  | .ok (typed, nullable) => ((inside typed).map (written count)).sum + nullable.toNat
  | .error _ => 0

/-- How many of the schemas that are written out in a schema admit null, itself included, as far as
they are nested less deep than a bound. -/
def nullables : Nat → Document → Nat
  | 0 => fun _ => 0
  | bound + 1 => nullablesWith (nullables bound)

/-- How many of the schemas that are written out in a schema admit null, itself included. -/
def nullablesIn (schema : Document) : Nat :=
  nullables (min (schema.depth + 1) maxNesting) schema

theorem nullablesWith_of_normalizes {count : Document → Nat} {schema typed : Document}
    {nullable : Bool} (h : Normalizes schema typed nullable) :
    nullablesWith count schema = ((inside typed).map (written count)).sum + nullable.toNat := by
  obtain ⟨object, hobject, htyped⟩ := h
  have hread : (readObject schema >>= readNullable) = .ok (typed, nullable) := by
    rw [hobject]
    exact htyped
  rw [nullablesWith, hread]

/-! ## The parts of a schema -/

/-- A way to lower schemas that makes as many pairs as are counted, the item that it answers with
included once that is stored. -/
def LowersPaired (count : Document → Nat) (lower : Lower) : Prop :=
  ∀ specName generatedName schema placement contentType,
    MakesPairs (count schema) (lower specName generatedName schema placement contentType) some

variable {count : Document → Nat} {lower : Lower}

theorem addInlineWith_pairs (hl : LowersPaired count lower) (specName generatedName : String)
    (path : Option String) (schema : Document) (placement : Option Placement)
    (contentType : Document) :
    MakesPairs (count schema)
      (addInlineWith lower specName generatedName path schema placement contentType) :=
  (hl ..).store Item.keepsPair_id

theorem convertWith_pairs (hl : LowersPaired count lower) (specName generatedName : String)
    (path : Option String) (schema : Document) (placement : Option Placement) :
    MakesPairs (written count schema)
      (convertWith lower specName generatedName path schema placement) := by
  unfold convertWith written
  extract_lets reference
  by_cases hnull : reference.isNull = true
  · rw [if_pos hnull, if_pos hnull]
    exact addInlineWith_pairs hl ..
  -- a reference is looked up, or makes the scalar of an external one
  · rw [if_neg hnull, if_neg hnull]
    refine .skip (.require _) fun target => .model fun m => ?_
    split
    · exact .pure _
    · split
      · exact .addScalar
      · exact .pure _

theorem stringShape_pairs (generatedName : String) (schema : Document) (nullable : Bool) :
    MakesPairs 0 (stringShape generatedName schema nullable) := by
  refine .skip (steady_blame _ _).still fun o => ?_
  cases o with
  | some shape => exact .pure _
  | none => exact .skip (.require _) fun _ => .pure _

theorem arrayShape_pairs (hl : LowersPaired count lower) (specName generatedName : String)
    (schema : Document) :
    MakesPairs ((insideArray schema).map (written count)).sum
      (arrayShape lower specName generatedName schema) := by
  unfold arrayShape insideArray
  extract_lets items itemName jp
  have hjp : ∀ item, MakesPairs 0 (jp item) := fun _ => .ite (.pure _) (.pure _)
  by_cases hnull : items.isNull = true
  · rw [if_pos hnull, if_pos hnull]
    exact .bind .addScalar hjp
  · rw [if_neg hnull, if_neg hnull]
    exact (convertWith_pairs hl ..).bind_zero hjp

theorem memberOf_pairs (hl : LowersPaired count lower) (generatedName : String)
    (schema : Document) (required : List Document) (property : Document × Document) :
    MakesPairs (written count property.2)
      (memberOf lower generatedName schema required property) := by
  obtain ⟨key, declared⟩ := property
  refine .skip (.require _) fun name => .model fun m => .skip (.deconflict _) fun ident => ?_
  exact (convertWith_pairs hl ..).bind_zero fun _ => .pure _

theorem objectShape_pairs (hl : LowersPaired count lower) (specName generatedName : String)
    (schema : Document) :
    MakesPairs ((insideObject schema).map (written count)).sum
      (objectShape lower specName generatedName schema) := by
  unfold objectShape
  extract_lets properties additional jp
  have hjp : MakesPairs ((insideObject schema).map (written count)).sum (jp ()) := by
    have hadditional : furtherFields schema = additional := rfl
    simp only [jp, insideObject, hadditional]
    clear_value additional
    cases additional with
    | null =>
      refine .skip (steady_requiredNames _).still fun required => ?_
      refine .skip_answer (.require _) fun fields hfields => ?_
      obtain ⟨_, _, hfields⟩ := hfields
      rw [of_exec_require_ok hfields, Option.getD_some, List.map_map]
      exact (MakesPairs.mapM (fun _ => memberOf_pairs hl ..) _).bind_zero fun _ => .pure _
    | bool b =>
      cases b with
      | false => exact .problem _
      | true => exact .pure _
    | object fields =>
      cases fields with
      | nil => exact .pure _
      | cons f fs => exact (convertWith_pairs hl ..).bind_zero fun _ => .pure _
    | _ => exact .problem _
  exact .ite (.skip (.problem _) fun _ => hjp) hjp

theorem variantOf_pairs (hl : LowersPaired count lower) (specName generatedName : String)
    (mapping alternative : Document) :
    MakesPairs (written count alternative)
      (variantOf lower specName generatedName mapping alternative) := by
  have hkey : ∀ key, MakesPairs (written count alternative) (do
      let definition ← convertWith lower specName generatedName none alternative none
      return { definition, mappingName := ← optionalText key : Variant }) := fun _ =>
    (convertWith_pairs hl ..).bind_zero fun _ => .skip (.optionalText _) fun _ => .pure _
  exact .ite (.skip (.pure _) hkey) (.skip (steady_mappingKey _ _).still hkey)

theorem oneOfShape_pairs (hl : LowersPaired count lower) (specName generatedName : String)
    (schema : Document) :
    MakesPairs ((insideUnion schema).map (written count)).sum
      (oneOfShape lower specName generatedName schema) := by
  refine .skip (.field _ _) fun _ => .skip (.field _ _) fun _ => ?_
  refine .skip_answer (.require _) fun alternatives halternatives => ?_
  obtain ⟨_, _, halternatives⟩ := halternatives
  rw [insideUnion, of_exec_require_ok halternatives, Option.getD_some]
  exact (MakesPairs.mapM (fun _ => variantOf_pairs hl ..) _).bind_zero fun _ =>
    .skip (.optionalText _) fun _ => .pure _

theorem overrideShape_pairs (hl : LowersPaired count lower) (specName generatedName : String)
    (schema : Document) :
    MakesPairs ((insideOverride schema).map (written count)).sum
      (overrideShape lower specName generatedName schema) := by
  unfold overrideShape insideOverride
  extract_lets flag jp
  have hjp : ∀ entry, MakesPairs (written count entry) (jp entry) := fun _ =>
    (convertWith_pairs hl ..).bind_zero fun _ =>
      .skip (.optionalText _) fun _ => .skip (.optionalText _) fun _ => .pure _
  cases schema.find? "allOf" with
  | none => exact .throw _
  | some all =>
    cases all with
    | array entries =>
      cases entries with
      | nil => exact .throw _
      | cons entry rest => exact hjp entry
    | _ => exact .throw _

theorem typedShape_pairs (hl : LowersPaired count lower) (specName generatedName : String)
    (schema : Document) (nullable : Bool) :
    MakesPairs ((insideTyped schema (typeOf schema)).map (written count)).sum
      (typedShape lower specName generatedName schema nullable) := by
  by_cases hknown : typeOf schema ∈ knownTypes
  · unfold typedShape typeOf
    simp only [knownTypes, typeOf, List.mem_cons, List.not_mem_nil, or_false] at hknown
    rcases hknown with h | h | h | h | h | h | h | h
    · rw [h]
      exact .pure _
    · rw [h]
      exact .skip (steady_blame _ _).still fun _ => .pure _
    · rw [h]
      refine .model fun m => .skip (steady_blame _ _).still fun _ => ?_
      exact .ite (.skip (.note _) fun _ => .pure _) (.pure _)
    · rw [h]
      exact stringShape_pairs ..
    · rw [h]
      exact arrayShape_pairs hl ..
    · rw [h]
      exact objectShape_pairs hl ..
    · rw [h]
      exact .pure _
    · rw [h]
      exact .pure _
  · rw [typedShape_of_unknown hknown]
    exact .problem _

theorem shapeOf_pairs (hl : LowersPaired count lower) (specName generatedName : String)
    (schema : Document) (nullable singleton : Bool) :
    MakesPairs ((inside schema).map (written count)).sum
      (shapeOf lower specName generatedName schema nullable singleton) := by
  refine .ite (.problem _) ?_
  rw [inside]
  by_cases hunion : schema.hasField "oneOf" = true
  · rw [if_pos hunion, if_pos hunion]
    exact oneOfShape_pairs hl ..
  · rw [if_neg hunion, if_neg hunion]
    by_cases hall : schema.hasField "allOf" = true
    · rw [if_pos hall, if_pos hall]
      exact .ite (overrideShape_pairs hl ..) (.problem _)
    · rw [if_neg hall, if_neg hall]
      exact typedShape_pairs hl ..

/-! ## Schemas -/

/-- What is answered with over an item: the item is stored last, and the answer names it and leads
to it. -/
theorem of_exec_wrapNullable {item outer : Item} {w w' : Workbench}
    (h : exec (wrapNullable item) w = (.ok outer, w')) :
    ∃ name, w'.model = w.model.withItem { item with generatedName := name } none ∧
      outer.innerName = some name ∧ outer.nullable = true ∧
      outer.shape = .synonym (.back w.model.size) := by
  obtain ⟨inner, u, hadd, h⟩ := of_exec_bind_ok h
  obtain ⟨name, rfl, hmodel⟩ := of_exec_addItem hadd
  rw [exec_bind_model] at h
  obtain ⟨innerName, v, hname, h⟩ := of_exec_bind_ok h
  obtain ⟨outerName, u', hfree, h⟩ := of_exec_bind_ok h
  cases h
  have hlast : u.model.definitions[w.model.size]? = some { item with generatedName := name } := by
    rw [hmodel]
    exact List.getElem?_concat_length
  -- the name is asked for by the index, after the item got one of its own
  have hinner : innerName = name := by
    have hasked := of_exec_lift_ok hname
    rw [Model.nameOf_back hlast] at hasked
    exact (Except.ok.inj hasked).symm
  have hsame : w'.model = u.model := by
    have hfirst := (Still.lift (u.model.nameOf (.back w.model.size))).model_eq u
    have hsecond := (Still.deconflict ("Maybe" ++ innerName)).model_eq v
    rw [hname] at hfirst
    rw [hfree] at hsecond
    exact hsecond.trans hfirst
  exact ⟨name, hsame.trans hmodel, congrArg some hinner, rfl, rfl⟩

/-- **A nullable schema makes one pair**: its item without null is stored, and the alias that is
left to be stored names it and leads to it. -/
theorem wrapNullable_pairs {item : Item} (hnullable : item.nullable = false)
    (hinner : item.innerName = none) : MakesPairs 1 (wrapNullable item) some where
  keeps := by
    refine (Keeps.addPlain hinner).bind fun inner => .model fun m => ?_
    exact .skip (.lift _) fun _ => .skip (.deconflict _) fun _ => .pure _
  fits w outer w' h := by
    rintro _ ⟨⟩ _
    obtain ⟨name, hmodel, hname, hadmits, hshape⟩ := of_exec_wrapNullable h
    refine ⟨w.model.size, { item with generatedName := name }, ?_, ?_, hname, hadmits,
      ⟨_, hshape, rfl⟩, hnullable, hinner⟩
    · rw [hmodel]
      simp [Model.size, Model.withItem]
    · rw [hmodel]
      exact List.getElem?_concat_length
  count w outer w' h := by
    obtain ⟨name, hmodel, hname, _⟩ := of_exec_wrapNullable h
    rw [hmodel, Model.pairs_withItem, Option.elim_some, Item.isOuter, Item.isOuter, hname, hinner]
    rfl

theorem lowerWith_pairs (hl : LowersPaired count lower) :
    LowersPaired (nullablesWith count) (lowerWith lower) := by
  intro specName generatedName schema placement contentType
  refine .skip_answer (steady_schemaObject _ _).still fun object hobject => ?_
  refine .skip (steady_isSingleton _ _).still fun singleton => ?_
  refine .skip_answer (steady_normalize _).still fun ⟨typed, nullable⟩ htyped => ?_
  have hnormal : Normalizes schema typed nullable :=
    ⟨object, (plain_schemaObject _ _).eq_ok_of_answers hobject,
      (plain_normalize _).eq_ok_of_answers htyped⟩
  rw [nullablesWith_of_normalizes hnormal]
  refine .skip (still_titled _ _ _) fun names => ?_
  refine .bind (shapeOf_pairs hl ..) fun shape => .skip (still_documentation _ _) fun docs => ?_
  refine .skip (.textOrNull _) fun docs => .skip (.optionalText _) fun contentType => ?_
  cases nullable with
  | false => exact .pureItem rfl
  | true => exact wrapNullable_pairs rfl rfl

theorem lowerNested_pairs (bound : Nat) : LowersPaired (nullables bound) (lowerNested bound) := by
  induction bound with
  | zero => exact fun _ _ _ _ _ => .throw _
  | succ bound ih => exact lowerWith_pairs ih

/-- **Lowering a schema makes a pair for each nullable schema that is written out in it.** -/
theorem lower_pairs : LowersPaired nullablesIn Schema.lower :=
  fun _ _ _ _ _ => lowerNested_pairs _ ..

theorem addInline_pairs (specName generatedName : String) (path : Option String)
    (schema : Document) (placement : Option Placement) (contentType : Document) :
    MakesPairs (nullablesIn schema)
      (addInline specName generatedName path schema placement contentType) :=
  addInlineWith_pairs lower_pairs ..

theorem convert_pairs (specName generatedName : String) (path : Option String)
    (schema : Document) (placement : Option Placement) :
    MakesPairs (written nullablesIn schema)
      (convert specName generatedName path schema placement) :=
  convertWith_pairs lower_pairs ..

/-- The item that a schema is lowered to names another exactly if the schema admits null. -/
theorem isOuter_of_exec_lowerWith {specName generatedName : String} {schema : Document}
    {placement : Option Placement} {contentType : Document} {w w' : Workbench} {item : Item}
    (h : exec (lowerWith lower specName generatedName schema placement contentType) w =
      (.ok item, w')) :
    ∃ typed, Normalizes schema typed item.isOuter := by
  obtain ⟨object, u₁, hobject, h⟩ := of_exec_bind_ok h
  obtain ⟨singleton, u₂, _, h⟩ := of_exec_bind_ok h
  obtain ⟨⟨typed, nullable⟩, u₃, htyped, h⟩ := of_exec_bind_ok h
  have hnormal : Normalizes schema typed nullable :=
    ⟨object, (plain_schemaObject _ _).eq_ok_of_answers ⟨_, _, hobject⟩,
      (plain_normalize _).eq_ok_of_answers ⟨_, _, htyped⟩⟩
  obtain ⟨names, u₄, _, h⟩ := of_exec_bind_ok h
  obtain ⟨shape, u₅, _, h⟩ := of_exec_bind_ok h
  obtain ⟨description, u₆, _, h⟩ := of_exec_bind_ok h
  obtain ⟨docs, u₇, _, h⟩ := of_exec_bind_ok h
  obtain ⟨described, u₈, _, h⟩ := of_exec_bind_ok h
  refine ⟨typed, ?_⟩
  cases nullable with
  | false =>
    cases h
    exact hnormal
  | true =>
    obtain ⟨name, _, hname, _⟩ := of_exec_wrapNullable h
    rw [Item.isOuter, hname]
    exact hnormal

end Schema

end TypedApi
