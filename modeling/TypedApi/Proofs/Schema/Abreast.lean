import TypedApi.Proofs.Build.Abreast
import TypedApi.Proofs.Schema.Faithful
/-!
Lowering a schema on two tied models.

The names that are proposed may differ, since they depend on what is there; all
else is the same on both sides. A reference to a path that only the second model
knows is a forward reference on the one side and a back reference on the other,
which is what the tie makes of it, as long as such paths are never external.
-/

set_option autoImplicit false

namespace TypedApi

/-- The paths that only the second model knows are paths of the document. -/
def Tie.Internal (T : Tie) : Prop :=
  ∀ path index, T.extra.get? path = some index → WellKnown.isExternal path = false

/-- Two items that are the same but for their names once the references of the first have been
moved. -/
def Tie.Twins (T : Tie) (item item' : Item) : Prop :=
  item'.nameless = (item.relocate T.move).nameless

namespace Schema

open Build

variable {T : Tie} {lower : Lower}

/-- A way to lower schemas that makes twins on tied models, whatever names are proposed. -/
def LowersAbreast (T : Tie) (lower : Lower) : Prop :=
  ∀ specName generatedName generatedName' schema placement contentType,
    Abreast T (lower specName generatedName schema placement contentType)
      (lower specName generatedName' schema placement contentType) T.Twins

/-! ## Names and documentation -/

/-- The source name is the same on both sides. -/
theorem titled_abreast (specName generatedName generatedName' : String) (schema : Document) :
    Abreast T (titled specName generatedName schema) (titled specName generatedName' schema)
      fun p p' => p'.1 = p.1 := by
  refine .ite (fun _ => .skip (.require _) fun name => ?_) fun _ => .pure rfl
  exact .bind .deconflict fun _ _ _ => .pure rfl

/-- Without a source of external documentation, the description is what there is. -/
theorem documentation_abreast (specName : String) (schema : Document) :
    Abreast T (documentation specName schema) (documentation specName schema)
      fun docs docs' => docs' = docs := by
  have hread : ∀ w : Workbench, w.docs = none → exec (documentation specName schema) w =
      (.ok ((schema.find? "description").getD .null), w) := by
    intro w hw
    rw [documentation]
    simp only [exec_bind_get, hw]
    split
    · contradiction
    · rfl
  constructor
  intro u v huv
  rw [hread u huv.docs, hread v huv.docs']
  exact .answer _ _ _ _ huv rfl

/-! ## References and inline schemas -/

theorem addInlineWith_abreast (hl : LowersAbreast T lower)
    (specName generatedName generatedName' : String) {path : Option String} (schema : Document)
    (placement : Option Placement) (contentType : Document)
    (hpath : ∀ p, path = some p → T.extra.get? p = none) :
    Abreast T (addInlineWith lower specName generatedName path schema placement contentType)
      (addInlineWith lower specName generatedName' path schema placement contentType) T.Placed :=
  .bind (hl ..) fun _ _ htwins => .addItem htwins hpath

theorem convertWith_abreast (hl : LowersAbreast T lower) (hT : T.Internal)
    (specName generatedName generatedName' : String) (schema : Document)
    (placement : Option Placement) :
    Abreast T (convertWith lower specName generatedName none schema placement)
      (convertWith lower specName generatedName' none schema placement)
      fun r r' => r' = T.move r := by
  have hnone : ∀ p, (none : Option String) = some p → T.extra.get? p = none := by simp
  refine .ite (fun _ => ?_) fun _ => .skip (.require _) fun target => .model fun m m' hm => ?_
  · exact (addInlineWith_abreast hl _ _ _ _ _ _ hnone).weaken fun _ _ h => h.eq_move
  rw [hm.paths]
  cases m.namedReferences.get? target with
  | some index => exact .pure rfl
  | none =>
    dsimp only
    cases hextra : T.extra.get? target with
    | none =>
      -- unknown on both sides
      generalize (if WellKnown.isExternal target then WellKnown.find? target else none) = found
      cases found with
      | some scalar => exact (Abreast.addScalar hnone).weaken fun _ _ h => h.eq_move
      | none => exact .pure (by simp only [Tie.move, Ref.renumber, Ref.lookIn, hextra])
    | some index =>
      -- known on the second side only, so it is no external one
      rw [hT target index hextra]
      exact .pure (by simp only [Tie.move, Ref.renumber, Ref.lookIn, hextra])

/-! ## Shapes -/

theorem stringShape_abreast (generatedName generatedName' : String) (schema : Document)
    (nullable : Bool) :
    Abreast T (stringShape generatedName schema nullable)
      (stringShape generatedName' schema nullable) fun s s' => s' = s.relocate T.move := by
  refine .bind (R := fun o o' => o' = o ∧ ∀ s ∈ o, ∃ vs extensible, s = .stringEnum vs extensible)
    ?_ fun o o' ho => ?_
  · constructor
    intro u v huv
    cases henum : enumeration schema nullable with
    | error e => exact .fail _ _ u v
    | ok o =>
      refine .answer _ _ _ _ huv ⟨rfl, ?_⟩
      rintro s ⟨⟩
      exact shape_of_enumeration henum
  · obtain ⟨rfl, hshape⟩ := ho
    cases o' with
    | some s =>
      obtain ⟨vs, extensible, rfl⟩ := hshape s rfl
      exact .pure rfl
    | none => exact .skip (.require _) fun scalar => .pure rfl

theorem arrayShape_abreast (hl : LowersAbreast T lower) (hT : T.Internal)
    (specName generatedName generatedName' : String) (schema : Document) :
    Abreast T (arrayShape lower specName generatedName schema)
      (arrayShape lower specName generatedName' schema) fun s s' => s' = s.relocate T.move := by
  have hrest : ∀ item item', item' = T.move item →
      Abreast T
        (if ((schema.find? "uniqueItems").getD .null).holds
          then (return .set item : Build Shape) else return .list item)
        (if ((schema.find? "uniqueItems").getD .null).holds
          then (return .set item' : Build Shape) else return .list item')
        fun s s' => s' = s.relocate T.move := by
    rintro item _ rfl
    exact .ite (fun _ => .pure rfl) fun _ => .pure rfl
  refine .ite (fun _ => ?_) fun _ => ?_
  · exact .bind (.addScalar (by simp)) fun r r' hr => hrest r r' hr.eq_move
  · exact .bind (convertWith_abreast hl hT ..) hrest

theorem memberOf_abreast (hl : LowersAbreast T lower) (hT : T.Internal)
    (generatedName generatedName' : String) (schema : Document) (required : List Document)
    (property : Document × Document) :
    Abreast T (memberOf lower generatedName schema required property)
      (memberOf lower generatedName' schema required property)
      fun p p' => p' = (p.1, { p.2 with definition := T.move p.2.definition }) := by
  obtain ⟨key, declared⟩ := property
  refine .skip (.require _) fun name => .model fun m m' _ => ?_
  refine .bind .deconflict fun ident ident' _ => ?_
  refine .bind (convertWith_abreast hl hT ..) fun r r' hr => .pure ?_
  rw [hr]

theorem objectShape_abreast (hl : LowersAbreast T lower) (hT : T.Internal)
    (specName generatedName generatedName' : String) (schema : Document) :
    Abreast T (objectShape lower specName generatedName schema)
      (objectShape lower specName generatedName' schema) fun s s' => s' = s.relocate T.move := by
  unfold objectShape
  extract_lets properties additional jp jp'
  -- what comes after the check of two keywords that exclude each other
  have hjp : Abreast T (jp ()) (jp' ()) fun s s' => s' = s.relocate T.move := by
    simp only [jp, jp']
    clear_value additional
    split
    · refine .skip (steady_requiredNames _) fun required => .skip (.require _) fun fields => ?_
      refine .bind (Abreast.mapM fun property _ => memberOf_abreast hl hT ..)
        fun members members' hmembers => .pure ?_
      rw [hmembers, Shape.relocate]
    · exact .pure rfl
    · exact .pure rfl
    · refine .bind (convertWith_abreast hl hT ..) fun r r' hr => .pure ?_
      rw [hr]
      rfl
    · exact .problem
  exact .ite (fun _ => .bind (R := fun _ _ => True) .problem fun _ _ _ => hjp) fun _ => hjp

theorem variantOf_abreast (hl : LowersAbreast T lower) (hT : T.Internal)
    (specName generatedName generatedName' : String) (mapping alternative : Document) :
    Abreast T (variantOf lower specName generatedName mapping alternative)
      (variantOf lower specName generatedName' mapping alternative)
      fun v v' => v' = v.relocate T.move := by
  have hkey : ∀ key, Abreast T
      (do
        let definition ← convertWith lower specName generatedName none alternative none
        return { definition, mappingName := ← optionalText key : Variant })
      (do
        let definition ← convertWith lower specName generatedName' none alternative none
        return { definition, mappingName := ← optionalText key : Variant })
      fun v v' => v' = v.relocate T.move := by
    refine fun key => .bind (convertWith_abreast hl hT ..) fun r r' hr => ?_
    exact .skip (.optionalText _) fun name => .pure (by rw [hr, Variant.relocate])
  exact .ite (fun _ => .skip (.pure _) hkey) fun _ => .skip (steady_mappingKey _ _) hkey

theorem oneOfShape_abreast (hl : LowersAbreast T lower) (hT : T.Internal)
    (specName generatedName generatedName' : String) (schema : Document) :
    Abreast T (oneOfShape lower specName generatedName schema)
      (oneOfShape lower specName generatedName' schema) fun s s' => s' = s.relocate T.move := by
  refine .skip (.field _ _) fun discriminant => .skip (.field _ _) fun mapping => ?_
  refine .skip (.require _) fun alternatives => ?_
  refine .bind (Abreast.mapM fun alternative _ => variantOf_abreast hl hT ..)
    fun variants variants' hvariants => .skip (.optionalText _) fun name => .pure ?_
  rw [hvariants, Shape.relocate_oneOf]

theorem overrideShape_abreast (hl : LowersAbreast T lower) (hT : T.Internal)
    (specName generatedName generatedName' : String) (schema : Document) :
    Abreast T (overrideShape lower specName generatedName schema)
      (overrideShape lower specName generatedName' schema) fun s s' => s' = s.relocate T.move := by
  unfold overrideShape
  extract_lets flag jp jp'
  have hjp : ∀ entry, Abreast T (jp entry) (jp' entry) fun s s' => s' = s.relocate T.move := by
    refine fun entry => .bind (convertWith_abreast hl hT ..) fun r r' hr => ?_
    refine .skip (.optionalText _) fun title => .skip (.optionalText _) fun description => ?_
    exact .pure (by rw [hr, Shape.relocate])
  split
  · exact .skip (.pure _) hjp
  · exact .skip (.throw _) hjp

/-! ## Dispatch -/

theorem typedShape_abreast (hl : LowersAbreast T lower) (hT : T.Internal)
    (specName generatedName generatedName' : String) (schema : Document) (nullable : Bool) :
    Abreast T (typedShape lower specName generatedName schema nullable)
      (typedShape lower specName generatedName' schema nullable)
      fun s s' => s' = s.relocate T.move := by
  unfold typedShape
  split
  · exact .pure rfl
  · exact .plain (plain_blame _ _) (plain_blame _ _) fun _ => .pure rfl
  · refine .model fun m m' hm => ?_
    rw [hm.boundedIntegers]
    refine .plain (plain_blame _ _) (plain_blame _ _) fun reading => ?_
    exact .ite (fun _ => .bind .note fun _ _ _ => .pure rfl) fun _ => .pure rfl
  · exact stringShape_abreast ..
  · exact arrayShape_abreast hl hT ..
  · exact objectShape_abreast hl hT ..
  · exact .pure rfl
  · exact .pure rfl
  · exact .problem

theorem shapeOf_abreast (hl : LowersAbreast T lower) (hT : T.Internal)
    (specName generatedName generatedName' : String) (schema : Document)
    (nullable singleton : Bool) :
    Abreast T (shapeOf lower specName generatedName schema nullable singleton)
      (shapeOf lower specName generatedName' schema nullable singleton)
      fun s s' => s' = s.relocate T.move := by
  refine .ite (fun _ => .problem) fun _ => .ite (fun _ => oneOfShape_abreast hl hT ..) fun _ => ?_
  refine .ite (fun _ => ?_) fun _ => typedShape_abreast hl hT ..
  exact .ite (fun _ => overrideShape_abreast hl hT ..) fun _ => .problem

/-- The aliases around twins are twins. -/
theorem wrapNullable_abreast {item item' : Item} (h : T.Twins item item') :
    Abreast T (wrapNullable item) (wrapNullable item') T.Twins := by
  refine .bind (.addItem h (by simp)) fun inner inner' hinner => ?_
  refine .nameOf hinner fun innerName innerName' => .bind .deconflict fun name name' _ => .pure ?_
  have hdocs := congrArg Item.docs h
  have hspec := congrArg Item.specName h
  have hcontent := congrArg Item.contentType h
  simp only [Item.nameless, Item.relocate] at hdocs hspec hcontent
  simp only [Tie.Twins, Item.nameless, Item.relocate, Shape.relocate, hdocs, hspec, hcontent,
    hinner.eq_move, Option.map_some]

theorem lowerWith_abreast (hl : LowersAbreast T lower) (hT : T.Internal) :
    LowersAbreast T (lowerWith lower) := by
  intro specName generatedName generatedName' schema placement contentType
  refine .skip (steady_schemaObject _ _) fun object => .skip (steady_isSingleton _ _) fun single => ?_
  refine .skip (steady_normalize _) fun ⟨schema, nullable⟩ => ?_
  refine .bind (titled_abreast ..) fun ⟨specName, generatedName⟩ ⟨specName', generatedName'⟩ hspec => ?_
  cases hspec
  refine .bind (shapeOf_abreast hl hT ..) fun shape shape' hshape => ?_
  refine .bind (documentation_abreast ..) fun docs docs' hdocs => ?_
  cases hdocs
  refine .skip (.textOrNull _) fun docs => .skip (.optionalText _) fun contentType => ?_
  have htwins : ∀ newtype pubTypedef, T.Twins
      { docs, specName, generatedName, newtype, pubTypedef, shape, contentType }
      { docs, specName, generatedName := generatedName', newtype, pubTypedef, shape := shape',
        contentType } := by
    intro newtype pubTypedef
    rw [hshape]
    rfl
  exact .ite (fun _ => wrapNullable_abreast (htwins _ _)) fun _ => .pure (htwins _ _)

/-! ## Schemas of any depth -/

theorem lowerNested_abreast (hT : T.Internal) (bound : Nat) : LowersAbreast T (lowerNested bound) := by
  induction bound with
  | zero => exact fun _ _ _ _ _ _ => .throw
  | succ bound ih => exact lowerWith_abreast ih hT

/-- **Lowering makes twins on tied models.** -/
theorem lower_abreast (hT : T.Internal) : LowersAbreast T Schema.lower :=
  fun _ _ _ _ _ _ => lowerNested_abreast hT _ ..

theorem addInline_abreast (hT : T.Internal) (specName generatedName generatedName' : String)
    {path : Option String} (schema : Document) (placement : Option Placement)
    (contentType : Document) (hpath : ∀ p, path = some p → T.extra.get? p = none) :
    Abreast T (addInline specName generatedName path schema placement contentType)
      (addInline specName generatedName' path schema placement contentType) T.Placed :=
  addInlineWith_abreast (lower_abreast hT) _ _ _ _ _ _ hpath

theorem convert_abreast (hT : T.Internal) (specName generatedName generatedName' : String)
    (schema : Document) (placement : Option Placement) :
    Abreast T (convert specName generatedName none schema placement)
      (convert specName generatedName' none schema placement) fun r r' => r' = T.move r :=
  convertWith_abreast (lower_abreast hT) hT ..

end Schema

end TypedApi
