import TypedApi.Proofs.Build.Parallel
import TypedApi.Proofs.Schema.Steps
/-!
Lowering a schema under two options.

Of all options a schema meets only two: whether integers keep their bounds, in
the one shape that may have some, and whether documentation is fetched, for the
item that is made. Everything else comes to the same on both sides, so the items
of two parallel lowerings look the same up to the slack.
-/

set_option autoImplicit false

namespace TypedApi

/-! ## Scalars -/

namespace Scalar

/-- The scalar of a number has no bounds. -/
theorem loosened_ofNumber {schema : Document} {s : Scalar} (h : ofNumber schema = .ok s) :
    s.loosened = s := by
  rw [ofNumber] at h
  split at h
  · cases h
    rfl
  · split at h
    · cases h
      rfl
    · cases h

/-- The scalar of a text has no bounds. -/
theorem loosened_ofStringFormat (format : String) :
    (ofStringFormat format).loosened = ofStringFormat format := by
  have hstandard : ∀ s, standardFormat? format = some s → s.loosened = s := by
    intro s hs
    unfold standardFormat? at hs
    split at hs <;> cases hs <;> rfl
  have hextended : ∀ (word : String) (s : Scalar), extendedFormat? word = some s →
      s.loosened = s := by
    intro word s hs
    unfold extendedFormat? at hs
    split at hs <;> cases hs <;> rfl
  rw [ofStringFormat]
  cases hs : standardFormat? format with
  | some s => exact hstandard s hs
  | none =>
    dsimp only
    cases hs : extendedFormat? (Text.lowerAscii format) with
    | some s => exact hextended _ s hs
    | none => rfl

theorem loosened_ofFormat? {format : Document} {s : Scalar} (h : ofFormat? format = some s) :
    s.loosened = s := by
  unfold ofFormat? at h
  split at h
  · split at h
    · cases h
      rfl
    · obtain ⟨t, _, rfl⟩ := Option.map_eq_some_iff.mp h
      exact loosened_ofStringFormat t
  · cases h
    rfl

/-- The scalar of a well-known reference has no bounds. -/
theorem loosened_find? {reference : String} {s : Scalar} (h : WellKnown.find? reference = some s) :
    s.loosened = s := by
  rw [WellKnown.find?] at h
  split at h
  · cases h
    rfl
  · cases h

theorem loosened_wellKnown (reference : String) :
    (WellKnown.scalar reference).loosened = WellKnown.scalar reference := by
  rw [WellKnown.scalar]
  cases h : WellKnown.find? reference with
  | some s => exact loosened_find? h
  | none => rfl

/-- **Without bounded kinds, an integer is what it is with them, without the bounds.** -/
theorem ofInteger_false (schema : Document) (bounded : Bool) :
    ofInteger schema false = (ofInteger schema bounded).map fun reading =>
      { reading with scalar := reading.scalar.loosened } := by
  have hbounds : ∀ width minimum maximum, ofBounds width minimum maximum false =
      { ofBounds width minimum maximum bounded with
        scalar := (ofBounds width minimum maximum bounded).scalar.loosened } := by
    intro width minimum maximum
    rw [ofBounds, ofBounds, Bool.false_and, if_neg (c := false = true) (by simp)]
    split
    · cases width <;> rfl
    · split <;> cases width <;> rfl
  simp only [ofInteger, View.map_bind]
  cases IntegerWidth.ofFormat ((schema.find? "format").getD .null) with
  | error e => rfl
  | ok width =>
    cases Bound.read schema "minimum" "exclusiveMinimum" with
    | error e => rfl
    | ok minimum =>
      cases Bound.read schema "maximum" "exclusiveMaximum" with
      | error e => rfl
      | ok maximum => exact congrArg Except.ok (hbounds width minimum maximum)

end Scalar

namespace Schema

open Build

variable {V : Slack} {lower : Lower}

/-- Two shapes that look the same. -/
def ShapesAlike (V : Slack) (s s' : Shape) : Prop :=
  V.first.shape s = V.second.shape s'

/-- A shape without bounds looks the same as itself. -/
theorem shapesAlike_of_loosened {s : Shape} (h : s.loosened = s) : ShapesAlike V s s := by
  cases V <;> simp [ShapesAlike, Slack.first, Slack.second, View.shape, h]

theorem shapesAlike_scalar {s : Scalar} (h : s.loosened = s) :
    ShapesAlike V (.scalar s) (.scalar s) :=
  shapesAlike_of_loosened (by rw [Shape.loosened, h])

/-- A way to lower schemas that comes to items that look the same. -/
def LowersParallel (V : Slack) (lower : Lower) : Prop :=
  ∀ specName generatedName schema placement contentType, Name.Proper generatedName →
    V.admits schema →
    Parallel V (lower specName generatedName schema placement contentType)
      (lower specName generatedName schema placement contentType) (Item.Alike V)

/-! ## The keywords -/

theorem gives_schemaObject (specName : String) {schema : Document} (hd : V.admits schema) :
    Gives (schemaObject specName schema) V.admits := by
  cases schema with
  | object fields => exact .pure hd
  | bool b =>
    cases b
    · exact .throw
    · exact .pure (Slack.admits_legible rfl)
  | loop inObject =>
    cases inObject
    · exact .throw
    · exact .throw
  | _ => exact .throw

theorem gives_normalize {schema : Document} (hd : V.admits schema) :
    Gives (normalize schema) fun p => V.admits p.1 := by
  unfold normalize
  dsimp only
  split
  · rename_i types htypes
    -- the type that is left stands in the list of types
    have hothers : ∀ t ∈ types.filter (fun t => !t.isText "null"), V.admits t := by
      intro t ht
      have hlist : V.admits (.array types) := by
        have hfind := Slack.admits_find? hd "type"
        rwa [htypes] at hfind
      exact Slack.admits_element hlist rfl (List.mem_filter.mp ht).1
    split
    · exact .pure (Slack.admits_withType hd (Slack.admits_legible rfl))
    · rename_i t heq
      have ht := hothers t (by rw [heq]; exact List.mem_singleton_self t)
      exact .pure (Slack.admits_withType hd ht)
    · exact .throw
  · exact .pure hd

/-! ## Names and documentation -/

theorem titled_parallel (specName : String) {generatedName : String} (schema : Document)
    (hname : Name.Proper generatedName) :
    Parallel V (titled specName generatedName schema) (titled specName generatedName schema)
      fun p q => p = q ∧ Name.Proper p.2 := by
  refine .ite (fun _ => .skip (.require _) fun name => ?_) fun _ => .pure ⟨rfl, hname⟩
  refine .bind (.deconflict (Name.proper_upperCamel name)) fun a b ⟨hab, ha⟩ => .pure ?_
  exact ⟨by rw [hab], ha⟩

theorem documentation_parallel (specName : String) {schema : Document} (hd : V.admits schema) :
    Parallel V (documentation specName schema) (documentation specName schema) V.raw := by
  have hlegible : V = .docs true → schema.docsUrl.holds = true →
      schema.docsUrl.text?.isSome = true ∧
        ((schema.find? "description").getD .null).isReadable = true := by
    rintro rfl hholds
    obtain ⟨haddress, hdescription, _⟩ := Document.of_isLegible hd hholds
    exact ⟨haddress, hdescription⟩
  exact Parallel.documentation hlegible

/-! ## References and inline schemas -/

section

variable (hl : LowersParallel V lower)

include hl

theorem addInlineWith_parallel (specName : String) {generatedName : String} (path : Option String)
    {schema : Document} (placement : Option Placement) (contentType : Document)
    (hname : Name.Proper generatedName) (hd : V.admits schema) :
    Parallel V (addInlineWith lower specName generatedName path schema placement contentType)
      (addInlineWith lower specName generatedName path schema placement contentType) Eq :=
  .bind (hl _ _ _ _ _ hname hd) fun _ _ hitem => .addItem hitem

theorem convertWith_parallel (specName : String) {generatedName : String} (path : Option String)
    {schema : Document} (placement : Option Placement) (hname : Name.Proper generatedName)
    (hd : V.admits schema) :
    Parallel V (convertWith lower specName generatedName path schema placement)
      (convertWith lower specName generatedName path schema placement) Eq := by
  refine .ite (fun _ => addInlineWith_parallel hl _ _ _ _ hname hd) fun _ => ?_
  refine .skip (.require _) fun target => .model fun m m' hm => ?_
  rw [← hm.paths_eq]
  cases m.namedReferences.get? target with
  | some index => exact .pure rfl
  | none =>
    dsimp only
    cases hfound : if WellKnown.isExternal target then WellKnown.find? target else none with
    | none => exact .pure rfl
    | some scalar =>
      refine .addScalar hname ?_
      split at hfound
      · exact Scalar.loosened_find? hfound
      · cases hfound

/-! ## Shapes -/

omit hl in
theorem stringShape_parallel (generatedName : String) (schema : Document) (nullable : Bool) :
    Parallel V (stringShape generatedName schema nullable)
      (stringShape generatedName schema nullable) (ShapesAlike V) := by
  have hblame : Gives (blame generatedName (enumeration schema nullable))
      fun o => ∀ s ∈ o, s.loosened = s := by
    cases henum : enumeration schema nullable with
    | error e => exact .throw
    | ok o =>
      refine .pure ?_
      rintro s ⟨⟩
      obtain ⟨variants, extensible, rfl⟩ := shape_of_enumeration henum
      rfl
  refine .read hblame fun o ho => ?_
  cases o with
  | some s => exact .pure (shapesAlike_of_loosened (ho s rfl))
  | none =>
    exact .read (.require fun s hs => Scalar.loosened_ofFormat? hs) fun s hs =>
      .pure (shapesAlike_scalar hs)

theorem arrayShape_parallel (specName : String) {generatedName : String} {schema : Document}
    (hname : Name.Proper generatedName) (hd : V.admits schema) :
    Parallel V (arrayShape lower specName generatedName schema)
      (arrayShape lower specName generatedName schema) (ShapesAlike V) := by
  have hitem : Name.Proper (generatedName ++ "Item") := hname.append (by decide)
  have hrest : ∀ item : Ref, Parallel V
      (if ((schema.find? "uniqueItems").getD .null).holds
        then (return .set item : Build Shape) else return .list item)
      (if ((schema.find? "uniqueItems").getD .null).holds
        then (return .set item : Build Shape) else return .list item) (ShapesAlike V) :=
    fun item => .ite (fun _ => .pure (shapesAlike_of_loosened rfl)) fun _ =>
      .pure (shapesAlike_of_loosened rfl)
  exact .ite (fun _ => .seq (.addScalar hitem rfl) hrest) fun _ =>
    .seq (convertWith_parallel hl _ _ _ hitem (Slack.admits_find? hd _)) hrest

theorem memberOf_parallel {generatedName : String} (schema : Document) (required : List Document)
    {property : Document × Document} (hname : Name.Proper generatedName)
    (hd : V.admits property.2) :
    Parallel V (memberOf lower generatedName schema required property)
      (memberOf lower generatedName schema required property) Eq := by
  obtain ⟨key, declared⟩ := property
  refine .skip (.require _) fun name => .model fun m m' hm => ?_
  have hbare := Name.proper_upperCamel name
  have hexists : m'.identExists (Name.upperCamel name) = m.identExists (Name.upperCamel name) := by
    rw [Model.identExists, Model.identExists, hm.items_eq]
  have hqualified : Name.Proper (if m.identExists (Name.upperCamel name) then
      generatedName ++ Name.upperCamel name else Name.upperCamel name) := by
    split
    · exact hname.append hbare
    · exact hbare
  rw [hexists]
  refine .bind (.deconflict hqualified) fun ident ident' ⟨hident, hplain⟩ => ?_
  subst hident
  exact .seq (convertWith_parallel hl _ _ _ hplain hd) fun r => .pure rfl

theorem objectShape_parallel (specName : String) {generatedName : String} {schema : Document}
    (hname : Name.Proper generatedName) (hd : V.admits schema) :
    Parallel V (objectShape lower specName generatedName schema)
      (objectShape lower specName generatedName schema) (ShapesAlike V) := by
  unfold objectShape
  extract_lets properties additional jp
  have hproperties : V.admits properties := Slack.admits_orElse (Slack.admits_find? hd _) rfl
  have hadditional : V.admits additional := by
    have hfind := Slack.admits_find? hd "additionalProperties"
    simp only [additional]
    split
    · exact Slack.admits_legible rfl
    · exact hfind
  -- what comes after the check of two keywords that exclude each other
  have hjp : Parallel V (jp ()) (jp ()) (ShapesAlike V) := by
    simp only [jp]
    clear_value additional
    split
    · refine .skip (steady_requiredNames _) fun required => ?_
      refine .read (.values hproperties) fun fields hfields => ?_
      refine .seq (.mapM_eq fun property hproperty =>
        memberOf_parallel hl _ _ hname (hfields property hproperty)) fun members => ?_
      exact .pure (shapesAlike_of_loosened rfl)
    · exact .pure (shapesAlike_of_loosened rfl)
    · exact .pure (shapesAlike_of_loosened rfl)
    · exact .seq (convertWith_parallel hl _ _ _ (hname.append (by decide)) hadditional) fun value =>
        .pure (shapesAlike_of_loosened rfl)
    · exact .problem
  exact .checked hjp

theorem variantOf_parallel (specName : String) {generatedName : String} (mapping : Document)
    {alternative : Document} (hname : Name.Proper generatedName) (hd : V.admits alternative) :
    Parallel V (variantOf lower specName generatedName mapping alternative)
      (variantOf lower specName generatedName mapping alternative) Eq := by
  have hkey : ∀ key, Parallel V
      (do
        let definition ← convertWith lower specName generatedName none alternative none
        return { definition, mappingName := ← optionalText key : Variant })
      (do
        let definition ← convertWith lower specName generatedName none alternative none
        return { definition, mappingName := ← optionalText key : Variant }) Eq :=
    fun key => .seq (convertWith_parallel hl _ _ _ hname hd) fun r =>
      .skip (.optionalText _) fun _ => .pure rfl
  exact .ite (fun _ => .skip (.pure _) hkey) fun _ => .skip (steady_mappingKey _ _) hkey

theorem oneOfShape_parallel (specName : String) {generatedName : String} {schema : Document}
    (hname : Name.Proper generatedName) (hd : V.admits schema) :
    Parallel V (oneOfShape lower specName generatedName schema)
      (oneOfShape lower specName generatedName schema) (ShapesAlike V) := by
  refine .skip (.field _ _) fun discriminant => .skip (.field _ _) fun mapping => ?_
  refine .read (.elements (Slack.admits_find? hd _)) fun alternatives halternatives => ?_
  refine .seq (.mapM_eq fun alternative hmem =>
    variantOf_parallel hl _ _ hname (halternatives alternative hmem)) fun variants => ?_
  exact .skip (.optionalText _) fun _ => .pure (shapesAlike_of_loosened rfl)

theorem overrideShape_parallel (specName : String) {generatedName : String} {schema : Document}
    (hname : Name.Proper generatedName) (hd : V.admits schema) :
    Parallel V (overrideShape lower specName generatedName schema)
      (overrideShape lower specName generatedName schema) (ShapesAlike V) := by
  unfold overrideShape
  extract_lets flag jp
  have hjp : ∀ entry, V.admits entry → Parallel V (jp entry) (jp entry) (ShapesAlike V) := by
    refine fun entry hentry => .seq (convertWith_parallel hl _ _ _ hname hentry) fun r => ?_
    refine .skip (.optionalText _) fun title => .skip (.optionalText _) fun description => ?_
    exact .pure (shapesAlike_of_loosened rfl)
  split
  · rename_i entry rest hall
    have hlist : V.admits (.array (entry :: rest)) := by
      have hfind := Slack.admits_find? hd "allOf"
      rwa [hall] at hfind
    exact hjp entry (Slack.admits_element hlist rfl List.mem_cons_self)
  · exact .bind (R := fun _ _ => False) .throw fun _ _ h => h.elim

/-! ## Dispatch -/

omit hl in
/-- **The bounds of an integer are the one thing in which shapes may differ.** -/
theorem integer_parallel (generatedName : String) (schema : Document) :
    Parallel V
      (do
        let reading ← blame generatedName (Scalar.ofInteger schema (← model).boundedIntegers)
        if reading.ignoredExclusive then note .ignoredExclusive
        return Shape.scalar reading.scalar)
      (do
        let reading ← blame generatedName (Scalar.ofInteger schema (← model).boundedIntegers)
        if reading.ignoredExclusive then note .ignoredExclusive
        return Shape.scalar reading.scalar) (ShapesAlike V) := by
  refine .model fun m m' hm => ?_
  have hflag := congrArg Model.boundedIntegers hm.seen
  -- the second reading is the first one as it is seen
  have hreading : Scalar.ofInteger schema m'.boundedIntegers =
      (Scalar.ofInteger schema m.boundedIntegers).map fun reading =>
        { reading with scalar := V.first.scalar reading.scalar } := by
    cases V with
    | bounds =>
      have hfalse : m'.boundedIntegers = false := by
        simpa [View.model, Slack.first, Slack.second] using hflag.symm
      rw [hfalse]
      exact Scalar.ofInteger_false schema _
    | nothing | docs legible =>
      have hsame : m.boundedIntegers = m'.boundedIntegers := by
        simpa [View.model, Slack.first, Slack.second] using hflag
      rw [hsame]
      cases Scalar.ofInteger schema m'.boundedIntegers <;> rfl
  rw [hreading]
  cases Scalar.ofInteger schema m.boundedIntegers with
  | error e => exact .throw
  | ok reading =>
    have halike : ShapesAlike V (.scalar reading.scalar)
        (.scalar (V.first.scalar reading.scalar)) := by
      rw [ShapesAlike, View.shape_scalar, View.shape_scalar]
      cases V <;> rfl
    exact .ite (fun _ => .bind .note fun _ _ _ => .pure halike) fun _ => .pure halike

theorem typedShape_parallel (specName : String) {generatedName : String} {schema : Document}
    (nullable : Bool) (hname : Name.Proper generatedName) (hd : V.admits schema) :
    Parallel V (typedShape lower specName generatedName schema nullable)
      (typedShape lower specName generatedName schema nullable) (ShapesAlike V) := by
  unfold typedShape
  split
  · exact .pure (shapesAlike_of_loosened rfl)
  · have hnumber : Gives (blame generatedName (Scalar.ofNumber schema))
        fun s => s.loosened = s := by
      cases h : Scalar.ofNumber schema with
      | error e => exact .throw
      | ok s => exact .pure (Scalar.loosened_ofNumber h)
    exact .read hnumber fun s hs => .pure (shapesAlike_scalar hs)
  · exact integer_parallel generatedName schema
  · exact stringShape_parallel ..
  · exact arrayShape_parallel hl _ hname hd
  · exact objectShape_parallel hl _ hname hd
  · exact .pure (shapesAlike_of_loosened rfl)
  · exact .pure (shapesAlike_of_loosened rfl)
  · exact .problem

theorem shapeOf_parallel (specName : String) {generatedName : String} {schema : Document}
    (nullable singleton : Bool) (hname : Name.Proper generatedName) (hd : V.admits schema) :
    Parallel V (shapeOf lower specName generatedName schema nullable singleton)
      (shapeOf lower specName generatedName schema nullable singleton) (ShapesAlike V) := by
  refine .ite (fun _ => .problem) fun _ => ?_
  refine .ite (fun _ => oneOfShape_parallel hl _ hname hd) fun _ => ?_
  refine .ite (fun _ => ?_) fun _ => typedShape_parallel hl _ _ hname hd
  exact .ite (fun _ => overrideShape_parallel hl _ hname hd) fun _ => .problem

omit hl in
/-- The aliases around items that look the same look the same. -/
theorem wrapNullable_parallel {item item' : Item} (h : Item.Alike V item item') :
    Parallel V (wrapNullable item) (wrapNullable item') (Item.Alike V) := by
  refine .seq (.addItem h) fun inner => .nameOf fun innerName hinner => ?_
  have hmaybe : Name.Proper ("Maybe" ++ innerName) := .append (by decide) hinner
  refine .bind (.deconflict hmaybe) fun name name' ⟨heq, hname⟩ => .pure ?_
  subst heq
  rw [h.specName_eq, h.contentType_eq]
  exact .make h.said (shapesAlike_of_loosened rfl) rfl hname

theorem lowerWith_parallel : LowersParallel V (lowerWith lower) := by
  intro specName generatedName schema placement contentType hname hd
  refine .read (gives_schemaObject _ hd) fun object hobject => ?_
  refine .skip (steady_isSingleton _ _) fun single => ?_
  refine .read (gives_normalize hobject) fun ⟨schema, nullable⟩ hschema => ?_
  refine .bind (titled_parallel _ _ hname) fun ⟨specName, generatedName⟩ _ ⟨heq, hname⟩ => ?_
  subst heq
  refine .bind (shapeOf_parallel hl _ _ _ hname hschema) fun shape shape' hshape => ?_
  refine .bind (documentation_parallel _ hschema) fun docs docs' hdocs => ?_
  refine .bind (.textOrNull hdocs) fun docs docs' hdocs => ?_
  refine .skip (.optionalText _) fun contentType => ?_
  have halike : ∀ newtype pubTypedef, Item.Alike V
      { docs, specName, generatedName, newtype, pubTypedef, shape, contentType }
      { docs := docs', specName, generatedName, newtype, pubTypedef, shape := shape',
        contentType } :=
    fun _ _ => .make hdocs hshape rfl hname
  exact .ite (fun _ => wrapNullable_parallel (halike _ _)) fun _ => .pure (halike _ _)

end

/-! ## Schemas of any depth -/

theorem lowerNested_parallel (bound : Nat) : LowersParallel V (lowerNested bound) := by
  induction bound with
  | zero => exact fun _ _ _ _ _ _ _ => .throw
  | succ bound ih => exact lowerWith_parallel ih

/-- **Lowering makes items that look the same.** -/
theorem lower_parallel : LowersParallel V Schema.lower :=
  fun _ _ _ _ _ hname hd => lowerNested_parallel _ _ _ _ _ _ hname hd

theorem addInline_parallel (specName : String) {generatedName : String} (path : Option String)
    {schema : Document} (placement : Option Placement) (contentType : Document)
    (hname : Name.Proper generatedName) (hd : V.admits schema) :
    Parallel V (addInline specName generatedName path schema placement contentType)
      (addInline specName generatedName path schema placement contentType) Eq :=
  addInlineWith_parallel lower_parallel _ _ _ _ hname hd

theorem convert_parallel (specName : String) {generatedName : String} (path : Option String)
    {schema : Document} (placement : Option Placement) (hname : Name.Proper generatedName)
    (hd : V.admits schema) :
    Parallel V (convert specName generatedName path schema placement)
      (convert specName generatedName path schema placement) Eq :=
  convertWith_parallel lower_parallel _ _ _ hname hd

end Schema

end TypedApi
