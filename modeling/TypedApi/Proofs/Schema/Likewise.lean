import TypedApi.Proofs.Build.Likewise
import TypedApi.Proofs.Document.Fields
import TypedApi.Schema.Lowering
/-!
Lowering two spellings of a schema.

The schemas that stand in one place of two documents are lowered to the same
item. The keywords of their objects are the same where they are read as they
stand; the schemas inside are lowered in the same order, and where one of them
is true and the other the empty object, both are lowered as the empty object.
-/

set_option autoImplicit false

namespace TypedApi

namespace Schema

open Build Document

variable {P : Role → Document → Document → Prop} {lower lower' : Lower}

/-! ## Places and keywords -/

/-- Whether the `required` keyword of the object that a property belongs to can be asked for its
name. -/
def Asks (placement : Option Placement) : Prop :=
  ∀ p ∈ placement, ((p.required.orElse (.array [])).mentions? p.property).isSome = true

/-- Two ways to lower that come to the same item for schemas in one place. -/
def LowersLikewise (P : Role → Document → Document → Prop) (lower lower' : Lower) : Prop :=
  ∀ boolean specName generatedName schema schema' placement contentType,
    P (.schema boolean) schema schema' → (boolean = true → Asks placement) →
    Likewise (lower specName generatedName schema placement contentType)
      (lower' specName generatedName schema' placement contentType) Eq

/-- What the keywords of two schemas have in common. -/
structure Keywords (P : Role → Document → Document → Prop) (v v' : Document) : Prop where
  has : ∀ key, v.hasField key = v'.hasField key
  plain : ∀ key ∈ (Role.schema true).keywords, v.find? key = v'.find? key
  properties : Option.Rel (P (.map (.schema (Role.asksRequired v)))) (v.find? "properties")
    (v'.find? "properties")
  inner : ∀ key ∈ ["items", "additionalProperties"],
    Option.Rel (P (.schema true)) (v.find? key) (v'.find? key)
  listed : ∀ key ∈ ["oneOf", "allOf"],
    Option.Rel (P (.list (.schema true))) (v.find? key) (v'.find? key)

/-- What is no property is not asked for. -/
theorem asks_none : Asks none := nofun

/-- The empty object is no override, whatever it is a property of. -/
theorem isSingleton_empty {placement : Option Placement} (h : Asks placement) :
    isSingleton placement (.object []) = pure false := by
  cases placement with
  | none => rfl
  | some p =>
    obtain ⟨required, hrequired⟩ := Option.isSome_iff_exists.mp (h p rfl)
    simp only [isSingleton, hrequired]
    cases p.declared <;> cases required <;> rfl

/-- Whether a question can be answered does not depend on what is asked for. -/
theorem isSome_mentions? (v : Document) (key other : String) :
    (v.mentions? key).isSome = (v.mentions? other).isSome := by
  cases v <;> rfl

namespace Keywords

theorem of_read (hP : Inherited P) {boolean : Bool} {v v' : Document}
    (h : P (.schema boolean) v v') : Keywords P v v' where
  has := hP.hasField_eq h
  plain key hkey := hP.find?_eq h key (show key ∈ (Role.schema boolean).keywords from hkey)
  properties := hP.find? h _ rfl
  inner key hkey := by
    rcases List.mem_pair.mp hkey with rfl | rfl <;> exact hP.find? h _ rfl
  listed key hkey := by
    rcases List.mem_pair.mp hkey with rfl | rfl <;> exact hP.find? h _ rfl

/-- Values without fields have no keywords. -/
theorem of_find?_eq_none {v v' : Document} (h : ∀ key, v.find? key = none)
    (h' : ∀ key, v'.find? key = none) : Keywords P v v' where
  has key := by rw [hasField, hasField, h, h']
  plain key _ := by rw [h, h']
  properties := by rw [h, h']; exact .none
  inner key _ := by rw [h, h']; exact .none
  listed key _ := by rw [h, h']; exact .none

end Keywords

section

variable {v v' : Document} (hk : Keywords P v v')

include hk

/-! ## What is read as it stands -/

omit hk in
/-- The type is written anew on both sides. -/
theorem withType_keywords {fields fields' : List (Document × Document)}
    (hk : Keywords P (.object fields) (.object fields')) (type : Document) :
    Keywords P ((Document.object fields).withField "type" type)
      ((Document.object fields').withField "type" type) where
  has key := by
    have hfield := hk.has key
    rw [hasField, hasField] at hfield ⊢
    rw [find?_withField, find?_withField]
    split
    · rfl
    · exact hfield
  plain key hkey := by
    rw [find?_withField, find?_withField, hk.plain key hkey]
  properties := by
    have hrequired : Role.asksRequired ((Document.object fields).withField "type" type) =
        Role.asksRequired (.object fields) := by
      rw [Role.asksRequired, Role.asksRequired, find?_withField, if_neg (by decide)]
    rw [hrequired, find?_withField, find?_withField, if_neg (by decide), if_neg (by decide)]
    exact hk.properties
  inner key hkey := by
    have hne : "type" ≠ key := by
      rintro rfl
      simp at hkey
    rw [find?_withField, find?_withField, if_neg hne, if_neg hne]
    exact hk.inner key hkey
  listed key hkey := by
    have hne : "type" ≠ key := by
      rintro rfl
      simp at hkey
    rw [find?_withField, find?_withField, if_neg hne, if_neg hne]
    exact hk.listed key hkey

/-- The object forms of two spellings. -/
theorem schemaObject_likewise (hroot : Akin v v' ∨ Swapped v v') (specName : String) :
    Likewise (schemaObject specName v) (schemaObject specName v') fun o o' =>
      Keywords P o o' ∧ (Akin v v' ∨ o = .object [] ∧ o' = .object []) := by
  have hempty : Keywords P (.object []) (.object []) :=
    .of_find?_eq_none (fun _ => rfl) fun _ => rfl
  rcases hroot with hakin | hswapped
  · cases hakin with
    | same v =>
      cases v with
      | object fields => exact .pure ⟨hk, .inl (.same _)⟩
      | bool b =>
        cases b with
        | false => exact .problem rfl
        | true => exact .pure ⟨hempty, .inl (.same _)⟩
      | loop inObject =>
        cases inObject with
        | false => exact .problem rfl
        | true => exact .throw rfl
      | _ => exact .problem rfl
    | array => exact .problem rfl
    | pair => exact .problem rfl
    | object hfields => exact .pure ⟨hk, .inl (.object hfields)⟩
  · cases hswapped with
    | empty => exact .pure ⟨hempty, .inr ⟨rfl, rfl⟩⟩
    | full => exact .pure ⟨hempty, .inr ⟨rfl, rfl⟩⟩

theorem normalize_likewise :
    Likewise (normalize v) (normalize v') fun p p' => Keywords P p.1 p'.1 ∧ p.2 = p'.2 := by
  have htype := hk.plain "type" (by decide)
  rw [normalize, normalize, ← htype, ← hk.plain "nullable" (by decide)]
  dsimp only
  split
  · rename_i types hfind
    obtain ⟨fields, rfl⟩ := exists_fields_of_find? hfind
    obtain ⟨fields', rfl⟩ := exists_fields_of_find? (htype ▸ hfind)
    split
    · exact .pure ⟨withType_keywords hk _, rfl⟩
    · exact .pure ⟨withType_keywords hk _, rfl⟩
    · exact .problem rfl
  · exact .pure ⟨hk, rfl⟩

theorem titled_eq (specName generatedName : String) :
    titled specName generatedName v = titled specName generatedName v' := by
  rw [titled, titled, hk.plain "title" (by decide)]

theorem documentation_eq (specName : String) : documentation specName v = documentation specName v' := by
  rw [documentation, documentation, hk.plain "externalDocs" (by decide),
    hk.plain "description" (by decide)]

theorem enumerated_eq : enumerated v = enumerated v' := by
  rw [enumerated, enumerated, hk.plain "enum" (by decide), hk.plain "x-extensible-enum" (by decide)]

theorem inferType_eq : inferType v = inferType v' := by
  rw [inferType, inferType, hk.has, hk.has, hk.has, enumerated_eq hk]

theorem stringShape_eq (generatedName : String) (nullable : Bool) :
    stringShape generatedName v nullable = stringShape generatedName v' nullable := by
  rw [stringShape, stringShape, enumeration, enumeration, hk.plain "enum" (by decide),
    hk.plain "x-extensible-enum" (by decide), hk.plain "format" (by decide)]

theorem ofNumber_eq : Scalar.ofNumber v = Scalar.ofNumber v' := by
  have hget : ∀ d : Document, (d.get? "format").getD .null = (d.find? "format").getD .null := by
    intro d
    cases d <;> rfl
  rw [Scalar.ofNumber, Scalar.ofNumber, hget, hget, hk.plain "format" (by decide)]

theorem ofInteger_eq (bounded : Bool) : Scalar.ofInteger v bounded = Scalar.ofInteger v' bounded := by
  simp only [Scalar.ofInteger, Bound.read, hk.plain "format" (by decide),
    hk.plain "minimum" (by decide), hk.plain "maximum" (by decide),
    hk.plain "exclusiveMinimum" (by decide), hk.plain "exclusiveMaximum" (by decide)]

theorem requiredNames_eq : requiredNames v = requiredNames v' := by
  rw [requiredNames, requiredNames, hk.plain "required" (by decide)]

end

/-! ## References and inline schemas -/

section

variable {boolean : Bool} {v v' : Document}

theorem addInlineWith_likewise (hl : LowersLikewise P lower lower')
    (specName generatedName : String) (path : Option String) (placement : Option Placement)
    (contentType : Document) (h : P (.schema boolean) v v')
    (hasks : boolean = true → Asks placement) :
    Likewise (addInlineWith lower specName generatedName path v placement contentType)
      (addInlineWith lower' specName generatedName path v' placement contentType) Eq :=
  .skip (hl _ _ _ _ _ _ _ h hasks) fun _ => .rfl _

variable (hP : Inherited P)

include hP

theorem referenceOf_eq (h : P (.schema boolean) v v') : referenceOf v = referenceOf v' := by
  rw [referenceOf, referenceOf, (Keywords.of_read hP h).plain "$ref" (by decide)]

/-- Neither true nor the empty object is null. -/
theorem isNull_eq (h : P (.schema boolean) v v') : v.isNull = v'.isNull := by
  rcases hP.akin _ v v' h with hakin | ⟨_, hswapped⟩
  · exact hakin.isNull_eq
  · cases hswapped <;> rfl

theorem isNull_eq_of_given (h : Given P (.schema boolean) v v') : v.isNull = v'.isNull :=
  h.elim (R := fun v v' => v.isNull = v'.isNull) (fun _ _ => isNull_eq hP) fun _ => rfl

/-- Access flags are read from objects, and neither true nor the empty object has one. -/
theorem flag_eq (h : P (.schema boolean) v v') {keyword : String}
    (hkeyword : keyword ∈ (Role.schema true).keywords) :
    (v.isObject && !v.hasField "$ref" && ((v.find? keyword).getD .null).holds) =
      (v'.isObject && !v'.hasField "$ref" && ((v'.find? keyword).getD .null).holds) := by
  rcases hP.akin _ v v' h with hakin | ⟨_, hswapped⟩
  · rw [hakin.isObject_eq, hP.hasField_eq h, (Keywords.of_read hP h).plain keyword hkeyword]
  · cases hswapped <;> rfl

variable (hl : LowersLikewise P lower lower')

include hl

theorem convertWith_likewise (specName generatedName : String) (path : Option String)
    (placement : Option Placement) (h : P (.schema boolean) v v')
    (hasks : boolean = true → Asks placement) :
    Likewise (convertWith lower specName generatedName path v placement)
      (convertWith lower' specName generatedName path v' placement) Eq := by
  rw [convertWith, convertWith, referenceOf_eq hP h]
  exact .ite (fun _ => addInlineWith_likewise hl _ _ _ _ _ h hasks) fun _ => .rfl _

/-- A schema that is no property. -/
theorem convertInner_likewise (specName generatedName : String) (path : Option String)
    (h : P (.schema boolean) v v') :
    Likewise (convertWith lower specName generatedName path v none)
      (convertWith lower' specName generatedName path v' none) Eq :=
  convertWith_likewise hP hl _ _ _ _ h fun _ => asks_none

/-! ## Shapes -/

theorem arrayShape_likewise (hk : Keywords P v v') (specName generatedName : String) :
    Likewise (arrayShape lower specName generatedName v)
      (arrayShape lower' specName generatedName v') Eq := by
  have hitems := hk.inner "items" (by decide)
  rw [arrayShape, arrayShape, hk.plain "uniqueItems" (by decide)]
  generalize v.find? "items" = o at hitems ⊢
  generalize v'.find? "items" = o' at hitems ⊢
  cases hitems with
  | none => exact .rfl _
  | some h =>
    exact .cond (isNull_eq hP h) (fun _ => .rfl _) fun _ =>
      .skip (convertInner_likewise hP hl _ _ _ h) fun _ => .rfl _

theorem memberOf_likewise (hk : Keywords P v v') (generatedName : String)
    (required : List Document) {p p' : Document × Document}
    (hp : Entry P (.schema (Role.asksRequired v)) p p') :
    Likewise (memberOf lower generatedName v required p) (memberOf lower' generatedName v' required p')
      Eq := by
  obtain ⟨key, x⟩ := p
  obtain ⟨key', x'⟩ := p'
  obtain ⟨rfl, h⟩ := hp
  rw [memberOf, memberOf, ← hk.plain "required" (by decide)]
  dsimp only
  refine .next fun name => .next fun m => .next fun ident => ?_
  refine .skip (convertWith_likewise hP hl _ _ _ _ h fun hasks => ?_) fun definition => ?_
  · rintro p ⟨⟩
    rw [isSome_mentions? _ _ ""]
    exact hasks
  · rw [flag_eq hP h (by decide), flag_eq hP h (by decide)]
    exact .rfl _

/-- The properties become the members one by one. -/
theorem members_likewise (hk : Keywords P v v') (generatedName : String)
    {properties properties' : Document}
    (h : Given P (.map (.schema (Role.asksRequired v))) properties properties') :
    Likewise
      (do
        let required ← requiredNames v
        let members ← (← require properties.fields?).mapM (memberOf lower generatedName v required)
        return Shape.object members)
      (do
        let required ← requiredNames v'
        let members ←
          (← require properties'.fields?).mapM (memberOf lower' generatedName v' required)
        return Shape.object members) Eq := by
  rw [← requiredNames_eq hk]
  refine .next fun required => .bind (.require (h.fields? hP)) fun fields fields' hfields => ?_
  exact .skip (.mapM_eq hfields fun _ _ hp => memberOf_likewise hP hl hk _ _ hp) fun _ => .rfl _

omit hl in
/-- The schema for all further fields; the one that admits nothing counts as none. -/
theorem further_given {o o' : Option Document} (h : Option.Rel (P (.schema true)) o o') :
    Given P (.schema true)
      (match o.getD .null with
        | .bool false => .null
        | d => d)
      (match o'.getD .null with
        | .bool false => .null
        | d => d) := by
  cases h with
  | none => exact .null
  | @some a a' h =>
    rcases hP.akin _ a a' h with hakin | ⟨_, hswapped⟩
    · cases hakin with
      | same a =>
        cases a with
        | bool b =>
          cases b with
          | false => exact .null
          | true => exact .read h
        | _ => exact .read h
      | array => exact .read h
      | pair => exact .read h
      | object => exact .read h
    · cases hswapped with
      | empty => exact .read h
      | full => exact .read h

/-- A map whose values have a schema. -/
theorem mapShape_likewise (specName generatedName : String)
    (h : P (.schema boolean) v v') :
    Likewise
      (do
        let value ← convertWith lower specName (generatedName ++ "Item") none v none
        return Shape.map (some value))
      (do
        let value ← convertWith lower' specName (generatedName ++ "Item") none v' none
        return Shape.map (some value)) Eq :=
  .skip (convertInner_likewise hP hl _ _ _ h) fun _ => .rfl _

theorem objectShape_likewise (hk : Keywords P v v') (specName generatedName : String) :
    Likewise (objectShape lower specName generatedName v)
      (objectShape lower' specName generatedName v') Eq := by
  have hproperties : Given P (.map (.schema (Role.asksRequired v)))
      (((v.find? "properties").getD .null).orElse (.object []))
      (((v'.find? "properties").getD .null).orElse (.object [])) :=
    (Given.of_rel hk.properties).orElse hP nofun .noFields
  have hmembers := members_likewise hP hl hk generatedName hproperties
  have hadditional := further_given hP (hk.inner "additionalProperties" (by decide))
  unfold objectShape
  extract_lets properties additional jp properties' additional' jp'
  -- what comes after the check of two keywords that exclude each other
  have hjp : Likewise (jp ()) (jp' ()) Eq := by
    simp only [jp, jp']
    change Given P (.schema true) additional additional' at hadditional
    clear_value additional additional'
    cases hadditional with
    | null => exact hmembers
    | noFields => exact .rfl _
    | noItems => exact .problem rfl
    | read h =>
      rcases hP.akin _ _ _ h with hakin | ⟨_, hswapped⟩
      · cases hakin with
        | same =>
          cases additional with
          | null => exact hmembers
          | object fields =>
            cases fields with
            | nil => exact .rfl _
            | cons f fs => exact mapShape_likewise hP hl _ _ h
          | bool b => cases b <;> exact .rfl _
          | _ => exact .rfl _
        | array => exact .problem rfl
        | pair => exact .problem rfl
        | @object fields fields' hfields =>
          cases fields with
          | nil =>
            obtain rfl : fields' = [] := by simpa using hfields.symm
            exact .rfl _
          | cons f fs =>
            cases fields' with
            | nil => cases hfields
            | cons f' fs' => exact mapShape_likewise hP hl _ _ h
      · cases hswapped with
        | empty => exact .pure rfl
        | full => exact .pure rfl
  have hnull : additional.isNull = additional'.isNull := isNull_eq_of_given hP hadditional
  have hholds : properties.holds = properties'.holds :=
    (hproperties.akin_of_ne hP nofun).holds_eq
  exact .cond (by rw [hnull, hholds]) (fun _ => .problem_bind rfl) fun _ => hjp

/-! ## Unions -/

theorem variantOf_likewise (specName generatedName : String) (mapping : Document)
    (h : P (.schema boolean) v v') :
    Likewise (variantOf lower specName generatedName mapping v)
      (variantOf lower' specName generatedName mapping v') Eq := by
  rw [variantOf, variantOf, referenceOf_eq hP h]
  refine .ite (fun _ => .next fun key => ?_) fun _ => .next fun key => ?_
  · exact .skip (convertInner_likewise hP hl _ _ _ h) fun _ => .rfl _
  · exact .skip (convertInner_likewise hP hl _ _ _ h) fun _ => .rfl _

theorem oneOfShape_likewise (hk : Keywords P v v') (specName generatedName : String) :
    Likewise (oneOfShape lower specName generatedName v)
      (oneOfShape lower' specName generatedName v') Eq := by
  have halternatives := (Given.of_rel (hk.listed "oneOf" (by decide))).elements? hP
  rw [oneOfShape, oneOfShape, hk.plain "discriminator" (by decide)]
  refine .next fun discriminant => .next fun mapping => .bind (.require halternatives)
    fun alternatives alternatives' h => ?_
  exact .skip (.mapM_eq h fun _ _ h => variantOf_likewise hP hl _ _ _ h) fun _ => .rfl _

omit hl in
/-- An `allOf` is an array on both sides, or on neither. -/
theorem entries_rel {o o' : Option Document} (h : Option.Rel (P (.list (.schema true))) o o') :
    (∃ items items', o = some (.array items) ∧ o' = some (.array items') ∧
      List.Forall₂ (P (.schema true)) items items') ∨
    (∀ items, o ≠ some (.array items)) ∧ ∀ items, o' ≠ some (.array items) := by
  cases h with
  | none => exact .inr ⟨nofun, nofun⟩
  | @some a a' h =>
    have hitems := hP.elements? h
    have hakin := hP.akin_of_ne h nofun
    cases a with
    | array items =>
      cases a' with
      | array items' =>
        cases hitems with
        | some hitems => exact .inl ⟨items, items', rfl, rfl, hitems⟩
      | _ => cases hakin
    | _ => cases hakin <;> exact .inr ⟨nofun, nofun⟩

theorem overrideShape_likewise (hk : Keywords P v v') (specName generatedName : String) :
    Likewise (overrideShape lower specName generatedName v)
      (overrideShape lower' specName generatedName v') Eq := by
  have hentries := entries_rel hP (hk.listed "allOf" (by decide))
  unfold overrideShape
  extract_lets flag jp flag' jp'
  have hjp : ∀ e e', P (.schema true) e e' → Likewise (jp e) (jp' e') Eq := by
    intro e e' h
    simp only [jp, jp', flag, flag', hk.plain "readOnly" (by decide),
      hk.plain "writeOnly" (by decide), hk.plain "title" (by decide),
      hk.plain "description" (by decide)]
    exact .skip (convertInner_likewise hP hl _ _ _ h) fun _ => .rfl _
  rcases hentries with ⟨items, items', h, h', hitems⟩ | ⟨h, h'⟩
  · rw [h, h']
    cases hitems with
    | nil => exact .bind (R := fun _ _ => False) (.throw rfl) fun _ _ hab => hab.elim
    | cons he _ => exact hjp _ _ he
  · split
    · exact absurd ‹_› (h _)
    · split
      · exact absurd ‹_› (h' _)
      · exact .bind (R := fun _ _ => False) (.throw rfl) fun _ _ hab => hab.elim

omit hl in
/-- Whether a property is an override: a reference in place of an object is looked for in vain on
both sides where one is true and the other the empty object. -/
theorem isSingleton_likewise (hk : Keywords P v v') (placement : Option Placement) :
    Likewise (isSingleton placement v) (isSingleton placement v') Eq := by
  have hentries := entries_rel hP (hk.listed "allOf" (by decide))
  rw [isSingleton.eq_def, isSingleton.eq_def]
  cases placement with
  | none => exact .rfl _
  | some p =>
    refine .ite (fun _ => .rfl _) fun _ => .next fun required => .ite (fun _ => .rfl _) fun _ => ?_
    rcases hentries with ⟨items, items', h, h', hitems⟩ | ⟨h, h'⟩
    · rw [h, h']
      cases hitems with
      | nil => exact .rfl _
      | cons he hrest =>
        cases hrest with
        | nil => exact .pure (hP.hasField_eq he _)
        | cons => exact .rfl _
    · split
      · exact absurd ‹_› (h _)
      · split
        · exact absurd ‹_› (h' _)
        · exact .rfl _

/-! ## Dispatch -/

theorem typedShape_likewise (hk : Keywords P v v') (specName generatedName : String)
    (nullable : Bool) :
    Likewise (typedShape lower specName generatedName v nullable)
      (typedShape lower' specName generatedName v' nullable) Eq := by
  rw [typedShape, typedShape, hk.plain "type" (by decide), inferType_eq hk, ofNumber_eq hk,
    stringShape_eq hk]
  split
  · exact .rfl _
  · exact .rfl _
  · simp only [ofInteger_eq hk]
    exact .rfl _
  · exact .rfl _
  · exact arrayShape_likewise hP hl hk ..
  · exact objectShape_likewise hP hl hk ..
  · exact .rfl _
  · exact .rfl _
  · exact .rfl _

theorem shapeOf_likewise (hk : Keywords P v v') (specName generatedName : String)
    (nullable singleton : Bool) :
    Likewise (shapeOf lower specName generatedName v nullable singleton)
      (shapeOf lower' specName generatedName v' nullable singleton) Eq := by
  rw [shapeOf, shapeOf, hk.has, hk.has, hk.has, hk.has]
  refine .ite (fun _ => .rfl _) fun _ => .ite (fun _ => oneOfShape_likewise hP hl hk ..) fun _ => ?_
  refine .ite (fun _ => ?_) fun _ => typedShape_likewise hP hl hk ..
  exact .ite (fun _ => overrideShape_likewise hP hl hk ..) fun _ => .rfl _

/-- **A schema is lowered to the same item in both spellings**, if the schemas inside are. -/
theorem lowerWith_likewise (hk : Keywords P v v') {placement : Option Placement}
    (hroot : Akin v v' ∨ Swapped v v' ∧ Asks placement) (specName generatedName : String)
    (contentType : Document) :
    Likewise (lowerWith lower specName generatedName v placement contentType)
      (lowerWith lower' specName generatedName v' placement contentType) Eq := by
  refine .bind (schemaObject_likewise hk (hroot.imp_right And.left) _) fun o o' ⟨ho, hform⟩ => ?_
  have hsingleton : Likewise (isSingleton (if v.isObject then placement else none) o)
      (isSingleton (if v'.isObject then placement else none) o') Eq := by
    rcases hroot with hakin | ⟨hswapped, hasks⟩
    · rw [hakin.isObject_eq]
      exact isSingleton_likewise hP ho _
    · obtain ⟨rfl, rfl⟩ : o = .object [] ∧ o' = .object [] := by
        refine hform.resolve_left fun hakin => ?_
        cases hswapped <;> cases hakin
      have hempty : ∀ c : Bool, isSingleton (if c then placement else none) (.object []) =
          pure false := by
        intro c
        cases c with
        | false => exact isSingleton_empty asks_none
        | true => exact isSingleton_empty hasks
      rw [hempty, hempty]
      exact .rfl _
  refine .skip hsingleton fun singleton => .bind (normalize_likewise ho) ?_
  rintro ⟨schema, nullable⟩ ⟨schema', _⟩ ⟨hschema, rfl⟩
  dsimp only
  rw [titled_eq hschema]
  refine .next fun ⟨specName, generatedName⟩ => .skip (shapeOf_likewise hP hl hschema ..) fun shape => ?_
  dsimp only
  rw [documentation_eq hschema, hschema.plain "x-newtype" (by decide),
    hschema.plain "x-pub-typedef" (by decide)]
  exact .rfl _

end

/-! ## Schemas of any depth -/

/-- Whether a bound on the nesting leaves room for a value; a scalar needs no more than some. -/
def Room (n : Nat) (v : Document) : Prop :=
  v.depth < n ∨ 0 < n ∧ v.isKey = true

theorem Room.find? {n : Nat} {v x : Document} {key : String} (h : Room (n + 1) v)
    (hx : v.find? key = some x) : Room n x := by
  have hdepth := depth_lt_of_find? hx
  obtain ⟨fields, rfl⟩ := exists_fields_of_find? hx
  rcases h with h | ⟨_, hkey⟩
  · exact .inl (by omega)
  · cases hkey

theorem Room.value {n : Nat} {fields : List (Document × Document)} {key x : Document}
    (h : Room n (.object fields)) (hx : (key, x) ∈ fields) : Room n x := by
  have hdepth := depth_le_depthOfFields hx
  rcases h with h | ⟨_, hkey⟩
  · rw [depth] at h
    exact .inl (by omega)
  · cases hkey

/-- The elements of what is no array are scalars. -/
theorem Room.element {n : Nat} {v x : Document} {items : List Document} (h : Room n v)
    (hkeys : v.hasScalarKeys = true) (hitems : v.elements? = some items) (hx : x ∈ items) :
    Room n x := by
  have hpos : 0 < n := by
    rcases h with h | h
    · omega
    · exact h.1
  cases v with
  | array members =>
    cases hitems
    have hdepth := depth_le_depthOfItems hx
    rcases h with h | ⟨_, hkey⟩
    · rw [depth] at h
      exact .inl (by omega)
    · cases hkey
  | pair a b =>
    cases hitems
    rcases h with h | ⟨_, hkey⟩
    · rw [depth] at h
      rcases List.mem_pair.mp hx with rfl | rfl
      · exact .inl (by omega)
      · exact .inl (by omega)
    · rw [isKey, Bool.and_eq_true] at hkey
      rcases List.mem_pair.mp hx with rfl | rfl
      · exact .inr ⟨hpos, hkey.1⟩
      · exact .inr ⟨hpos, hkey.2⟩
  | collection members =>
    cases hitems
    exact .inr ⟨hpos, List.all_eq_true.mp hkeys x hx⟩
  | object fields =>
    cases hitems
    obtain ⟨p, hp, rfl⟩ := List.mem_map.mp hx
    exact .inr ⟨hpos, List.all_eq_true.mp hkeys p hp⟩
  | text s =>
    cases hitems
    obtain ⟨c, _, rfl⟩ := List.mem_map.mp hx
    exact .inr ⟨hpos, rfl⟩
  | bytes bs =>
    cases hitems
    obtain ⟨b, _, rfl⟩ := List.mem_map.mp hx
    exact .inr ⟨hpos, rfl⟩
  | _ => cases hitems

/-- Values in one role, with the same bound on both sides or with room for both. -/
def Fitting (d d' : Document) (n n' : Nat) (ρ : Role) (v v' : Document) : Prop :=
  ReadAs d d' ρ v v' ∧ (n = n' ∨ Room n v ∧ Room n' v')

section

variable {d d' : Document} (hd : Respelled d d')

include hd

theorem inherited_fitting (n n' : Nat) : Inherited (Fitting d d' n n') where
  data v v' h := hd.data v v' h.1
  akin ρ v v' h := hd.inherited.akin ρ v v' h.1
  value ρ σ fields fields' i key x x' h hx hx' hσ := by
    refine ⟨.value h.1 hx hx' hσ, h.2.imp_right fun hroom => ?_⟩
    exact ⟨hroom.1.value (List.mem_of_getElem? hx), hroom.2.value (List.mem_of_getElem? hx')⟩
  element σ v v' items items' i x x' h hitems hitems' hx hx' := by
    refine ⟨.element h.1 hitems hitems' hx hx', h.2.imp_right fun hroom => ?_⟩
    exact ⟨hroom.1.element (hd.keys _ v v' h.1).1 hitems (List.mem_of_getElem? hx),
      hroom.2.element (hd.keys _ v v' h.1).2 hitems' (List.mem_of_getElem? hx')⟩

/-- The schemas inside have room in a bound that is lower by one. -/
theorem keywords_fitting {n n' : Nat} {boolean : Bool} {v v' : Document}
    (h : Fitting d d' (n + 1) (n' + 1) (.schema boolean) v v') :
    Keywords (Fitting d d' n n') v v' := by
  have hk := Keywords.of_read hd.inherited h.1
  have hrel : ∀ {key : String} {σ : Role}, Option.Rel (ReadAs d d' σ) (v.find? key) (v'.find? key) →
      Option.Rel (Fitting d d' n n' σ) (v.find? key) (v'.find? key) := by
    intro key σ hfind
    have hroom : ∀ x x', v.find? key = some x → v'.find? key = some x' →
        n = n' ∨ Room n x ∧ Room n' x' := by
      intro x x' hx hx'
      rcases h.2 with heq | ⟨hroom, hroom'⟩
      · exact .inl (by omega)
      · exact .inr ⟨hroom.find? hx, hroom'.find? hx'⟩
    generalize v.find? key = o at hfind hroom ⊢
    generalize v'.find? key = o' at hfind hroom ⊢
    cases hfind with
    | none => exact .none
    | some hread => exact .some ⟨hread, hroom _ _ rfl rfl⟩
  exact ⟨hk.has, hk.plain, hrel hk.properties, fun key hkey => hrel (hk.inner key hkey),
    fun key hkey => hrel (hk.listed key hkey)⟩

/-- Two spellings of a schema are lowered to the same item within bounds that leave room for both;
the induction is on the bound. -/
theorem lowerNested_likewise (n n' : Nat) :
    LowersLikewise (Fitting d d' n n') (lowerNested n) (lowerNested n') := by
  induction n generalizing n' with
  | zero =>
    cases n' with
    | zero => exact fun _ _ _ _ _ _ _ _ _ => .throw rfl
    | succ n' =>
      rintro _ _ _ _ _ _ _ ⟨_, heq | ⟨hroom, _⟩⟩ _
      · cases heq
      · simp [Room] at hroom
  | succ n ih =>
    cases n' with
    | zero =>
      rintro _ _ _ _ _ _ _ ⟨_, heq | ⟨_, hroom⟩⟩ _
      · cases heq
      · simp [Room] at hroom
    | succ n' =>
      intro boolean specName generatedName v v' placement contentType h hasks
      refine lowerWith_likewise (inherited_fitting hd n n') (ih n') (keywords_fitting hd h) ?_ _ _ _
      rcases hd.inherited.akin _ v v' h.1 with hakin | ⟨hρ, hswapped⟩
      · exact .inl hakin
      · cases hρ
        exact .inr ⟨hswapped, hasks rfl⟩

/-- **A schema is lowered to the same item in both spellings.** -/
theorem lower_likewise : LowersLikewise (ReadAs d d') Schema.lower Schema.lower := by
  intro boolean specName generatedName v v' placement contentType h hasks
  refine lowerNested_likewise hd _ _ boolean _ _ v v' _ _ ⟨h, ?_⟩ hasks
  have hdepth := depth_le_of_emptied_eq (h.emptied_eq hd.emptied_eq)
  have hdepth' := depth_le_of_emptied_eq (h.emptied_eq hd.emptied_eq).symm
  simp only [Room, maxNesting]
  omega

variable {boolean : Bool} {v v' : Document}

theorem lower_given (h : Given (ReadAs d d') (.schema boolean) v v')
    (specName generatedName : String) (contentType : Document) :
    Likewise (Schema.lower specName generatedName v none contentType)
      (Schema.lower specName generatedName v' none contentType) Eq :=
  h.elim (R := fun v v' => Likewise (Schema.lower specName generatedName v none contentType)
      (Schema.lower specName generatedName v' none contentType) Eq)
    (fun _ _ h => lower_likewise hd _ _ _ _ _ _ _ h fun _ => asks_none) fun _ => .rfl _

theorem addInline_likewise (h : Given (ReadAs d d') (.schema boolean) v v')
    (specName generatedName : String) (path : Option String) (contentType : Document) :
    Likewise (addInline specName generatedName path v none contentType)
      (addInline specName generatedName path v' none contentType) Eq :=
  .skip (lower_given hd h _ _ _) fun _ => .rfl _

theorem convert_likewise (h : Given (ReadAs d d') (.schema boolean) v v')
    (specName generatedName : String) (path : Option String) :
    Likewise (convert specName generatedName path v none)
      (convert specName generatedName path v' none) Eq :=
  h.elim (R := fun v v' => Likewise (convert specName generatedName path v none)
      (convert specName generatedName path v' none) Eq)
    (fun _ _ => convertInner_likewise hd.inherited (lower_likewise hd) _ _ _) fun _ => .rfl _

theorem referenceOf_eq_of_given (h : Given (ReadAs d d') (.schema boolean) v v') :
    referenceOf v = referenceOf v' :=
  h.elim (R := fun v v' => referenceOf v = referenceOf v')
    (fun _ _ => referenceOf_eq hd.inherited) fun _ => rfl

end

end Schema

end TypedApi
