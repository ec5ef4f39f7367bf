import TypedApi.Proofs.Build.Run
import TypedApi.Proofs.Document.Flagged
import TypedApi.Proofs.Document.Legible
import TypedApi.Schema.Lowering
/-!
Both ways to admit null are lowered alike.

A schema is normalized before anything else is read from it, and then a list of
one type and null is the same as that type with the flag. What is left is that
the schemas inside are lowered alike, whatever keyword they stand under, and
that the bound on the nesting treats both forms alike. The two builds are not
only related but the same, from every workbench.
-/

set_option autoImplicit false

namespace TypedApi.Schema

open Build Document

variable {n n' : Nat} {lower lower' : Lower} {d s s' : Document}

/-! ## Values that leave room -/

/-- A value all of whose keys are scalars, with the same bound for both forms or with room for its
schemas within both bounds. -/
structure Fits (n n' : Nat) (spot : Spot) (d : Document) : Prop where
  keyed : d.everywhere hasScalarKeys = true
  room : n' = n ∨ d.levels spot ≤ n ∧ d.levels spot ≤ n'

/-- What stands under a keyword of a schema and of its flagged form. -/
inductive Rewritten (n n' : Nat) (spot : Spot) : Option Document → Option Document → Prop
  | missing : Rewritten n n' spot none none
  | given (x : Document) : Fits n n' spot x → Rewritten n n' spot (some x) (some (x.flagged spot))

/-- What two normalized schemas have in common, the second of which is the flagged form. -/
structure Matching (n n' : Nat) (s s' : Document) : Prop where
  plain : ∀ key, key ≠ "nullable" → Spot.ofKeyword key = .data → s'.find? key = s.find? key
  inner : ∀ key, Spot.ofKeyword key ≠ .data →
    Rewritten n n' (Spot.ofKeyword key) (s.find? key) (s'.find? key)

/-- Two ways to lower that are the same for a schema and for its flagged form. -/
def LowersAlike (n n' : Nat) (lower lower' : Lower) : Prop :=
  ∀ d, Fits n n' .schema d → ∀ specName generatedName placement contentType,
    lower' specName generatedName (d.flagged .schema) placement contentType =
      lower specName generatedName d placement contentType

/-- The values of a map of schemas leave room. -/
theorem Fits.value {fields : List (Document × Document)} {k x : Document}
    (h : Fits n n' .map (.object fields)) (hx : (k, x) ∈ fields) : Fits n n' .schema x := by
  refine ⟨(everywhere_field h.keyed hx).2, h.room.imp_right fun hroom => ?_⟩
  have hlevels := levels_le_of_mem_fields .map hx
  rw [levels] at hroom
  exact ⟨Nat.le_trans hlevels hroom.1, Nat.le_trans hlevels hroom.2⟩

/-- The elements of a list of schemas leave room. -/
theorem Fits.element {x : Document} {items : List Document} (h : Fits n n' .list d)
    (hitems : d.elements? = some items) (hx : x ∈ items) : Fits n n' .schema x := by
  refine ⟨everywhere_of_elements? (fun _ => rfl) (fun _ => rfl) h.keyed hitems hx,
    h.room.imp_right fun hroom => ?_⟩
  have hlevels := levels_le_of_elements? (of_everywhere h.keyed) hitems hx
  exact ⟨Nat.le_trans hlevels hroom.1, Nat.le_trans hlevels hroom.2⟩

/-- The schemas inside a schema leave room within bounds that are lower by one. -/
theorem Fits.inner (h : Fits (n + 1) (n' + 1) .schema d) {key : String} {x : Document}
    (hx : d.find? key = some x) : Fits n n' (Spot.ofKeyword key) x := by
  refine ⟨everywhere_of_find? h.keyed hx, ?_⟩
  obtain ⟨fields, rfl⟩ := exists_fields_of_find? hx
  have hlevels := levels_le_of_mem_fields .schema (mem_of_lookup? hx)
  rcases h.room with heq | hroom
  · exact .inl (by omega)
  · rw [levels] at hroom
    rw [Spot.under] at hlevels
    exact .inr (by omega)

/-- The map of schemas under a keyword, the empty one if it is not given. -/
theorem Rewritten.orElse {o o' : Option Document} (h : Rewritten n n' .map o o') :
    ∃ d, Fits n n' .map d ∧ (o.getD .null).orElse (.object []) = d ∧
      (o'.getD .null).orElse (.object []) = d.flagged .map := by
  have hempty : Fits n n' .map (.object []) := ⟨rfl, .inr ⟨Nat.zero_le _, Nat.zero_le _⟩⟩
  cases h with
  | missing => exact ⟨.object [], hempty, rfl, rfl⟩
  | given x hx =>
    rw [Option.getD_some, Option.getD_some, Document.orElse, Document.orElse, holds_flagged_map]
    by_cases hholds : x.holds = true
    · exact ⟨x, hx, if_pos hholds, if_pos hholds⟩
    · exact ⟨.object [], hempty, if_neg hholds, if_neg hholds⟩

/-- The elements of the list of schemas under a keyword. -/
theorem Rewritten.elements? {o o' : Option Document} (h : Rewritten n n' .list o o') :
    (o'.getD .null).elements? = (o.getD .null).elements?.map (List.map (flagged .schema)) ∧
      ∀ items, (o.getD .null).elements? = some items → ∀ x ∈ items, Fits n n' .schema x := by
  cases h with
  | missing => exact ⟨rfl, fun items hitems => by cases hitems⟩
  | given x hx =>
    exact ⟨elements?_flagged (of_everywhere hx.keyed), fun items hitems y hy => hx.element hitems hy⟩

/-- The schema for all further fields, where the one that admits nothing counts as none: it is the
same in both forms unless it has keywords. -/
theorem Rewritten.further {o o' : Option Document} (h : Rewritten n n' .schema o o') :
    let further : Option Document → Document := fun o =>
      match o.getD .null with
      | .bool false => .null
      | d => d
    (further o' = further o ∧ ∀ f fs, further o ≠ .object (f :: fs)) ∨
      ∃ f fs f' fs', further o = .object (f :: fs) ∧ further o' = .object (f' :: fs') ∧
        (object (f :: fs)).flagged .schema = .object (f' :: fs') ∧
        Fits n n' .schema (.object (f :: fs)) := by
  intro further
  cases h with
  | missing => exact .inl ⟨rfl, fun _ _ h => by cases h⟩
  | given x hx =>
    cases x with
    | object fields =>
      cases fields with
      | nil => exact .inl ⟨rfl, fun _ _ h => by cases h⟩
      | cons f fs =>
        obtain ⟨f', fs', heq⟩ := flagged_object_cons f fs
        refine .inr ⟨f, fs, f', fs', rfl, ?_, heq, hx⟩
        simp only [further, heq, Option.getD_some]
    | bool b => cases b <;> exact .inl ⟨rfl, fun _ _ h => by cases h⟩
    | _ => exact .inl ⟨rfl, fun _ _ h => by cases h⟩

/-! ## What is read as it stands -/

namespace Matching

theorem has (h : Matching n n' s s') {key : String} (hkey : key ≠ "nullable") :
    s'.hasField key = s.hasField key := by
  rw [hasField, hasField]
  by_cases hdata : Spot.ofKeyword key = .data
  · rw [h.plain key hkey hdata]
  · have hinner := h.inner key hdata
    generalize s.find? key = o at hinner ⊢
    generalize s'.find? key = o' at hinner ⊢
    cases hinner <;> rfl

end Matching

section

variable (h : Matching n n' s s')

include h

theorem titled_flagged (specName generatedName : String) :
    titled specName generatedName s' = titled specName generatedName s := by
  rw [titled, titled, h.plain "title" (by decide) rfl]

theorem documentation_flagged (specName : String) :
    documentation specName s' = documentation specName s := by
  rw [documentation, documentation, h.plain "externalDocs" (by decide) rfl,
    h.plain "description" (by decide) rfl]

theorem inferType_flagged : inferType s' = inferType s := by
  rw [inferType, inferType, h.has (by decide), h.has (by decide), h.has (by decide), enumerated,
    enumerated, h.plain "enum" (by decide) rfl, h.plain "x-extensible-enum" (by decide) rfl]

theorem stringShape_flagged (generatedName : String) (nullable : Bool) :
    stringShape generatedName s' nullable = stringShape generatedName s nullable := by
  rw [stringShape, stringShape, enumeration, enumeration, h.plain "enum" (by decide) rfl,
    h.plain "x-extensible-enum" (by decide) rfl, h.plain "format" (by decide) rfl]

theorem ofNumber_flagged : Scalar.ofNumber s' = Scalar.ofNumber s := by
  rw [Scalar.ofNumber, Scalar.ofNumber, getD_get?, getD_get?, h.plain "format" (by decide) rfl]

theorem ofInteger_flagged (bounded : Bool) :
    Scalar.ofInteger s' bounded = Scalar.ofInteger s bounded := by
  simp only [Scalar.ofInteger, Bound.read, h.plain "format" (by decide) rfl,
    h.plain "minimum" (by decide) rfl, h.plain "maximum" (by decide) rfl,
    h.plain "exclusiveMinimum" (by decide) rfl, h.plain "exclusiveMaximum" (by decide) rfl]

theorem requiredNames_flagged : requiredNames s' = requiredNames s := by
  rw [requiredNames, requiredNames, h.plain "required" (by decide) rfl]

end

/-! ## References and inline schemas -/

theorem referenceOf_flagged (d : Document) : referenceOf (d.flagged .schema) = referenceOf d := by
  rw [referenceOf, referenceOf, find?_flagged_data (by decide) (by decide) rfl]

/-- What follows on a value that may be missing is only reached if it is there. -/
theorem require_bind_congr {α β γ : Type} {o : Option α} {g : α → β} {f : α → Build γ}
    {f' : β → Build γ} (h : ∀ a, o = some a → f' (g a) = f a) :
    (require (o.map g) >>= f') = require o >>= f := by
  cases o with
  | none =>
    have hnone : ∀ {δ : Type} (k : δ → Build γ), (require none >>= k) = throw .malformed :=
      fun _ => rfl
    rw [Option.map_none, hnone, hnone]
  | some a => exact h a rfl

/-- What follows on a failure is not reached. -/
theorem throw_bind_congr {α β : Type} {e : Failure} {f f' : α → Build β} :
    ((throw e : Build α) >>= f') = (throw e : Build α) >>= f :=
  rfl

theorem mapM_flagged {α β : Type} {f f' : α → Build β} {g : α → α} {l : List α}
    (h : ∀ a ∈ l, f' (g a) = f a) : (l.map g).mapM f' = l.mapM f := by
  induction l with
  | nil => rfl
  | cons a l ih =>
    rw [List.map_cons, List.mapM_cons, List.mapM_cons, h a List.mem_cons_self,
      ih fun b hb => h b (List.mem_cons_of_mem _ hb)]

section

variable (hl : LowersAlike n n' lower lower')

include hl

theorem convertWith_flagged (hd : Fits n n' .schema d) (specName generatedName : String)
    (path : Option String) (placement : Option Placement) :
    convertWith lower' specName generatedName path (d.flagged .schema) placement =
      convertWith lower specName generatedName path d placement := by
  rw [convertWith, convertWith, referenceOf_flagged, addInlineWith, addInlineWith, hl d hd]

/-! ## Shapes -/

theorem arrayShape_flagged (h : Matching n n' s s') (specName generatedName : String) :
    arrayShape lower' specName generatedName s' = arrayShape lower specName generatedName s := by
  have hitems : Rewritten n n' .schema (s.find? "items") (s'.find? "items") :=
    h.inner "items" (by decide)
  rw [arrayShape, arrayShape, h.plain "uniqueItems" (by decide) rfl]
  generalize s.find? "items" = o at hitems ⊢
  generalize s'.find? "items" = o' at hitems ⊢
  cases hitems with
  | missing => rfl
  | given items hfits =>
    simp only [Option.getD_some, isNull_flagged, convertWith_flagged hl hfits]

theorem memberOf_flagged (h : Matching n n' s s') (generatedName : String)
    (required : List Document) {key x : Document} (hx : Fits n n' .schema x) :
    memberOf lower' generatedName s' required (key, x.flagged .schema) =
      memberOf lower generatedName s required (key, x) := by
  have hreference : (x.flagged .schema).find? "$ref" = x.find? "$ref" :=
    find?_flagged_data (by decide) (by decide) rfl x
  have hreadOnly : (x.flagged .schema).find? "readOnly" = x.find? "readOnly" :=
    find?_flagged_data (by decide) (by decide) rfl x
  have hwriteOnly : (x.flagged .schema).find? "writeOnly" = x.find? "writeOnly" :=
    find?_flagged_data (by decide) (by decide) rfl x
  simp only [memberOf, hasField, hreference, hreadOnly, hwriteOnly, isObject_flagged,
    h.plain "required" (by decide) rfl, convertWith_flagged hl hx]

/-- The properties become the members one by one. -/
theorem members_flagged (h : Matching n n' s s') (generatedName : String)
    {properties : Document} (hfits : Fits n n' .map properties) :
    (do
      let required ← requiredNames s'
      let members ← (← require (properties.flagged .map).fields?).mapM
        (memberOf lower' generatedName s' required)
      return Shape.object members) =
    (do
      let required ← requiredNames s
      let members ← (← require properties.fields?).mapM (memberOf lower generatedName s required)
      return Shape.object members) := by
  have hmembers : ∀ required, (require (properties.flagged .map).fields? >>= fun fields =>
      fields.mapM (memberOf lower' generatedName s' required)) =
      require properties.fields? >>= fun fields =>
        fields.mapM (memberOf lower generatedName s required) := by
    intro required
    rw [fields?_flagged]
    refine require_bind_congr fun fields hfields => mapM_flagged fun p hp => ?_
    obtain rfl : properties = .object fields := by
      cases properties <;> cases hfields
      rfl
    exact memberOf_flagged hl h generatedName required (hfits.value hp)
  rw [requiredNames_flagged h]
  simp only [← bind_assoc, hmembers]

theorem objectShape_flagged (h : Matching n n' s s') (specName generatedName : String) :
    objectShape lower' specName generatedName s' = objectShape lower specName generatedName s := by
  have hproperties : Rewritten n n' .map (s.find? "properties") (s'.find? "properties") :=
    h.inner "properties" (by decide)
  have hadditional : Rewritten n n' .schema (s.find? "additionalProperties")
      (s'.find? "additionalProperties") := h.inner "additionalProperties" (by decide)
  obtain ⟨properties, hfits, hs, hs'⟩ := hproperties.orElse
  have hmembers := members_flagged hl h generatedName hfits
  have hfurther := hadditional.further
  unfold objectShape
  rw [hs, hs']
  extract_lets properties' additional' jp' _ additional jp
  change (additional' = additional ∧ ∀ f fs, additional ≠ .object (f :: fs)) ∨
    ∃ f fs f' fs', additional = .object (f :: fs) ∧ additional' = .object (f' :: fs') ∧
      (object (f :: fs)).flagged .schema = .object (f' :: fs') ∧
      Fits n n' .schema (.object (f :: fs)) at hfurther
  -- what comes after the check of two keywords that exclude each other
  have hjp : jp' = jp := by
    funext _
    simp only [jp, jp']
    clear_value additional additional'
    rcases hfurther with ⟨rfl, hplain⟩ | ⟨f, fs, f', fs', rfl, rfl, heq, hx⟩
    · cases additional' with
      | null => exact hmembers
      | object fields =>
        cases fields with
        | nil => rfl
        | cons f fs => exact absurd rfl (hplain f fs)
      | bool b => cases b <;> rfl
      | _ => rfl
    · dsimp only
      rw [← heq, convertWith_flagged hl hx]
  have hnull : additional'.isNull = additional.isNull := by
    rcases hfurther with ⟨heq, _⟩ | ⟨f, fs, f', fs', heq, heq', _⟩
    · rw [heq]
    · rw [heq, heq']
      rfl
  rw [hnull, hjp, holds_flagged_map]

theorem variantOf_flagged (hd : Fits n n' .schema d) (specName generatedName : String)
    (mapping : Document) :
    variantOf lower' specName generatedName mapping (d.flagged .schema) =
      variantOf lower specName generatedName mapping d := by
  rw [variantOf, variantOf, referenceOf_flagged]
  simp only [convertWith_flagged hl hd]

theorem oneOfShape_flagged (h : Matching n n' s s') (specName generatedName : String) :
    oneOfShape lower' specName generatedName s' = oneOfShape lower specName generatedName s := by
  have hlist : Rewritten n n' .list (s.find? "oneOf") (s'.find? "oneOf") :=
    h.inner "oneOf" (by decide)
  obtain ⟨helements, hfits⟩ := hlist.elements?
  rw [oneOfShape, oneOfShape, h.plain "discriminator" (by decide) rfl, helements]
  refine bind_congr fun discriminant => bind_congr fun mapping =>
    require_bind_congr fun alternatives halternatives => ?_
  rw [mapM_flagged fun x hx => variantOf_flagged hl (hfits alternatives halternatives x hx) ..]

theorem overrideShape_flagged (h : Matching n n' s s') (specName generatedName : String) :
    overrideShape lower' specName generatedName s' =
      overrideShape lower specName generatedName s := by
  have hlist : Rewritten n n' .list (s.find? "allOf") (s'.find? "allOf") :=
    h.inner "allOf" (by decide)
  unfold overrideShape
  extract_lets flag' jp' flag jp
  have hjp : ∀ e, Fits n n' .schema e → jp' (e.flagged .schema) = jp e := by
    intro e he
    simp only [jp', jp, flag', flag, convertWith_flagged hl he, h.plain "readOnly" (by decide) rfl,
      h.plain "writeOnly" (by decide) rfl, h.plain "title" (by decide) rfl,
      h.plain "description" (by decide) rfl]
  generalize s.find? "allOf" = o at hlist ⊢
  generalize s'.find? "allOf" = o' at hlist ⊢
  cases hlist with
  | missing => exact throw_bind_congr
  | given x hx =>
    cases x with
    | array items =>
      rw [flagged, flaggedItems_eq_map]
      cases items with
      | nil => exact throw_bind_congr
      | cons e rest => exact hjp e (hx.element rfl List.mem_cons_self)
    | _ => exact throw_bind_congr

/-! ## Dispatch -/

theorem typedShape_flagged (h : Matching n n' s s') (specName generatedName : String)
    (nullable : Bool) :
    typedShape lower' specName generatedName s' nullable =
      typedShape lower specName generatedName s nullable := by
  rw [typedShape, typedShape, h.plain "type" (by decide) rfl, inferType_flagged h,
    ofNumber_flagged h, stringShape_flagged h, arrayShape_flagged hl h, objectShape_flagged hl h]
  simp only [ofInteger_flagged h]

theorem shapeOf_flagged (h : Matching n n' s s') (specName generatedName : String)
    (nullable singleton : Bool) :
    shapeOf lower' specName generatedName s' nullable singleton =
      shapeOf lower specName generatedName s nullable singleton := by
  rw [shapeOf, shapeOf, h.has (by decide), h.has (by decide), h.has (by decide), h.has (by decide),
    oneOfShape_flagged hl h, overrideShape_flagged hl h, typedShape_flagged hl h]

end

/-! ## Normalizing -/

/-- Whether a property is an override does not depend on how it admits null. -/
theorem isSingleton_flagged (placement : Option Placement) (d : Document) :
    isSingleton placement (d.flagged .schema) = isSingleton placement d := by
  have hreference : ∀ e : Document, (e.flagged .schema).hasField "$ref" = e.hasField "$ref" := by
    intro e
    rw [hasField, hasField, find?_flagged_data (by decide) (by decide) rfl]
  rw [isSingleton.eq_def, isSingleton.eq_def, find?_flagged (by decide) (by decide)]
  cases placement with
  | none => rfl
  | some p =>
    rw [show Spot.ofKeyword "allOf" = .list from rfl]
    cases d.find? "allOf" with
    | none => rfl
    | some x =>
      cases x with
      | array items =>
        rw [Option.map_some, flagged, flaggedItems_eq_map]
        rcases items with _ | ⟨e, _ | ⟨e', rest⟩⟩
        · rfl
        · simp only [List.map_cons, List.map_nil, hreference]
        · rfl
      | _ => rfl

/-- A schema that is normalized from one and from its flagged form. -/
theorem Matching.of_find? {o : Document} (ho : Fits (n + 1) (n' + 1) .schema o)
    (hs : ∀ key, key ≠ "type" → s.find? key = o.find? key)
    (hs' : ∀ key, key ≠ "type" → key ≠ "nullable" →
      s'.find? key = (o.flagged .schema).find? key)
    (htype : s'.find? "type" = s.find? "type") : Matching n n' s s' := by
  constructor
  · intro key hkey hdata
    by_cases heq : key = "type"
    · rw [heq, htype]
    · rw [hs' key heq hkey, hs key heq, find?_flagged_data heq hkey hdata]
  · intro key hdata
    have hne : key ≠ "type" := fun heq => hdata (by rw [heq]; rfl)
    have hne' : key ≠ "nullable" := fun heq => hdata (by rw [heq]; rfl)
    rw [hs' key hne hne', hs key hne, find?_flagged hne hne']
    cases hfind : o.find? key with
    | none => exact .missing
    | some x => exact .given x (ho.inner hfind)

theorem normalize_flagged {β : Type} {o : Document} (ho : Fits (n + 1) (n' + 1) .schema o)
    {k k' : Document × Bool → Build β}
    (hk : ∀ s s' nullable, Matching n n' s s' → k' (s', nullable) = k (s, nullable)) :
    (normalize (o.flagged .schema) >>= k') = normalize o >>= k := by
  cases o with
  | object fields =>
    rcases flagged_schema_cases fields with ⟨_, heq⟩ | ⟨list, type, hlist, htype, heq⟩
    -- no keyword is touched that is read here
    · have hdata : ∀ key, Spot.ofKeyword key = .data →
          ((object fields).flagged .schema).find? key = (object fields).find? key := by
        intro key hkey
        rw [heq, find?, find?, flaggedFields_eq_map, lookup?_flagged, Spot.under, hkey,
          map_flagged_data]
      have hpass := hk _ _ (((object fields).find? "nullable").getD .null).isTrue
        (Matching.of_find? ho (fun _ _ => rfl) (fun _ _ _ => rfl) (hdata "type" rfl))
      rw [normalize, normalize, hdata "type" rfl, hdata "nullable" rfl]
      dsimp only
      split
      · rename_i types hfind
        have htyped : ∀ type nullable,
            k' (((object fields).flagged .schema).withField "type" type, nullable) =
              k ((object fields).withField "type" type, nullable) := by
          intro type nullable
          rw [heq]
          refine hk _ _ _ (Matching.of_find? ho (fun key hkey => ?_) (fun key hkey _ => ?_) ?_)
          · rw [find?_withField, if_neg (Ne.symm hkey)]
          · rw [find?_withField, if_neg (Ne.symm hkey), heq]
          · rw [find?_withField, find?_withField, if_pos rfl, if_pos rfl]
        split
        · rw [pure_bind, pure_bind, htyped]
        · rw [pure_bind, pure_bind, htyped]
        · exact throw_bind_congr
      · rw [pure_bind, pure_bind]
        exact hpass
    -- the list of one type and null is normalized to what the flagged form has already
    · obtain ⟨hne, hlists⟩ := eq_of_typeBesideNull? htype
      have hold : normalize (object fields) =
          pure ((object fields).withField "type" (.text type), true) := by
        rw [normalize, hlist]
        rcases hlists with rfl | rfl <;> simp [isText, hne]
      have hnew : normalize ((object fields).flagged .schema) =
          pure ((object fields).flagged .schema, true) := by
        rw [normalize, heq, find?, lookup?_putField, if_neg (by decide), lookup?_putField, if_pos rfl,
          find?, lookup?_putField, if_pos rfl]
        rfl
      rw [hold, hnew, pure_bind, pure_bind]
      refine hk _ _ _ (Matching.of_find? ho (fun key hkey => ?_) (fun _ _ _ => rfl) ?_)
      · rw [find?_withField, if_neg (Ne.symm hkey)]
      · rw [heq, find?, lookup?_putField, if_neg (by decide), lookup?_putField, if_pos rfl,
          find?_withField, if_pos rfl]
  | _ => exact hk _ _ false (Matching.of_find? ho (fun _ _ => rfl) (fun _ _ _ => rfl) rfl)

/-- The object form of a schema in both forms. -/
theorem schemaObject_flagged {β : Type} (hd : Fits (n + 1) (n' + 1) .schema d) (specName : String)
    {k k' : Document → Build β}
    (hk : ∀ o, Fits (n + 1) (n' + 1) .schema o → k' (o.flagged .schema) = k o) :
    (schemaObject specName (d.flagged .schema) >>= k') = schemaObject specName d >>= k := by
  have hempty : Fits (n + 1) (n' + 1) .schema (.object []) :=
    ⟨rfl, .inr ⟨Nat.le_add_left _ _, Nat.le_add_left _ _⟩⟩
  cases d with
  | object fields =>
    obtain ⟨fields', heq⟩ : ∃ fields', (object fields).flagged .schema = .object fields' := by
      rcases flagged_schema_cases fields with ⟨_, heq⟩ | ⟨_, _, _, _, heq⟩ <;> exact ⟨_, heq⟩
    rw [heq, schemaObject, schemaObject, pure_bind, pure_bind, ← heq]
    exact hk _ hd
  | bool b =>
    cases b with
    | false => exact throw_bind_congr
    | true => exact hk _ hempty
  | loop inObject => cases inObject <;> exact throw_bind_congr
  | _ => exact throw_bind_congr

/-! ## Schemas of any depth -/

/-- **A schema and its flagged form are lowered alike**, if the schemas inside are. -/
theorem lowerWith_flagged (hl : LowersAlike n n' lower lower')
    (hd : Fits (n + 1) (n' + 1) .schema d) (specName generatedName : String)
    (placement : Option Placement) (contentType : Document) :
    lowerWith lower' specName generatedName (d.flagged .schema) placement contentType =
      lowerWith lower specName generatedName d placement contentType := by
  unfold lowerWith
  rw [isObject_flagged]
  refine schemaObject_flagged hd specName fun o ho => ?_
  rw [isSingleton_flagged]
  refine bind_congr fun singleton => normalize_flagged ho fun s s' nullable h => ?_
  dsimp only
  rw [titled_flagged h]
  refine bind_congr fun names => ?_
  rw [shapeOf_flagged hl h, documentation_flagged h, h.plain "x-newtype" (by decide) rfl,
    h.plain "x-pub-typedef" (by decide) rfl]

/-- The induction is on the bound, for both bounds at once. -/
theorem lowersAlike_lowerNested (n n' : Nat) :
    LowersAlike n n' (lowerNested n) (lowerNested n') := by
  induction n generalizing n' with
  | zero =>
    intro d hd specName generatedName placement contentType
    -- without any room the bounds are the same
    obtain rfl : n' = 0 := by
      have hpos := levels_pos d
      have hroom := hd.room
      omega
    rfl
  | succ n ih =>
    intro d hd specName generatedName placement contentType
    cases n' with
    | zero =>
      have hpos := levels_pos d
      have hroom := hd.room
      omega
    | succ n' => exact lowerWith_flagged (ih n') hd ..

/-- The bound that the depth of a schema gives leaves room for the schemas in it, unless both forms
are so deep that both have the greatest bound. -/
theorem fits_bounds (hkeys : d.everywhere hasScalarKeys = true) :
    Fits (min (d.depth + 1) maxNesting) (min ((d.flagged .schema).depth + 1) maxNesting) .schema d := by
  have hdepth := levels_le_depth .schema d
  have hdepth' := levels_le_depth .schema (d.flagged .schema)
  rw [levels_flagged] at hdepth'
  refine ⟨hkeys, ?_⟩
  omega

/-- **Both ways to admit null come to the same.** With a flag in place of every list of one type and
null, in the schema and in all schemas inside it, adding the schema comes to the same reference and
the same model, or to the same failure, whatever it is added to. -/
theorem addInline_flagged (schema : Document) (hkeys : schema.everywhere hasScalarKeys = true)
    (specName generatedName : String) (path : Option String) (placement : Option Placement)
    (contentType : Document) (w : Workbench) :
    exec (addInline specName generatedName path (schema.flagged .schema) placement contentType) w =
      exec (addInline specName generatedName path schema placement contentType) w := by
  have hlower := lowersAlike_lowerNested _ _ schema (fits_bounds hkeys)
  rw [addInline, addInline, addInlineWith, addInlineWith, lower, lower, hlower]

/-- A schema with null among the members of an enumeration, in an override, and in a union inside an
array. -/
def nullableSchema : Document :=
  let types : String → String → Document := fun a b => .array [.text a, .text b]
  let name : Document := .object
    [(.text "type", types "string" "null"), (.text "enum", .array [.text "a", .null])]
  let owner : Document := .object
    [(.text "type", types "null" "object"),
      (.text "allOf", .array [.object [(.text "$ref", .text "#/components/schemas/Owner")]])]
  let item : Document := .object
    [(.text "oneOf", .array [.object [(.text "type", types "integer" "null")]])]
  let tags : Document := .object [(.text "type", types "array" "null"), (.text "items", item)]
  .object
    [(.text "type", types "object" "null"),
      (.text "properties",
        .object [(.text "name", name), (.text "owner", owner), (.text "tags", tags)])]

/-- Its flagged form has another type, and both are added as the eleventh item, after ten for the
schemas inside. -/
theorem addInline_nullableSchema :
    nullableSchema.everywhere hasScalarKeys = true ∧
      ((nullableSchema.flagged .schema).find? "type").map (·.isText "object") = some true ∧
      (nullableSchema.find? "type").map (·.isText "object") = some false ∧
      exec (addInline "Pet" "Pet" none (nullableSchema.flagged .schema) none .null) {} =
        exec (addInline "Pet" "Pet" none nullableSchema none .null) {} ∧
      (exec (addInline "Pet" "Pet" none nullableSchema none .null) {}).1.toOption =
        some (.back 10) := by
  have hkeys : nullableSchema.everywhere hasScalarKeys = true := by decide +kernel
  exact ⟨hkeys, by decide +kernel, by decide +kernel, addInline_flagged nullableSchema hkeys ..,
    by decide +kernel⟩

end TypedApi.Schema
