import TypedApi.Proofs.Conversion.Homed
import TypedApi.Proofs.Document.Legible
import TypedApi.Proofs.Document.Walk
import TypedApi.Proofs.Operation.Blame
import TypedApi.Proofs.Operation.Paired
import TypedApi.Proofs.Schema.Paired
/-!
Shared components are at home.

A shared parameter, request body or header is a reference, or it has a value, whose
schema may be a reference; then it is that reference in all but name. So a component
stands for another path in one of two ways, and `Designates` says in which. The item
that is registered for its path is the item of that other path, an alias of it, an
alias that adds null to something else, or no alias at all.

Nothing else that is lowered for an operation registers a path, except that
references to headers make the shared headers that they lead to.
-/

set_option autoImplicit false

/-! # What schemas are aliases of

A schema has a form of its own. Only an override of a property is an alias, and the
schema of a shared component is no property. Where a schema admits null, the item
that is answered is an alias, but the item that it adds null to is none, and that one
has just been stored. So the alias of a schema that is written out ends at once.

A schema that is a reference is not lowered: what is answered is what the reference
has become by now.
-/

namespace TypedApi

open Build

variable {α β : Type} {P : β → Prop}

/-- Every answer of a build has a property. -/
def AnswersOnly (P : β → Prop) (x : Build β) : Prop :=
  ∀ b, Answers x b → P b

namespace AnswersOnly

theorem pure {b : β} (h : P b) : AnswersOnly P (Pure.pure b : Build β) := by
  rintro _ ⟨w, w', h'⟩
  cases h'
  exact h

theorem throw (e : Failure) : AnswersOnly P (MonadExcept.throw e : Build β) := by
  rintro _ ⟨w, w', h⟩
  cases h

theorem problem (p : Problem) : AnswersOnly P (Build.problem p : Build β) :=
  throw _

/-- A sequence answers what its last part does; what the first part answers may be used. -/
theorem bind_answer {x : Build α} {f : α → Build β} (hf : ∀ a, Answers x a → AnswersOnly P (f a)) :
    AnswersOnly P (x >>= f) := by
  rintro b ⟨w, w', h⟩
  obtain ⟨a, u, ha, h⟩ := of_exec_bind_ok h
  exact hf a ⟨w, u, ha⟩ b ⟨u, w', h⟩

theorem bind {x : Build α} {f : α → Build β} (hf : ∀ a, AnswersOnly P (f a)) :
    AnswersOnly P (x >>= f) :=
  bind_answer fun a _ => hf a

theorem ite {c : Prop} [Decidable c] {x y : Build β} (hx : AnswersOnly P x) (hy : AnswersOnly P y) :
    AnswersOnly P (if c then x else y) := by
  split
  · exact hx
  · exact hy

end AnswersOnly

/-- A shape that is no alias. -/
def Shape.IsProper (shape : Shape) : Prop :=
  shape.target? = none

namespace Schema

variable {lower : Lower} {specName generatedName : String} {schema : Document}

/-! ## Shapes -/

theorem stringShape_proper (nullable : Bool) :
    AnswersOnly Shape.IsProper (stringShape generatedName schema nullable) := by
  refine .bind_answer fun o ho => ?_
  cases o with
  | some shape =>
    obtain ⟨variants, extensible, rfl⟩ := shape_of_enumeration (eq_ok_of_blame ho)
    exact .pure rfl
  | none => exact .bind fun _ => .pure rfl

theorem arrayShape_proper :
    AnswersOnly Shape.IsProper (arrayShape lower specName generatedName schema) := by
  refine .ite (.bind fun _ => ?_) (.bind fun _ => ?_)
  · exact .ite (.pure rfl) (.pure rfl)
  · exact .ite (.pure rfl) (.pure rfl)

theorem objectShape_proper :
    AnswersOnly Shape.IsProper (objectShape lower specName generatedName schema) := by
  unfold objectShape
  extract_lets properties additional jp
  have hjp : AnswersOnly Shape.IsProper (jp ()) := by
    simp only [jp]
    clear_value additional
    split
    · exact .bind fun _ => .bind fun _ => .bind fun _ => .pure rfl
    · exact .pure rfl
    · exact .pure rfl
    · exact .bind fun _ => .pure rfl
    · exact .problem _
  exact .ite (.bind fun _ => hjp) hjp

theorem oneOfShape_proper :
    AnswersOnly Shape.IsProper (oneOfShape lower specName generatedName schema) :=
  .bind fun _ => .bind fun _ => .bind fun _ => .bind fun _ => .bind fun _ => .pure rfl

theorem typedShape_proper (nullable : Bool) :
    AnswersOnly Shape.IsProper (typedShape lower specName generatedName schema nullable) := by
  unfold typedShape
  split
  · exact .pure rfl
  · exact .bind fun _ => .pure rfl
  · exact .bind fun _ => .bind fun _ => .ite (.bind fun _ => .pure rfl) (.pure rfl)
  · exact stringShape_proper nullable
  · exact arrayShape_proper
  · exact objectShape_proper
  · exact .pure rfl
  · exact .pure rfl
  · exact .problem _

/-- The shape of a schema is no alias, unless the schema is an override. -/
theorem shapeOf_proper (nullable : Bool) :
    AnswersOnly Shape.IsProper (shapeOf lower specName generatedName schema nullable false) :=
  .ite (.problem _) (.ite oneOfShape_proper (.ite (.problem _) (typedShape_proper nullable)))

/-! ## Schemas -/

/-- The item that a schema is lowered to is no alias, or the alias that adds null to one. -/
theorem halts_of_lowerWith {contentType : Document} {item : Item} {w w' : Workbench} {t : Ref}
    (h : exec (lowerWith lower specName generatedName schema none contentType) w = (.ok item, w'))
    (ht : item.shape.target? = some t) : w'.model.Halts t := by
  obtain ⟨object, u₁, _, h⟩ := of_exec_bind_ok h
  obtain ⟨singleton, u₂, hsingleton, h⟩ := of_exec_bind_ok h
  -- a schema that is no property is no override
  obtain rfl : singleton = false := by
    rw [ite_self] at hsingleton
    cases hsingleton
    rfl
  obtain ⟨⟨typed, nullable⟩, u₃, _, h⟩ := of_exec_bind_ok h
  obtain ⟨names, u₄, _, h⟩ := of_exec_bind_ok h
  obtain ⟨shape, u₅, hshape, h⟩ := of_exec_bind_ok h
  have hproper : shape.target? = none := shapeOf_proper nullable _ ⟨_, _, hshape⟩
  obtain ⟨_, u₆, _, h⟩ := of_exec_bind_ok h
  obtain ⟨docs, u₇, _, h⟩ := of_exec_bind_ok h
  obtain ⟨content, u₈, _, h⟩ := of_exec_bind_ok h
  dsimp only at h
  split at h
  · obtain ⟨name, hmodel, _, _, houter⟩ := of_exec_wrapNullable h
    rw [houter] at ht
    cases ht
    have hat : w'.model.ShapeAt u₈.model.size shape := by
      rw [hmodel]
      exact ⟨_, _, rfl, List.getElem?_concat_length, rfl⟩
    exact ⟨_, shape, rfl, hat, hproper⟩
  · cases h
    rw [hproper] at ht
    cases ht

theorem halts_of_lower {contentType : Document} {item : Item} {w w' : Workbench} {t : Ref}
    (h : exec (Schema.lower specName generatedName schema none contentType) w = (.ok item, w'))
    (ht : item.shape.target? = some t) : w'.model.Halts t := by
  rw [Schema.lower] at h
  generalize min (schema.depth + 1) maxNesting = bound at h
  cases bound with
  | zero => cases h
  | succ bound => exact halts_of_lowerWith h ht

variable {N : String → String → Prop} {m : Model}

/-- A schema that is written out: the item may have any path. -/
theorem lower_houses (specName generatedName : String) (schema contentType : Document) :
    Houses N m (Schema.lower specName generatedName schema none contentType) fun item m' =>
      ∀ path, m'.Suits N path item.shape :=
  .of_touches (lower_along ..) (.of_grows (lower_grows ..)) fun _ _ _ _ hexec _ _ ht =>
    .inl (halts_of_lower hexec ht)

/-- A schema that is a reference within the document: the answer is what that has become. -/
theorem convert_houses {reference : String} (hschema : referenceOf schema = .text reference)
    (hinternal : WellKnown.isExternal reference = false) :
    Houses N m (Schema.convert specName generatedName none schema) fun t m' =>
      m'.Becomes reference t := by
  rw [Schema.convert, convertWith, hschema, if_neg (by simp [Document.isNull])]
  refine .skip_answer (.require _) fun target htarget => .model ?_
  obtain ⟨_, _, htarget⟩ := htarget
  cases of_exec_require_ok htarget
  rw [hinternal]
  split
  · exact .pure (.inr ⟨_, rfl, ‹_›⟩)
  · exact .pure (.inl rfl)

end Schema

end TypedApi

/-! # Parameters, bodies and headers -/

namespace TypedApi

open Build

/-- A component is a reference, or it is none and every schema of its value is one. -/
def Document.Designates (schemas : List Document) (d : Document) (reference : String) : Prop :=
  Schema.referenceOf d = .text reference ∨
    (Schema.referenceOf d).isNull = true ∧ schemas ≠ [] ∧
      ∀ schema ∈ schemas, Schema.referenceOf schema = .text reference

namespace Operation

open Document

variable {N : String → String → Prop} {m : Model} {path : String} {own : Option String}
  {document specName header param body : Document}

/-- The schema of a parameter or a header: that of its only content type, if it has some, else its
own. -/
def valueSchema (d : Document) : Document :=
  let content := (d.find? "content").getD .null
  if content.holds then
    match content with
    | .object [(_, media)] => schemaOf media
    | _ => .null
  else (d.find? "schema").getD .null

/-! ## References -/

/-- What an empty schema is replaced by is no reference either. -/
theorem referenceOf_orElse (schema : Document) :
    Schema.referenceOf (schema.orElse (.object [])) = Schema.referenceOf schema := by
  by_cases h : schema.holds = true
  · rw [orElse, if_pos h]
  · rw [orElse, if_neg h]
    cases schema with
    | object fields =>
      cases fields with
      | nil => rfl
      | cons => exact absurd rfl h
    | _ => rfl

/-- What does not mention a reference is none. -/
theorem isNull_of_mentions? {d : Document} (h : d.mentions? "$ref" = some false) :
    (Schema.referenceOf d).isNull = true := by
  cases d with
  | object fields =>
    have hnone : lookup? "$ref" fields = none := by
      simpa [mentions?, hasField, find?] using h
    rw [Schema.referenceOf, find?, hnone]
    rfl
  | _ => rfl

theorem referenceOf_of_answers {schema reference : Document}
    (h : Answers (field schema "$ref") reference) : Schema.referenceOf schema = reference := by
  obtain ⟨_, _, h⟩ := h
  rw [Schema.referenceOf, ← getD_get?, of_exec_require_ok h]
  rfl

/-- The only content type of a content map. -/
theorem of_singleContent {name content contentType media : Document}
    (h : singleContent name content = .ok (contentType, media)) :
    ∃ given, content = .object [(contentType, given)] ∧ media = given.orElse (.object []) := by
  unfold singleContent at h
  obtain ⟨count, _, h⟩ := of_bind_eq_ok h
  dsimp only at h
  split at h
  · cases h
  · split at h
    · cases h
      exact ⟨_, rfl, rfl⟩
    · cases h

/-- The schema that is read off a content map. -/
theorem eq_schemaOf_of_singleContent {d content name contentType media schema : Document}
    {w w' : Workbench} (hcontent : d.find? "content" = some content)
    (hsingle : singleContent name content = .ok (contentType, media))
    (hschema : exec (field media "schema") w = (.ok schema, w')) : schema = valueSchema d := by
  obtain ⟨given, rfl, rfl⟩ := of_singleContent hsingle
  have hholds : (Document.object [(contentType, given)]).holds = true := rfl
  rw [valueSchema, hcontent, Option.getD_some, if_pos hholds]
  exact eq_schemaOf_of_answers ⟨w, w', hschema⟩

/-- The schema that is read for a parameter. -/
theorem referenceOf_parameterSchema {name contentType schema : Document}
    (h : Answers (parameterSchema name param) (contentType, schema)) :
    Schema.referenceOf schema = Schema.referenceOf (valueSchema param) := by
  obtain ⟨w, w', h⟩ := h
  rw [parameterSchema.eq_def] at h
  split at h
  · rename_i content hcontent
    obtain ⟨⟨_, media⟩, u, hsingle, h⟩ := of_exec_bind_ok h
    obtain ⟨found, u', hfound, h⟩ := of_exec_bind_ok h
    cases h
    have hsingle := of_exec_lift_ok hsingle
    -- an empty content map has no content type, so this one is not empty
    have hholds : content.holds = true := by
      by_contra hempty
      obtain ⟨_, hobject, _⟩ := of_singleContent hsingle
      rw [orElse, if_neg hempty] at hobject
      cases hobject
    rw [orElse, if_pos hholds] at hsingle
    rw [referenceOf_orElse, eq_schemaOf_of_singleContent hcontent hsingle hfound]
  · rename_i hcontent
    cases h
    rw [referenceOf_orElse, valueSchema, hcontent]
    rfl

/-- The schema that is read for a header. -/
theorem eq_valueSchema_of_answers {schema : Document}
    (h : Answers (headerSchema specName header) schema) : schema = valueSchema header := by
  obtain ⟨w, w', h⟩ := h
  rw [headerSchema] at h
  dsimp only at h
  split at h
  · rename_i hholds
    obtain ⟨⟨_, media⟩, u, hsingle, hfound⟩ := of_exec_bind_ok h
    cases hcontent : header.find? "content" with
    | none =>
      rw [hcontent] at hholds
      cases hholds
    | some content =>
      rw [hcontent] at hsingle
      exact eq_schemaOf_of_singleContent hcontent (of_exec_lift_ok hsingle) hfound
  · cases h
    rw [valueSchema, if_neg ‹_›]

/-! ## Items -/

/-- The path of an item is registered, if there is one that the item may have. -/
theorem register_houses {α : Type} {r : Ref} {rest : Build α} {Q : α → Model → Prop}
    (own : Option String) (hown : ∀ p, own = some p → p = path) (hr : m.Serves N path r)
    (hrest : ∀ m', m'.Serves N path r → Houses N m' rest Q) :
    Houses N m (do
      match own with
      | some p => registerPath p r
      | none => pure ()
      rest) Q := by
  cases own with
  | none => exact hrest m hr
  | some p =>
    cases hown p rfl
    exact .bind (.registerPath hr) fun _ m' hsteps _ => hrest m' (hr.steps hsteps)

theorem addInline_houses (path specName generatedName : String) {own : Option String}
    (schema contentType : Document) (hown : ∀ p, own = some p → p = path) :
    Houses N m (Schema.addInline specName generatedName own schema none contentType)
      fun r m' => m'.Serves N path r :=
  .bind (Schema.lower_houses ..) fun _ _ _ hitem => .addItem_serves hown (hitem path)

/-- The item of a reference may have the path of what stands for it, and so may an alias of it. -/
theorem referredItem_houses {names : Build (String × String)} (hnames : Still names)
    {reference : Document} (hstands : ∀ next, reference = .text next → N path next) :
    Houses N m (referredItem names reference) fun r m' =>
      m'.Serves N path r ∧ m'.Suits N path (.synonym r) := by
  refine .skip_answer (.require _) fun target htarget => ?_
  obtain ⟨_, _, htarget⟩ := htarget
  have hreference := Schema.eq_text_of_text? (of_exec_require_ok htarget)
  refine .ite (fun _ => .skip hnames fun ⟨specName, generatedName⟩ => ?_) fun _ => ?_
  · -- the scalar of an external reference is no alias
    refine (Houses.addItem (by simp)).weaken fun r m' _ _ hr => ?_
    obtain ⟨index, hr, hat, _⟩ := hr
    exact ⟨⟨index, _, hr, hat, Model.suits_of_proper rfl⟩,
      Model.suits_of_halts rfl ⟨index, _, hr, hat, rfl⟩⟩
  · refine Houses.named.weaken fun r m' _ hm' hr => ?_
    obtain ⟨index, rfl, hget⟩ := hr
    have hnext := hstands target hreference
    exact ⟨hm'.serves hnext hget, Model.suits_of_becomes hnext rfl (.inr ⟨index, rfl, hget⟩)⟩

/-! ## Parameters -/

/-- A parameter is added under the path of what it designates. -/
theorem insertParameter_houses
    (hstands : ∀ next, Schema.referenceOf (valueSchema param) = .text next → N path next) :
    Houses N m (insertParameter (some path) param) fun _ _ => True := by
  refine .skip (.require _) fun _ => .skip (.lift _) fun location => ?_
  refine .skip_answer (steady_parameterSchema _ _).still fun ⟨contentType, schema⟩ hschema => ?_
  refine .skip_answer (.field _ _) fun reference hreference => ?_
  have hstands' : ∀ next, reference = .text next → N path next := fun next hnext =>
    hstands next (by
      rw [← referenceOf_parameterSchema hschema, referenceOf_of_answers hreference, hnext])
  extract_lets description jp
  have hjp : ∀ r (m' : Model), m'.Serves N path r → Houses N m' (jp r) fun _ _ => True :=
    fun r m' hr => register_houses (some path) (by simp) hr fun _ _ =>
      .ite (fun _ => .bind (.modifyItem remark_implHeader keepsMark_implHeader)
        fun _ _ _ _ => .pure trivial) fun _ => .pure trivial
  refine .ite (fun _ => .skip (steady_namesFor _).still fun ⟨specName, generatedName⟩ => ?_)
    fun _ => ?_
  · refine .bind (addInline_houses path _ _ _ _ (by simp)) fun r m' _ hr => ?_
    refine .bind (.modifyItem (remark_orDocs _) (keepsMark_orDocs _)) fun _ m'' hsteps _ => ?_
    exact hjp r m'' (hr.steps hsteps)
  · refine .bind (referredItem_houses (steady_namesFor _).still hstands') fun r m' _ hr => ?_
    refine .ite (fun _ => hjp r m' hr.1) fun _ => ?_
    refine .skip (steady_namesFor _).still fun ⟨specName, generatedName⟩ => ?_
    refine .skip (.textOrNull _) fun docs => .skip (.optionalText _) fun contentType => ?_
    exact .bind (.addItem_serves (by simp) hr.2) fun r m'' _ hr => hjp r m'' hr

/-- A shared parameter is added under its path. -/
theorem insertComponentParameter_houses
    (hstands : ∀ next, param.Designates [valueSchema param] next → N path next) :
    Houses N m (insertComponentParameter path param) fun _ _ => True := by
  refine .skip (.require _) fun _ => ?_
  cases hreference : param.find? "$ref" with
  | some reference =>
    refine .bind (.namedBy fun next hnext => hstands next (.inl ?_)) fun r m' _ hr => ?_
    · rw [Schema.referenceOf, hreference, hnext]
      rfl
    · exact .bind (.registerPath hr) fun _ _ _ _ => .pure trivial
  | none =>
    refine insertParameter_houses fun next hnext => hstands next (.inr ⟨?_, by simp, by simpa⟩)
    rw [Schema.referenceOf, hreference]
    rfl

/-! ## Bodies -/

/-- A media type makes an item for the path of what its schema is. -/
theorem mediaItem_houses (specName generatedName : String) {schema : Document}
    (contentType : Document)
    (hstands : ∀ next, Schema.referenceOf schema = .text next → N path next) :
    Houses N m (mediaItem specName generatedName schema contentType)
      fun item m' => m'.Suits N path item.shape := by
  unfold mediaItem
  extract_lets reference
  refine .ite (fun _ => .skip (.optionalText _) fun _ => .pure (Model.suits_of_proper rfl))
    fun _ => .ite (fun _ => ?_) fun _ => .skip_answer (.require _) fun target htarget => ?_
  · exact (Schema.lower_houses ..).weaken fun _ _ _ _ hitem => hitem path
  · obtain ⟨_, _, htarget⟩ := htarget
    have hreference := Schema.eq_text_of_text? (of_exec_require_ok htarget)
    refine .ite (fun _ => ?_) fun hinternal => ?_
    · exact .skip (.optionalText _) fun _ => .pure (Model.suits_of_proper rfl)
    · refine .bind (Schema.convert_houses hreference (by simpa using hinternal)) fun t m' _ ht => ?_
      refine .skip (.optionalText _) fun _ => .pure ?_
      exact Model.suits_of_becomes (hstands target hreference) rfl ht

theorem bodyVariants_houses (required : Bool) (content : List (Document × Document)) :
    Houses N m (content.mapM (bodyVariant required)) fun _ _ => True := by
  have hsteps : Along .anything m (content.mapM (bodyVariant required)) fun _ _ => True :=
    (Along.mapM (P := fun _ _ => True) (fun _ _ _ _ _ => trivial) fun _ _ _ _ =>
      (bodyVariant_along required _).weaken fun _ _ _ => trivial).weaken fun _ _ _ => trivial
  exact .of_touches hsteps (.of_grows (.mapM (bodyVariant_grows required) _))
    fun _ _ _ _ _ => trivial

/-- A body makes an item for the path of what all of its schemas are. -/
theorem bodyItem_houses (specName : String) (required : Bool) {content : List (Document × Document)}
    (hstands : ∀ next, contentSchemas content ≠ [] →
      (∀ schema ∈ contentSchemas content, Schema.referenceOf schema = .text next) → N path next) :
    Houses N m (bodyItem specName required content)
      fun item m' => m'.Suits N path item.shape := by
  unfold bodyItem
  dsimp only
  split
  · exact mediaItem_houses _ _ _ fun next hnext => by cases hnext
  · refine .skip_answer (.field _ _) fun schema hschema => mediaItem_houses _ _ _ fun next hnext => ?_
    rw [eq_schemaOf_of_answers hschema] at hnext
    exact hstands next (by simp [contentSchemas]) (by simpa [contentSchemas] using hnext)
  · rename_i contentType media rest _
    refine .skip_answer (steady_sharesReference _).still fun shared hshared => ?_
    cases shared with
    | true =>
      rw [if_pos rfl]
      refine .skip_answer (.field _ _) fun schema hschema => mediaItem_houses _ _ _ fun next hnext => ?_
      rw [eq_schemaOf_of_answers hschema] at hnext
      obtain ⟨_, hsame⟩ := same_of_shares hshared
      refine hstands next (by simp [contentSchemas]) fun schema hmem => ?_
      obtain ⟨entry, hentry, rfl⟩ := List.mem_map.mp hmem
      rcases List.mem_cons.mp hentry with rfl | hentry
      · exact hnext
      · have hother := hsame entry hentry
        rw [hnext] at hother
        exact eq_text_of_same hother
    | false =>
      rw [if_neg Bool.false_ne_true]
      -- a union is no alias, whatever its variants are
      exact .bind (bodyVariants_houses required _) fun _ _ _ _ =>
        .pure (Model.suits_of_proper rfl)

/-- A shared body is added under its path. -/
theorem createBody_houses (specName : String)
    (hstands : ∀ next, bodySchemas body ≠ [] →
      (∀ schema ∈ bodySchemas body, Schema.referenceOf schema = .text next) → N path next) :
    Houses N m (createBody specName (some path) body) fun _ _ => True := by
  refine .skip_answer (.field _ _) fun given hgiven => ?_
  refine .skip_answer (.require _) fun content hcontent => ?_
  obtain ⟨_, _, hgiven⟩ := hgiven
  obtain ⟨_, _, hcontent⟩ := hcontent
  rw [bodySchemas, of_exec_require_ok hgiven, Option.getD_some, of_exec_require_ok hcontent,
    Option.getD_some] at hstands
  refine .bind (bodyItem_houses _ _ hstands) fun item m' _ hitem => ?_
  extract_lets description documented
  have hdocumented : ∀ required, m'.Suits N path (markOptional required documented).shape := by
    intro required
    rw [shape_markOptional]
    simp only [documented]
    split
    · rwa [shape_orDocs]
    · exact hitem
  exact (Houses.addItem_serves (fun _ h => (Option.some.inj h).symm) (hdocumented _)).weaken
    fun _ _ _ _ _ => trivial

/-! ## Headers -/

/-- A header is added for the path of what its schema is. -/
theorem createHeader_houses (hown : ∀ p, own = some p → p = path)
    (hstands : ∀ next, Schema.referenceOf (valueSchema header) = .text next → N path next) :
    Houses N m (createHeader specName own header) fun r m' => m'.Serves N path r := by
  refine .skip (.require _) fun name => .skip (.deconflict _) fun generatedName => ?_
  refine .skip (.require _) fun _ => ?_
  refine .skip_answer (steady_headerSchema _ _).still fun schema hschema => ?_
  cases eq_valueSchema_of_answers hschema
  extract_lets description jp
  have hjp : ∀ r (m' : Model), m'.Serves N path r →
      Houses N m' (jp r) fun r m'' => m''.Serves N path r := fun r m' hr =>
    register_houses own hown hr fun _ hr =>
      .bind (.modifyItem remark_implHeader keepsMark_implHeader) fun _ _ hsteps _ =>
        .pure (hr.steps hsteps)
  refine .ite (fun _ => ?_) fun _ => .skip (.require _) fun isReference => .ite (fun _ => ?_)
    fun _ => ?_
  · exact .bind (.addItem_serves hown (Model.suits_of_proper rfl)) fun r m' _ hr => hjp r m' hr
  · refine .skip_answer (.field _ _) fun reference hreference => ?_
    have hstands' : ∀ next, reference = .text next → N path next := fun next hnext =>
      hstands next (by rw [referenceOf_of_answers hreference, hnext])
    refine .bind (referredItem_houses (.pure _) hstands') fun r m' _ hr => ?_
    refine .ite (fun _ => hjp r m' hr.1) fun _ => .skip (.textOrNull _) fun _ => ?_
    exact .bind (.addItem_serves hown hr.2) fun r m'' _ hr => hjp r m'' hr
  · refine .bind (addInline_houses path _ _ _ _ hown) fun r m' _ hr => ?_
    refine .bind (.modifyItem (remark_orDocs _) (keepsMark_orDocs _)) fun _ m'' hsteps _ => ?_
    exact hjp r m'' (hr.steps hsteps)

/-- A shared header is what its path leads to. -/
theorem createShared_houses
    (hstands : ∀ next, Schema.referenceOf (valueSchema header) = .text next → N path next) :
    Houses N m (createShared specName path header) fun r m' =>
      ∃ index, r = .back index ∧ m'.namedReferences.get? path = some index := by
  have hserves : Houses N m (createShared specName path header) fun r m' => m'.Serves N path r :=
    .bind (createHeader_houses (by simp) hstands) fun r m' _ hr =>
      .bind (.modifyItem remark_pubTypedef keepsMark_pubTypedef) fun _ _ hsteps _ =>
        .pure (hr.steps hsteps)
  refine (hserves.with_runs (P := fun r m' => RegisteredFor m' path r) fun w w' r hw hexec =>
    registeredFor_of_createShared ⟨w, w', hw, hexec, rfl⟩).weaken fun r m' _ _ hr => ?_
  obtain ⟨⟨index, shape, rfl, _⟩, index', hindex, hget⟩ := hr
  cases hindex
  exact ⟨index, rfl, hget⟩

/-- What stands at the path of a shared header designates what comes after the path. -/
def HeadersStand (N : String → String → Prop) (document : Document) : Prop :=
  ∀ path name target, headerName? path = some name → document.resolve path = .ok target →
    ∀ next, target.Designates [valueSchema target] next → N path next

variable {value : Document} {seen : List String} {links : List Link}

/-- Each link of a chain is registered for the item of the one after it, and the last one for its
own. The induction is on the links; the walk says where each of them leads. -/
theorem headerAlong_houses (hN : HeadersStand N document)
    (h : Walk document seen value (.ok links)) (hvalue : value.find? "$ref" = some (.text path)) :
    Houses N m (headerAlong links) fun r m' =>
      ∃ index, r = .back index ∧ m'.namedReferences.get? path = some index := by
  induction links generalizing seen value path m with
  | nil =>
    rw [h.find?_of_nil] at hvalue
    cases hvalue
  | cons link rest ih =>
    obtain ⟨target, _, heq, hresolve, hrest⟩ := h.exists_link hvalue
    cases heq
    refine .model ?_
    split
    · exact .pure ⟨_, rfl, ‹_›⟩
    split
    · exact .problem
    rename_i name hname
    have hstands := hN path name target hname hresolve
    cases rest with
    | nil =>
      have hnone := hrest.find?_of_nil
      refine createShared_houses fun next hnext => hstands next (.inr ⟨?_, by simp, by simpa⟩)
      rw [Schema.referenceOf, hnone]
      rfl
    | cons second rest =>
      have hsecond := hrest.exists_reference
      refine .bind (ih hrest hsecond) fun r m' _ hr => .homed fun hm' => ?_
      obtain ⟨index, rfl, hget⟩ := hr
      have hserves : m'.Serves N path (.back index) := by
        refine hm'.serves (hstands second.reference (.inl ?_)) hget
        rw [Schema.referenceOf, hsecond]
        rfl
      exact .bind (.registerPath hserves) fun _ _ _ hpath => .pure ⟨index, rfl, hpath index rfl⟩

/-- A header that is a reference has the item of its path. -/
theorem referredHeader_houses (hN : HeadersStand N document) {reference : Document}
    (hheader : header.get? "$ref" = some reference) (hgiven : reference.isNull = false) :
    Houses N m (referredHeader document reference header) fun r m' =>
      ∃ next index, reference = .text next ∧ r = .back index ∧
        m'.namedReferences.get? next = some index := by
  have hfind := find?_of_get? hheader hgiven
  cases reference with
  | text next =>
    have hwalk := walk_chain document header
    have hchain : Houses N m (do
        let links ← lift (blameReference next (document.chain header))
        headerAlong links) fun r m' =>
        ∃ index, r = .back index ∧ m'.namedReferences.get? next = some index := by
      refine .skip_answer (.lift _) fun links hlinks => ?_
      obtain ⟨_, _, hlinks⟩ := hlinks
      rw [of_blameReference_ok (of_exec_lift_ok hlinks)] at hwalk
      exact headerAlong_houses hN hwalk hfind
    have hreferred : Houses N m (referredHeader document (.text next) header) fun r m' =>
        ∃ index, r = .back index ∧ m'.namedReferences.get? next = some index := by
      refine .model ?_
      split
      · exact .pure ⟨_, rfl, ‹_›⟩
      · exact .ite (fun _ => .skip (.problem _) fun _ => hchain) fun _ => hchain
    exact hreferred.weaken fun r m' _ _ ⟨index, hr, hget⟩ => ⟨next, index, rfl, hr, hget⟩
  | _ => exact .throw

/-- A header that is converted has the item that what it designates has, or one of its own. -/
theorem convertHeader_houses (hN : HeadersStand N document)
    (hstands : ∀ next, header.Designates [valueSchema header] next → N path next) :
    Houses N m (convertHeader document specName header) fun r m' => m'.Serves N path r := by
  refine .skip_answer (.field _ _) fun reference hreference => ?_
  have hown := referenceOf_of_answers hreference
  obtain ⟨_, _, hget⟩ := hreference
  refine .ite (fun hnull => ?_) fun hgiven => ?_
  · exact createHeader_houses (by simp) fun next hnext =>
      hstands next (.inr ⟨hown ▸ hnull, by simp, by simpa⟩)
  · refine (referredHeader_houses hN (of_exec_require_ok hget) (by simpa using hgiven)).weaken
      fun r m' _ hm' hr => ?_
    obtain ⟨next, index, rfl, rfl, hnext⟩ := hr
    exact hm'.serves (hstands next (.inl hown)) hnext

/-- A shared header is added under its path. -/
theorem insertComponentHeader_houses (hN : HeadersStand N document)
    (hstands : ∀ next, header.Designates [valueSchema header] next →
      N (headersPrefix ++ specName.display) next) :
    Houses N m (insertComponentHeader document specName header) fun _ _ => True := by
  refine .model ?_
  split
  · exact .pure trivial
  refine .skip_answer (.require _) fun isReference hmentions => .ite (fun _ => ?_) fun hnone => ?_
  · exact .bind (convertHeader_houses hN hstands) fun r m' _ hr =>
      .bind (.registerPath hr) fun _ _ _ _ => .pure trivial
  · refine (createShared_houses fun next hnext => hstands next (.inr ⟨?_, by simp, by simpa⟩)).weaken
      fun _ _ _ _ _ => trivial
    obtain ⟨_, _, hmentions⟩ := hmentions
    cases isReference with
    | true => exact absurd rfl hnone
    | false => exact isNull_of_mentions? (of_exec_require_ok hmentions)

/-! ## The parts of an operation -/

end Operation

/-- A change that leaves paths at home. -/
def Model.Homes (N : String → String → Prop) (m m' : Model) : Prop :=
  m.Homed N → m'.Homed N

instance (N : String → String → Prop) : IsPreorder Model (Model.Homes N) where
  refl _ h := h
  trans _ _ _ h h' hm := h' (h hm)

namespace Operation

open Document

variable {N : String → String → Prop} {document : Document}

theorem keeps_of_houses {α : Type} {x : Build α} {Q : α → Model → Prop}
    (hx : ∀ m, Houses N m x Q) : Keeps (Model.Homes N) x :=
  ⟨fun w hm => ((hx w.model).runs hm w rfl).2.1⟩

/-- What registers no path leaves the paths at home. -/
theorem homes_of_touches {α : Type} {x : Build α} {Q : α → Model → Prop}
    (hsteps : ∀ m, Along .anything m x Q) (htouches : Keeps (Model.Touches fun _ => False) x) :
    Keeps (Model.Homes N) x :=
  keeps_of_houses (Q := fun _ _ => True) fun m =>
    .of_touches (hsteps m) htouches fun _ _ _ _ _ => trivial

/-- The parts of an operation leave paths at home while they register none. -/
theorem allows_homes : Allows (fun _ => False) (Model.Homes N) where
  addItem h hpath :=
    homes_of_touches (fun _ => .addItem (Standard.fits_anything _ _)) (allows_touches.addItem h hpath)
  addInline _ _ _ _ _ hpath :=
    homes_of_touches (fun _ => Schema.addInline_along ..) (allows_touches.addInline _ _ _ _ _ hpath)
  convert _ _ _ :=
    homes_of_touches (fun _ => Schema.convert_along ..) (allows_touches.convert ..)
  createBody _ _ _ hpath :=
    homes_of_touches (fun _ => createBody_along ..) (allows_touches.createBody _ _ _ hpath)
  modifyItem r _ hf hmark :=
    homes_of_touches (fun _ => .modifyItem hf) (allows_touches.modifyItem r hf hmark)
  registerPath _ h := h.elim

/-- A header makes the shared headers that it refers to, and leaves all paths at home. -/
theorem convertHeader_homes (hN : HeadersStand N document) (specName header : Document) :
    Keeps (Model.Homes N) (convertHeader document specName header) := by
  refine .skip_answer (.field _ _) fun reference hreference => ?_
  obtain ⟨_, _, hget⟩ := hreference
  cases hnull : reference.isNull with
  | true => exact allows_homes.createHeader specName header (by simp)
  | false =>
    exact keeps_of_houses fun m => referredHeader_houses hN (of_exec_require_ok hget) hnull

/-- The operations of a document leave all paths at home. -/
theorem insertAll_homes (hN : HeadersStand N document) :
    Keeps (Model.Homes N) (insertAll document) :=
  allows_homes.insertAll (convertHeader_homes hN) (fun _ => ⟨fun _ h => h⟩) fun _ => ⟨fun _ h => h⟩

end Operation

end TypedApi
