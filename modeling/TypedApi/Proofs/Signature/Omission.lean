import TypedApi.Proofs.Conversion.Stages
import TypedApi.Proofs.Document.Fields
import TypedApi.Proofs.Operation.Paired
import TypedApi.Proofs.Signature.Parts
/-!
Whether a request body may be left out.

A body says whether it is required, and its item keeps that as whether it admits
null. An item that a schema has made to admit null keeps that instead: a body
whose only schema is written out and admits null may be left out, whether it is
required or not. A shared body is lowered once, under its path, and an alias of
it leads to the same item, so the same is said wherever it is referred to.
-/

set_option autoImplicit false

namespace TypedApi

open Build

/-- Whether an item admits null is kept. -/
theorem Item.Stays.nullable_of {b : Bool} {a a' : Item} (h : a.Stays a') (ha : a.nullable = b) :
    a'.nullable = b :=
  h.nullable.trans ha

/-! ## Schemas that admit null -/

namespace Schema

/-- Whether a schema says that it admits null: by its keyword, or by null among its types. -/
def saysNull (schema : Document) : Bool :=
  ((schema.find? "nullable").getD .null).isTrue ||
    match schema.find? "type" with
    | some (.array types) => types.any (·.isText "null")
    | _ => false

/-- Whether a schema is written out and admits null. -/
def admitsNull (schema : Document) : Bool :=
  (referenceOf schema).isNull && saysNull schema

/-- The object form of a schema says what the schema says. -/
theorem saysNull_of_readObject {schema object : Document} (h : readObject schema = .ok object) :
    saysNull object = saysNull schema := by
  unfold readObject at h
  split at h
  · cases h
    rfl
  · cases h
    rfl
  · cases h
  · cases h

/-- Some element is left out exactly if fewer are left. -/
theorem length_filter_ne_iff {α : Type} {p : α → Bool} {l : List α} :
    decide ((l.filter fun a => !p a).length ≠ l.length) = l.any p := by
  rw [Bool.eq_iff_iff, decide_eq_true_eq, ne_eq, List.length_filter_eq_length_iff, List.any_eq_true]
  simp

/-- A schema admits null besides its type exactly if it says so. -/
theorem eq_saysNull_of_normalizes {schema typed : Document} {nullable : Bool}
    (h : Normalizes schema typed nullable) : nullable = saysNull schema := by
  obtain ⟨object, hobject, h⟩ := h
  rw [← saysNull_of_readObject hobject]
  unfold readNullable at h
  dsimp only at h
  split at h
  · rename_i types htypes
    rw [saysNull, htypes]
    dsimp only
    rw [← length_filter_ne_iff]
    split at h
    · exact (congrArg Prod.snd (Except.ok.inj h)).symm
    · exact (congrArg Prod.snd (Except.ok.inj h)).symm
    · cases h
  · rename_i hother
    have hkeyword := congrArg Prod.snd (Except.ok.inj h)
    rw [saysNull]
    split
    · rename_i types htypes
      exact absurd htypes (hother types)
    · rw [Bool.or_false]
      exact hkeyword.symm

end Schema

namespace Operation

/-! ## Bodies -/

/-- Whether a body has one schema, and that is written out and admits null. -/
def onlyNull : List Document → Bool
  | [schema] => Schema.admitsNull schema
  | _ => false

/-- Whether a call may leave out a body: it is not required, or its only schema is written out and
admits null. -/
def mayOmit (body : Document) : Bool :=
  !((body.find? "required").getD .null).holds || onlyNull (bodySchemas body)

variable {specName generatedName : String} {schema contentType body : Document} {required : Bool}
  {content : List (Document × Document)} {path : Option String} {w w' : Workbench} {item : Item}
  {r : Ref}

/-- An item that is answered with has been made to admit null exactly if a condition holds: it names
another then. -/
structure Nulls (item : Item) (condition : Bool) : Prop where
  isOuter : item.isOuter = condition
  nullable : item.isOuter = true → item.nullable = true

/-- An item that names no other has not been made to. -/
theorem nulls_of_innerName (h : item.innerName = none) : Nulls item false := by
  have houter : item.isOuter = false := by rw [Item.isOuter, h]; rfl
  exact ⟨houter, fun hyes => by rw [houter] at hyes; cases hyes⟩

/-- What is kept of an item keeps that. -/
theorem Nulls.stays {item' : Item} {condition : Bool} (h : Nulls item condition)
    (hstays : item.Stays item') : Nulls item' condition := by
  have hsame : item'.isOuter = item.isOuter := congrArg Option.isSome hstays.innerName
  refine ⟨hsame.trans h.isOuter, fun houter => ?_⟩
  rw [hstays.nullable, h.nullable (hsame ▸ houter)]

/-- The item for a media type is made to admit null by a schema that is written out. -/
theorem nulls_of_mediaItem
    (h : exec (mediaItem specName generatedName schema contentType) w = (.ok item, w')) :
    Nulls item (Schema.admitsNull schema) := by
  have hwraps := (mediaItem_pairs ..).fits _ _ _ h item rfl
  unfold mediaItem at h
  extract_lets reference at h
  by_cases hnull : schema.isNull = true
  · rw [if_pos hnull] at h
    obtain ⟨_, _, h⟩ := of_exec_bind_steady (.optionalText _) h
    cases h
    rw [Schema.eq_null_of_isNull hnull]
    exact nulls_of_innerName rfl
  · rw [if_neg hnull] at h
    by_cases hreference : reference.isNull = true
    · rw [if_pos hreference] at h
      refine ⟨?_, fun houter => ?_⟩
      · rw [Schema.admitsNull, hreference, Bool.true_and]
        rw [Schema.lower] at h
        cases hbound : min (schema.depth + 1) Schema.maxNesting with
        | zero =>
          rw [hbound] at h
          cases h
        | succ bound =>
          rw [hbound] at h
          obtain ⟨_, hnormal⟩ := Schema.isOuter_of_exec_lowerWith h
          exact Schema.eq_saysNull_of_normalizes hnormal
      · obtain ⟨_, _, _, _, hinner⟩ := hwraps houter
        exact hinner.nullable
    · rw [if_neg hreference] at h
      have hno : Schema.admitsNull schema = false := by
        rw [Schema.admitsNull, Bool.eq_false_iff.mpr hreference, Bool.false_and]
      rw [hno]
      obtain ⟨target, _, h⟩ := of_exec_bind_steady (.require _) h
      split at h
      · obtain ⟨_, _, h⟩ := of_exec_bind_steady (.optionalText _) h
        cases h
        exact nulls_of_innerName rfl
      · obtain ⟨_, _, _, h⟩ := of_exec_bind_ok h
        obtain ⟨_, _, h⟩ := of_exec_bind_steady (.optionalText _) h
        cases h
        exact nulls_of_innerName rfl

/-- The item of a body is made to admit null by its only schema. -/
theorem nulls_of_bodyItem (h : exec (bodyItem specName required content) w = (.ok item, w')) :
    Nulls item (onlyNull (contentSchemas content)) := by
  unfold bodyItem at h
  dsimp only at h
  rcases content with _ | ⟨⟨contentType, media⟩, _ | ⟨second, rest⟩⟩
  · exact nulls_of_mediaItem h
  · obtain ⟨schema, u, hschema, h⟩ := of_exec_bind_ok h
    rw [eq_schemaOf_of_answers ⟨_, _, hschema⟩] at h
    exact nulls_of_mediaItem h
  · obtain ⟨shared, u, hshared, h⟩ := of_exec_bind_ok h
    cases shared with
    | true =>
      rw [if_pos rfl] at h
      obtain ⟨schema, v, hschema, h⟩ := of_exec_bind_ok h
      rw [eq_schemaOf_of_answers ⟨_, _, hschema⟩] at h
      -- a schema that all media types share is a reference
      have hreference := not_isNull_of_shares ⟨_, _, hshared⟩ _ List.mem_cons_self
      have hitem := nulls_of_mediaItem h
      rwa [Schema.admitsNull, Bool.eq_false_iff.mpr hreference, Bool.false_and] at hitem
    | false =>
      rw [if_neg Bool.false_ne_true] at h
      obtain ⟨variants, v, _, h⟩ := of_exec_bind_ok h
      cases h
      exact nulls_of_innerName rfl

/-- An item keeps whether a body may be left out, but one that has been made to admit null keeps
that. -/
theorem Nulls.nullable_markOptional {condition : Bool} (h : Nulls item condition) :
    (markOptional required item).nullable = (!required || condition) := by
  rw [markOptional, ← h.isOuter]
  cases houter : item.isOuter with
  | true =>
    rw [if_neg (by rw [Item.isOuter] at houter; simpa using Option.isSome_iff_ne_none.mp houter),
      h.nullable houter, Bool.or_true]
  | false => rw [if_pos (by simpa [Item.isOuter] using houter), Bool.or_false]

/-- **A body adds an item that admits null exactly if a call may leave it out.** -/
theorem exists_added (h : exec (createBody specName path body) w = (.ok r, w')) :
    ∃ item u, item.nullable = mayOmit body ∧ exec (addItem item path) u = (.ok r, w') := by
  rw [createBody] at h
  obtain ⟨given, hgiven, h⟩ := of_exec_bind_steady (.field _ _) h
  obtain ⟨content, hcontent, h⟩ := of_exec_bind_steady (.require _) h
  have hschemas : bodySchemas body = contentSchemas content := by
    rw [bodySchemas, of_exec_require_ok (hgiven w), Option.getD_some,
      of_exec_require_ok (hcontent w), Option.getD_some]
  extract_lets required description at h
  obtain ⟨item, u, hitem, hadd⟩ := of_exec_bind_ok h
  refine ⟨_, u, ?_, hadd⟩
  have hnulls := nulls_of_bodyItem hitem
  -- the description of the body concerns its documentation only
  have hdocumented : Nulls (if content.length ≤ 1 then item.orDocs description else item)
      (onlyNull (contentSchemas content)) := by
    split
    · exact hnulls.stays ((remark_orDocs description).stays item).1
    · exact hnulls
  rw [hdocumented.nullable_markOptional, mayOmit, hschemas]

/-! ## Shared bodies -/

/-- The path of a shared body. -/
def bodyPath (name : String) : String :=
  "#/components/requestBodies/" ++ name

/-- The body that a value stands for, given those that paths lead to: itself, or that of the path
that it refers to. -/
def meantBody (bodies : Table Document) (body : Document) : Option Document :=
  match body.find? "$ref" with
  | none => some body
  | some reference => reference.text?.bind bodies.get?

/-- One more shared body under its path, if it stands for one. -/
def withBody (bodies : Table Document) (entry : Document × Document) : Table Document :=
  match meantBody bodies entry.2 with
  | some body => bodies.insert (bodyPath entry.1.display) body
  | none => bodies

/-- The shared bodies of a document, by the paths that lead to them. An alias stands for a body
before it, as it is lowered. -/
def sharedBodies (document : Document) : Table Document :=
  ((Conversion.sectionOf? document "requestBodies").getD []).foldl withBody []

/-- The paths of shared bodies lead to items that admit null exactly if a call may leave out the
body. -/
def KeepsBodies (bodies : Table Document) (m : Model) : Prop :=
  ∀ path body, bodies.get? path = some body → m.Finds (.forward path) (·.nullable = mayOmit body)

theorem KeepsBodies.kept {bodies : Table Document} {m m' : Model} (h : KeepsBodies bodies m)
    (hkept : m.Kept m') : KeepsBodies bodies m' :=
  fun path body hget => (h path body hget).kept hkept fun _ _ hstays _ => hstays.nullable_of

/-- A body that is no reference is lowered under its path. -/
theorem finds_of_insertBody {key : Document} (href : body.find? "$ref" = none)
    (h : exec (Conversion.insertBody (key, body)) w = (.ok (), w')) :
    w'.model.Finds (.forward (bodyPath key.display)) (·.nullable = mayOmit body) := by
  rw [Conversion.insertBody] at h
  obtain ⟨_, _, h⟩ := of_exec_bind_steady (.require _) h
  rw [href] at h
  obtain ⟨name, _, h⟩ := of_exec_bind_steady (.require _) h
  obtain ⟨r, u, hcreate, h⟩ := of_exec_bind_ok h
  obtain ⟨item, v, hnullable, hadd⟩ := exists_added hcreate
  have hfinds := Model.finds_path_of_addItem (P := (·.nullable = mayOmit body)) hadd
    fun _ => hnullable
  have hlater : Keeps (Steps .anything) (do
      Conversion.publish r
      modifyItem r (·.orDocs ((body.find? "description").getD .null))) :=
    .of_along fun _ => .bind (Conversion.publish_along _) fun _ _ _ _ =>
      .modifyItem (remark_orDocs _)
  exact hfinds.kept (hlater.of_exec h).kept fun _ _ hstays _ => hstays.nullable_of

/-- The path of an alias leads to where the path that it refers to leads. -/
theorem indexOf_of_insertBody {key reference : Document} (href : body.find? "$ref" = some reference)
    (h : exec (Conversion.insertBody (key, body)) w = (.ok (), w')) :
    ∃ target index, reference = .text target ∧ w.model.indexOf (.forward target) = .ok index ∧
      w'.model.indexOf (.forward (bodyPath key.display)) = .ok index := by
  rw [Conversion.insertBody] at h
  obtain ⟨_, _, h⟩ := of_exec_bind_steady (.require _) h
  rw [href] at h
  obtain ⟨r, u, hnamed, hregister⟩ := of_exec_bind_ok h
  obtain ⟨target, index, rfl, hget, rfl, rfl⟩ := of_exec_namedBy hnamed
  refine ⟨target, index, rfl, by rw [Model.indexOf, hget], ?_⟩
  rcases registerPath_cases (bodyPath key.display) (.back index) u with
    ⟨_, hfail⟩ | ⟨index', hindex', _, _, hok⟩
  · cases hfail.symm.trans hregister
  · cases hok.symm.trans hregister
    obtain rfl : index = index' := Option.some.inj hindex'
    rw [Model.indexOf, Model.withPath, Table.get?_insert_self]

/-- **A shared body leads to what it stands for**: it is lowered under its path, or its path leads to
where the path that it refers to leads. -/
theorem KeepsBodies.insertBody {bodies : Table Document} {entry : Document × Document}
    (hw : KeepsBodies bodies w.model)
    (h : exec (Conversion.insertBody entry) w = (.ok (), w')) :
    KeepsBodies (withBody bodies entry) w'.model := by
  obtain ⟨key, body⟩ := entry
  have hkept : w.model.Kept w'.model :=
    kept_of_exec (fun _ => Conversion.insertBody_along _) h
  have hold := hw.kept hkept
  rw [withBody]
  cases hmeant : meantBody bodies body with
  | none => exact hold
  | some meant =>
    intro path body' hget
    by_cases hpath : path = bodyPath key.display
    · subst hpath
      rw [Table.get?_insert_self] at hget
      obtain rfl := Option.some.inj hget
      rw [meantBody] at hmeant
      cases href : body.find? "$ref" with
      | none =>
        rw [href] at hmeant
        obtain rfl := Option.some.inj hmeant
        exact finds_of_insertBody href h
      | some reference =>
        rw [href] at hmeant
        obtain ⟨target, index, rfl, htarget, hown⟩ := indexOf_of_insertBody href h
        refine (hold target _ hmeant).of_indexOf_eq ?_
        rw [hown, hkept.indexOf htarget]
    · rw [Table.get?_insert_of_ne _ _ hpath] at hget
      exact hold path body' hget

/-- After all shared bodies, each path leads to what it stands for. The induction is on the entries,
since an alias stands for a body before it. -/
theorem KeepsBodies.forM {bodies : Table Document} {entries : List (Document × Document)}
    (hw : KeepsBodies bodies w.model)
    (h : exec (entries.forM Conversion.insertBody) w = (.ok (), w')) :
    KeepsBodies (entries.foldl withBody bodies) w'.model := by
  induction entries generalizing w bodies with
  | nil =>
    cases h
    exact hw
  | cons entry entries ih =>
    obtain ⟨_, u, hentry, hrest⟩ := of_exec_bind_ok h
    exact ih (hw.insertBody hentry) hrest

/-! ## The body of an operation -/

/-- The value that an operation has for its request body, null for none. -/
def requestBodyOf (operation : Document) : Document :=
  (operation.find? "requestBody").getD .null

/-- An operation has no body, or one that is kept with its item: the item of the path that it refers
to, or one of its own that admits null exactly if a call may leave out the body. -/
theorem bodyOf_cases {verb : Verb} {path operationId operation : Document} {answer : Option Ref}
    (h : exec (bodyOf verb path operationId operation) w = (.ok answer, w')) :
    ((requestBodyOf operation).isNull || !verb.admitsBody) = true ∧ answer = none ∨
    ((requestBodyOf operation).isNull || !verb.admitsBody) = false ∧
      ((∃ target index, (requestBodyOf operation).find? "$ref" = some (.text target) ∧
          w.model.indexOf (.forward target) = .ok index ∧ answer = some (.back index)) ∨
        ((requestBodyOf operation).find? "$ref" = none ∧ ∃ r, answer = some r ∧
          w'.model.Finds r (·.nullable = mayOmit (requestBodyOf operation)))) := by
  rw [bodyOf] at h
  split at h
  · rename_i hnone
    cases h
    exact .inl ⟨hnone, rfl⟩
  · rename_i hsome
    refine .inr ⟨Bool.eq_false_iff.mpr hsome, ?_⟩
    obtain ⟨_, _, h⟩ := of_exec_bind_steady (.require _) h
    split at h
    · obtain ⟨r, u, hnamed, h⟩ := of_exec_bind_ok h
      cases h
      obtain ⟨reference, hreference, hnamed⟩ := of_exec_bind_steady (.field _ _) hnamed
      obtain ⟨target, index, rfl, hget, rfl, _⟩ := of_exec_namedBy hnamed
      refine .inl ⟨target, index, ?_, by rw [Model.indexOf, hget], rfl⟩
      exact Document.find?_of_get? (of_exec_require_ok (hreference w)) rfl
    · rename_i hown
      obtain ⟨name, _, h⟩ := of_exec_bind_steady (steady_specNameOf ..) h
      obtain ⟨r, u, hcreate, h⟩ := of_exec_bind_ok h
      cases h
      obtain ⟨item, v, hnullable, hadd⟩ := exists_added hcreate
      refine .inr ⟨Option.not_isSome_iff_eq_none.mp hown, r, rfl, ?_⟩
      exact Model.finds_of_addItem hadd fun _ => hnullable

end Operation

end TypedApi
