import TypedApi.Proofs.Operation.Changes
import TypedApi.Proofs.Schema.Paired
import Mathlib.Algebra.BigOperators.Group.List.Basic
/-!
Operations leave pairs in order.

The parts of an operation store the items that schemas are lowered to, and items
of their own that name no other. A request body is the one part that changes an
item before it is stored: it says whether the body may be left out, on an item
that names no other. An item that names one admits null already, and stays as it
is, so a body makes the pairs of its schemas.
-/

set_option autoImplicit false

namespace TypedApi.Operation

open Build

/-! ## Bodies -/

/-- Whether a body may be left out is not said on an item that names another. -/
theorem keepsPair_markOptional (required : Bool) : Item.KeepsPair (markOptional required) := by
  intro item
  refine ⟨?_, fun houter => ?_⟩
  · rw [markOptional]
    split <;> rfl
  · have hsome : item.innerName.isNone = false := Option.isNone_eq_false_iff.mpr houter
    rw [markOptional, hsome]
    exact ⟨rfl, rfl⟩

/-- The schema of a media type object, null for none. -/
def schemaOf (media : Document) : Document :=
  ((media.orElse (.object [])).get? "schema").getD .null

/-- The schemas of a content map, in order. -/
def contentSchemas (content : List (Document × Document)) : List Document :=
  content.map fun entry => schemaOf entry.2

/-- The schemas of a request body, in order. -/
def bodySchemas (body : Document) : List Document :=
  contentSchemas
    ((((body.get? "content").getD .null).orElse (.object [])).fields?.getD [])

/-- How many of the schemas that are written out in some schemas admit null. -/
def nullablesOf (schemas : List Document) : Nat :=
  (schemas.map (Schema.written Schema.nullablesIn)).sum

theorem eq_schemaOf_of_answers {media schema : Document} (h : Answers (mediaSchema media) schema) :
    schema = schemaOf media := by
  obtain ⟨_, _, h⟩ := h
  rw [schemaOf, of_exec_require_ok h]
  rfl

theorem written_of_reference {count : Document → Nat} {schema : Document}
    (h : ¬(Schema.referenceOf schema).isNull = true) : Schema.written count schema = 0 :=
  if_neg h

/-- A media type makes the pairs of its schema. -/
theorem mediaItem_pairs (specName generatedName : String) (schema contentType : Document) :
    MakesPairs (Schema.written Schema.nullablesIn schema)
      (mediaItem specName generatedName schema contentType) some := by
  unfold mediaItem
  extract_lets reference
  by_cases hnull : schema.isNull = true
  · rw [if_pos hnull, Schema.eq_null_of_isNull hnull]
    exact .skip (.optionalText _) fun _ => .pureItem rfl
  · rw [if_neg hnull]
    by_cases hreference : reference.isNull = true
    · rw [if_pos hreference, Schema.written, if_pos hreference]
      exact Schema.lower_pairs ..
    · rw [if_neg hreference]
      refine .skip (.require _) fun path => .ite ?_ ?_
      · rw [written_of_reference hreference]
        exact .skip (.optionalText _) fun _ => .pureItem rfl
      · refine (Schema.convert_pairs ..).bind_zero fun target => ?_
        exact .skip (.optionalText _) fun _ => .pureItem rfl

theorem bodyVariant_pairs (required : Bool) (entry : Document × Document) :
    MakesPairs (Schema.written Schema.nullablesIn (schemaOf entry.2))
      (bodyVariant required entry) := by
  refine .skip (.require _) fun specName => .skip_answer (.field _ _) fun schema hschema => ?_
  rw [eq_schemaOf_of_answers hschema, ← bind_assoc]
  exact ((mediaItem_pairs ..).store (keepsPair_markOptional required)).bind fun _ => .pure _

/-- What is the same as a text is that text. -/
theorem eq_text_of_same {d : Document} {s : String} (h : (Document.text s).same d = true) :
    d = .text s := by
  cases d with
  | text t => simpa [Document.same, eq_comm] using h
  | _ => simp [Document.same, Document.integer?] at h

/-- What is the same as something that is not null is not null. -/
theorem not_isNull_of_same {d d' : Document} (h : d.same d' = true) (hd : ¬d.isNull = true) :
    ¬d'.isNull = true := by
  intro hd'
  rw [Schema.eq_null_of_isNull hd'] at h
  cases d with
  | null => exact hd rfl
  | _ => simp [Document.same, Document.integer?] at h

/-- Where all media types share a reference, it is that of the first one, and it is given. -/
theorem same_of_shares {entry : Document × Document} {rest : List (Document × Document)}
    (h : Answers (sharesReference (entry :: rest)) true) :
    ¬(Schema.referenceOf (schemaOf entry.2)).isNull = true ∧
      ∀ other ∈ rest, (Schema.referenceOf (schemaOf entry.2)).same
        (Schema.referenceOf (schemaOf other.2)) = true := by
  obtain ⟨w, w', h⟩ := h
  obtain ⟨references, u, hreferences, h⟩ := of_exec_bind_ok h
  have hall := (forall₂_of_exec_mapM hreferences).imp fun entry reference hread => by
    obtain ⟨v, v', hread⟩ := hread
    obtain ⟨schema, v'', hschema, hread⟩ := of_exec_bind_ok hread
    have hreference : Schema.referenceOf schema = reference := by
      dsimp only at hread
      split at hread
      · cases hread
        rfl
      · cases hread
    exact (congrArg Schema.referenceOf (eq_schemaOf_of_answers ⟨_, _, hschema⟩)).symm.trans
      hreference
  cases hall with
  | cons hentry hrest =>
    have hshared := Except.ok.inj (congrArg Prod.fst h)
    rw [Bool.and_eq_true, List.all_eq_true, Bool.not_eq_true', ← hentry] at hshared
    refine ⟨by rw [hshared.2]; exact Bool.false_ne_true, fun other hother => ?_⟩
    obtain ⟨reference, hmem, hreference⟩ := exists_of_mem_forall₂ hrest hother
    rw [hreference]
    exact hshared.1 _ hmem

/-- Where all media types share a reference, no schema is written out. -/
theorem not_isNull_of_shares {content : List (Document × Document)}
    (h : Answers (sharesReference content) true) :
    ∀ entry ∈ content, ¬(Schema.referenceOf (schemaOf entry.2)).isNull = true := by
  cases content with
  | nil => simp
  | cons first rest =>
    obtain ⟨hgiven, hsame⟩ := same_of_shares h
    intro entry hentry
    rcases List.mem_cons.mp hentry with rfl | hentry
    · exact hgiven
    · exact not_isNull_of_same (hsame entry hentry) hgiven

theorem written_of_shares {content : List (Document × Document)}
    (h : Answers (sharesReference content) true) :
    ∀ entry ∈ content, Schema.written Schema.nullablesIn (schemaOf entry.2) = 0 :=
  fun entry hentry => written_of_reference (not_isNull_of_shares h entry hentry)

theorem nullablesOf_of_shares {content : List (Document × Document)}
    (h : Answers (sharesReference content) true) : nullablesOf (contentSchemas content) = 0 := by
  rw [nullablesOf, contentSchemas, List.map_map]
  apply List.sum_eq_zero
  intro n hn
  obtain ⟨entry, hentry, rfl⟩ := List.mem_map.mp hn
  exact written_of_shares h entry hentry

theorem bodyVariants_pairs (required : Bool) (content : List (Document × Document)) :
    MakesPairs (nullablesOf (contentSchemas content)) (content.mapM (bodyVariant required)) := by
  rw [nullablesOf, contentSchemas, List.map_map]
  exact .mapM (bodyVariant_pairs required) content

theorem bodyItem_pairs (specName : String) (required : Bool)
    (content : List (Document × Document)) :
    MakesPairs (nullablesOf (contentSchemas content)) (bodyItem specName required content)
      some := by
  unfold bodyItem
  dsimp only
  split
  · exact mediaItem_pairs specName _ .null .null
  · refine .skip_answer (.field _ _) fun schema hschema => ?_
    rw [eq_schemaOf_of_answers hschema]
    exact mediaItem_pairs ..
  · refine .skip_answer (steady_sharesReference _).still fun shared hshared => ?_
    cases shared with
    | true =>
      -- the one item stands for all media types, and none of them makes a pair
      have hfirst := written_of_shares hshared _ List.mem_cons_self
      rw [if_pos rfl, nullablesOf_of_shares hshared]
      refine .skip_answer (.field _ _) fun schema hschema => ?_
      rw [← hfirst, eq_schemaOf_of_answers hschema]
      exact mediaItem_pairs ..
    | false =>
      rw [if_neg Bool.false_ne_true]
      refine (bodyVariants_pairs required _).bind_zero fun variants => ?_
      exact .pureItem rfl

/-- **A request body makes a pair for each nullable schema that is written out in its schemas**,
whether it may be left out or not. -/
theorem createBody_pairs (specName : String) (path : Option String) (body : Document) :
    MakesPairs (nullablesOf (bodySchemas body)) (createBody specName path body) := by
  refine .skip_answer (.field _ _) fun given hgiven => ?_
  refine .skip_answer (.require _) fun content hcontent => ?_
  obtain ⟨_, _, hgiven⟩ := hgiven
  obtain ⟨_, _, hcontent⟩ := hcontent
  rw [bodySchemas, of_exec_require_ok hgiven, Option.getD_some, of_exec_require_ok hcontent,
    Option.getD_some]
  extract_lets required
  have hdocumented := Item.KeepsPair.ite (c := content.length ≤ 1)
    (remark_orDocs ((body.find? "description").getD .null)).keepsPair Item.keepsPair_id
  have hstored := (keepsPair_markOptional required).comp hdocumented
  exact (bodyItem_pairs ..).store hstored

/-! ## Operations -/

/-- The parts of an operation leave pairs in order. -/
theorem allows_paired : Allows (fun _ => True) Model.StaysPaired where
  addItem h _ := .addPlain h
  addInline _ _ _ _ _ _ := (Schema.addInline_pairs ..).keeps
  convert _ _ _ := (Schema.convert_pairs ..).keeps
  createBody _ _ _ _ := (createBody_pairs ..).keeps
  modifyItem r _ hf _ := .remarkOn r hf
  registerPath r _ := .pathOf _ r

theorem insertAll_paired (document : Document) : Keeps Model.StaysPaired (insertAll document) :=
  allows_paired.insertAll (allows_paired.convertHeader (fun _ _ => trivial) _)
    (fun _ => .modifyModel_definitions fun _ => rfl) fun _ => .modifyModel_definitions fun _ => rfl

end TypedApi.Operation
