import TypedApi.Conversion
import TypedApi.Proofs.Operation.Likewise
/-!
Conversions of two respellings.

A schema that admits everything may be written as true or as the empty object.
Wherever it is read as a schema that may be Boolean, the conversion comes to the
same: to one model, or to failures of one family. This covers shared schemas,
properties, elements of arrays, further fields, alternatives, and the media
types of request bodies. In the three other places of a schema, those of a
parameter, of a header and of a media type of a response, it does not: there true
is malformed.
-/

set_option autoImplicit false

namespace TypedApi.Conversion

open Build Document

section

variable {d d' : Document} (hd : Respelled d d') {v v' : Document}

include hd

/-! ## The components -/

/-- The entries of one section. -/
theorem section_likewise {σ : Role} {key : String}
    (h : Given (ReadAs d d') .components v v')
    (hσ : Role.under .components v (.text key) = some (.map σ)) :
    Likewise (section? v key) (section? v' key) (List.Forall₂ (Entry (ReadAs d d') σ)) :=
  .bind (.field hd.inherited h nofun hσ) fun _ _ hx => .require (hx.entries? hd.inherited)

theorem addSchema_likewise (key : Document) (h : ReadAs d d' (.schema true) v v') :
    Likewise (addSchema key v) (addSchema key v') Eq := by
  have hread := Given.read h
  rw [addSchema, addSchema, Schema.referenceOf_eq hd.inherited h,
    (Schema.Keywords.of_read hd.inherited h).plain "description" (by decide)]
  refine .next fun specName => .ite (fun _ => Schema.addInline_likewise hd hread ..) fun _ => ?_
  refine .next fun target => .ite (fun _ => .rfl _) fun _ => ?_
  exact .skip (Schema.convert_likewise hd hread ..) fun _ => .rfl _

theorem insertSchema_likewise {p p' : Document × Document}
    (hp : Entry (ReadAs d d') (.schema true) p p') :
    Likewise (insertSchema p) (insertSchema p') Eq := by
  rw [insertSchema, insertSchema, hp.1]
  exact .skip (addSchema_likewise hd _ hp.2) fun _ => .rfl _

theorem insertParameter_likewise {p p' : Document × Document}
    (hp : Entry (ReadAs d d') .parameter p p') :
    Likewise (insertParameter p) (insertParameter p') Eq := by
  rw [insertParameter, insertParameter, hp.1]
  exact .skip (Operation.insertComponentParameter_likewise hd _ hp.2) fun _ => .rfl _

theorem insertBody_likewise {p p' : Document × Document}
    (hp : Entry (ReadAs d d') .body p p') : Likewise (insertBody p) (insertBody p') Eq := by
  obtain ⟨key, body⟩ := p
  obtain ⟨key', body'⟩ := p'
  obtain ⟨hkey, h⟩ := hp
  dsimp only at hkey h
  subst hkey
  rw [insertBody, insertBody]
  rw [hd.inherited.find?_eq h "$ref" (by decide), hd.inherited.find?_eq h "description" (by decide)]
  refine .bind (.fields hd.inherited (.read h) nofun) fun _ _ _ => ?_
  split
  · exact .rfl _
  · exact .next fun specName => .skip (Operation.createBody_likewise hd _ _ h) fun _ => .rfl _

theorem insertResponse_likewise {p p' : Document × Document}
    (hp : Entry (ReadAs d d') .response p p') :
    Likewise (insertResponse d p) (insertResponse d' p') Eq := by
  obtain ⟨key, response⟩ := p
  obtain ⟨key', response'⟩ := p'
  obtain ⟨hkey, h⟩ := hp
  dsimp only at hkey h
  subst hkey
  rw [insertResponse, insertResponse]
  dsimp only
  rw [hd.inherited.find?_eq h "$ref" (by decide)]
  refine .bind (.fields hd.inherited (.read h) nofun) fun _ _ _ => ?_
  split
  · exact .rfl _
  · exact .next fun name => .skip (Operation.createVariants_likewise hd _ h) fun _ => .rfl _

theorem insertHeader_likewise {p p' : Document × Document}
    (hp : Entry (ReadAs d d') .header p p') :
    Likewise (insertHeader d p) (insertHeader d' p') Eq := by
  rw [insertHeader, insertHeader, hp.1]
  exact .skip (Operation.insertComponentHeader_likewise hd _ hp.2) fun _ => .rfl _

/-! ## The conversion -/

theorem build_likewise : Likewise (build d) (build d') Eq := by
  refine .bind (.field hd.inherited (.read .root) nofun rfl) fun c c' hc => ?_
  have hcomponents := hc.orElse hd.inherited nofun .noFields
  refine .bind (section_likewise hd hcomponents rfl) fun schemas schemas' hschemas => ?_
  refine .skip (.forM hschemas fun _ _ => insertSchema_likewise hd) fun _ => ?_
  rw [hschemas.length_eq]
  refine .next fun _ => .bind (section_likewise hd hcomponents rfl) fun _ _ hparameters => ?_
  refine .skip (.forM hparameters fun _ _ => insertParameter_likewise hd) fun _ => ?_
  refine .bind (section_likewise hd hcomponents rfl) fun _ _ hbodies => ?_
  refine .skip (.forM hbodies fun _ _ => insertBody_likewise hd) fun _ => ?_
  refine .bind (section_likewise hd hcomponents rfl) fun _ _ hresponses => ?_
  refine .skip (.forM hresponses fun _ _ => insertResponse_likewise hd) fun _ => ?_
  refine .bind (section_likewise hd hcomponents rfl) fun _ _ hheaders => ?_
  refine .skip (.forM hheaders fun _ _ => insertHeader_likewise hd) fun _ => ?_
  exact .skip (Operation.insertAll_likewise hd) fun _ => .rfl _

/-- **Both spellings of a schema that admits everything come to the same**: documents that differ in
nothing but such spellings, in places where a schema may be Boolean, have the same model or fail
with problems of one family. -/
theorem run_respelled (options : ConversionOptions) (docs : Option Docs.Fetcher) :
    Accord Eq (run d options docs).1 (run d' options docs).1 := by
  have hrun := (build_likewise hd).runs (start options docs)
  change Accord Eq ((exec (build d) (start options docs)).1.map fun _ =>
    (exec (build d) (start options docs)).2.model) ((exec (build d') (start options docs)).1.map
      fun _ => (exec (build d') (start options docs)).2.model)
  generalize exec (build d) (start options docs) = p at hrun ⊢
  generalize exec (build d') (start options docs) = q at hrun ⊢
  cases hrun with
  | fail e e' u w hkind => exact .fail e e' hkind
  | answer _ _ w _ => exact .answer w.model w.model rfl

end

/-- A document with a schema in every place where a schema may be Boolean: shared, a property, the
elements of an array, further fields, an alternative, and the body of a request. -/
def everywhere (schema : Document) : Document :=
  .object
    [(.text "components", .object
      [(.text "schemas", .object
        [(.text "Any", schema),
          (.text "Box", .object [(.text "properties", .object [(.text "lid", schema)])]),
          (.text "Row", .object [(.text "items", schema)]),
          (.text "Map", .object [(.text "additionalProperties", schema)]),
          (.text "Fork", .object [(.text "oneOf", .array [schema])])]),
        (.text "requestBodies", .object
          [(.text "Body", .object
            [(.text "content", .object
              [(.text "application/json", .object [(.text "schema", schema)])])])])])]

set_option maxRecDepth 4000 in
/-- With the empty object and with true in all those places, the model is the same. -/
theorem run_everywhere :
    Respelled (everywhere (.object [])) (everywhere (.bool true)) ∧
      ∃ m, (run (everywhere (.object [])) {} none).1 = .ok m ∧
        (run (everywhere (.bool true)) {} none).1 = .ok m := by
  have hd : Respelled (everywhere (.object [])) (everywhere (.bool true)) :=
    respelled_of_respells (by rfl)
      (show respells _ _ 8 .root _ _ = true by decide +kernel)
  have haccord := run_respelled hd {} none
  have hok : (run (everywhere (.object [])) {} none).1.isOk = true := by decide +kernel
  generalize (run (everywhere (.object [])) {} none).1 = x at haccord hok ⊢
  generalize (run (everywhere (.bool true)) {} none).1 = y at haccord ⊢
  cases haccord with
  | fail e e' hkind => cases hok
  | answer m m' hm => exact ⟨hd, m, rfl, congrArg _ hm.symm⟩

/-! ## Where true is malformed -/

/-- A document with a schema for the one answer of an operation. -/
def answering (schema : Document) : Document :=
  .object
    [(.text "paths", .object
      [(.text "/a", .object
        [(.text "get", .object
          [(.text "responses", .object
            [(.text "200", .object
              [(.text "content", .object
                [(.text "application/json", .object [(.text "schema", schema)])])])])])])])]

/-- A document with a schema for a shared parameter. -/
def asking (schema : Document) : Document :=
  .object
    [(.text "components", .object
      [(.text "parameters", .object
        [(.text "P", .object
          [(.text "name", .text "p"), (.text "in", .text "query"), (.text "schema", schema)])])])]

/-- A document with a schema for a shared header. -/
def heading (schema : Document) : Document :=
  .object
    [(.text "components", .object
      [(.text "headers", .object [(.text "H", .object [(.text "schema", schema)])])])]

set_option maxRecDepth 4000 in
/-- **In the three other places the two spellings do not come to the same**: with the empty object
there is a model, with true the conversion goes wrong. -/
theorem true_malformed :
    ((run (answering (.object [])) {} none).1.isOk = true ∧
        (run (answering (.bool true)) {} none).1 = .error ⟨.malformed, none⟩) ∧
      ((run (asking (.object [])) {} none).1.isOk = true ∧
        (run (asking (.bool true)) {} none).1 = .error ⟨.malformed, none⟩) ∧
      (run (heading (.object [])) {} none).1.isOk = true ∧
        (run (heading (.bool true)) {} none).1 = .error ⟨.malformed, none⟩ :=
  ⟨⟨by decide +kernel, rfl⟩, ⟨by decide +kernel, rfl⟩, by decide +kernel, rfl⟩

end TypedApi.Conversion
