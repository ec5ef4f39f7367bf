import TypedApi.Proofs.Conversion.Stages
import TypedApi.Proofs.Document.Pointer
/-!
References to shared schemas by their keys.

Two lookups answer the reference to a shared schema. Reading the document
unescapes the last segment, so the reference is made by escaping the key, and it
resolves to the schema whatever the key is. The table of registered paths holds
the keys as they are. The two agree on every key without tildes and slashes: at
any moment of a conversion, and in any position, a reference to such a key is
converted to one that leads to the item of that schema in the model returned.
On other keys the table does not know the reference.
-/

set_option autoImplicit false

namespace TypedApi

open Build

namespace Conversion

/-! ## What adding a shared schema registers -/

/-- A shared schema that has been added is what its path leads to. -/
theorem addSchema_registers {key : String} {schema : Document} {w w' : Workbench} {r : Ref}
    (h : exec (addSchema (.text key) schema) w = (.ok r, w')) :
    ∃ index : Nat, r = .back index ∧
      w'.model.namedReferences.get? ("#/components/schemas/" ++ key) = some (index : Int) ∧
      index < w'.model.size := by
  obtain ⟨item, u, _, hadd⟩ := of_addSchema h
  obtain ⟨hr, hpath, hsize⟩ := addItem_registers hadd
  exact ⟨u.model.size, hr, hpath, by omega⟩

/-! ## Moments of a conversion -/

/-- A workbench that the construction of a document passes through: steps lead to it from the start,
and steps lead on from it to the model that is constructed. -/
structure Passes (document : Document) (options : ConversionOptions) (docs : Option Docs.Fetcher)
    (v : Workbench) : Prop where
  reached : Steps .pending (start options docs).model v.model
  goes_on : Steps .pending v.model (exec (construct document) (start options docs)).2.model

/-- A schema that is a reference to a path of the document is converted without adding anything, to
a reference that leads where the path leads in the end. -/
theorem convertWith_leads {lower : Schema.Lower} {m : Model} {v : Workbench} {path : String}
    {index : Int} {schema : Document} (hschema : Schema.referenceOf schema = .text path)
    (hinternal : WellKnown.isExternal path = false) (hsteps : Steps .pending v.model m)
    (hpath : m.namedReferences.get? path = some index) (hrange : m.inRange index = true)
    (specName generatedName : String) (own : Option String)
    (placement : Option Schema.Placement) :
    ∃ r, exec (Schema.convertWith lower specName generatedName own schema placement) v =
        (.ok r, v) ∧ m.indexOf r = .ok index := by
  have htext : exec (require (Document.text path).text?) v = (.ok path, v) := rfl
  rw [Schema.convertWith, hschema, if_neg (by simp [Document.isNull]), exec_bind_ok htext,
    exec_bind_model]
  cases hget : v.model.namedReferences.get? path with
  -- registered by now: the index is the one that the path keeps to the end
  | some old =>
    have hkept := hsteps.get?_namedReferences hget
    rw [hpath] at hkept
    cases hkept
    exact ⟨.back index, rfl, by rw [Model.indexOf, if_pos hrange]⟩
  -- not registered yet: the path itself is kept, and looked up in the end
  | none =>
    rw [hinternal]
    exact ⟨.forward path, rfl, by rw [Model.indexOf, hpath]⟩

/-- Where a construction that answers has added the shared schema of an entry: the moment before,
the moment after, and the index, which the path of the entry leads to from then on. -/
theorem exists_addSchema {document : Document} {options : ConversionOptions}
    {docs : Option Docs.Fetcher} {w : Workbench} {before after : List (Document × Document)}
    {key : String} {schema : Document}
    (hconstruct : exec (construct document) (start options docs) = (.ok (), w))
    (hschemas : sectionOf? document "schemas" = some (before ++ (.text key, schema) :: after)) :
    ∃ (u u' : Workbench) (index : Nat),
      exec (before.forM insertSchema) (start options docs) = (.ok (), u) ∧
      exec (addSchema (.text key) schema) u = (.ok (.back index), u') ∧
      u'.model.namedReferences.get? ("#/components/schemas/" ++ key) = some (index : Int) ∧
      index < u'.model.size ∧ Steps .pending u'.model w.model := by
  obtain ⟨components, hcomponents⟩ := exists_components hschemas
  have hstages := exec_construct hcomponents hschemas (start options docs)
  rw [hconstruct] at hstages
  obtain ⟨_, v₁, hloop, hrest⟩ := of_exec_bind_ok hstages.symm
  obtain ⟨u, v₀, hbefore, hentry, hafter⟩ := of_exec_forM_ok hloop
  obtain ⟨r, u', hadd, hpublish⟩ := of_exec_bind_ok hentry
  obtain ⟨index, rfl, hpath, hrange⟩ := addSchema_registers hadd
  refine ⟨u, u', index, hbefore, hadd, hpath, hrange, ?_⟩
  -- each part starts from a model that keeps the promises of a construction
  have hloops : ∀ (entries : List (Document × Document)) (m : Model),
      Along .pending m (entries.forM insertSchema) fun _ _ => True :=
    fun _ _ => .forM fun entry _ _ _ => insertSchema_along entry
  obtain ⟨_, hsound⟩ := (hloops before _).steps_of_exec (Standard.sound_empty _) hbefore
  obtain ⟨_, hsound⟩ := (addSchema_along ..).steps_of_exec hsound hadd
  obtain ⟨hsteps, hsound⟩ := (publish_along _).steps_of_exec hsound hpublish
  obtain ⟨hsteps', hsound⟩ := (hloops after _).steps_of_exec hsound hafter
  obtain ⟨hsteps'', _⟩ := (afterSchemas_along ..).steps_of_exec hsound hrest
  exact (hsteps.trans hsteps').trans hsteps''

/-- **References to shared schemas lead to their items**, for keys without tildes and slashes. The
reference to the key of an entry resolves to the schema of the entry. When a conversion returns a
model, the item that was added for the entry is the one that the reference leads to in that model,
and

* at every moment of the conversion a schema that is this reference, in any position, is converted
  to a reference that leads to that item in the model returned, and
* once the entry has been lowered, a parameter or header whose schema is this reference gets that
  item. -/
theorem schemaReference_leads {document : Document} {options : ConversionOptions}
    {docs : Option Docs.Fetcher} {model : Model} {before after : List (Document × Document)}
    {key : String} {schema : Document}
    (hrun : (run document options docs).1 = .ok model)
    (hschemas : sectionOf? document "schemas" = some (before ++ (.text key, schema) :: after))
    (hfirst : Document.lookup? key before = none)
    (htilde : '~' ∉ key.toList) (hslash : '/' ∉ key.toList) :
    document.resolve (Document.schemaReference key) = .ok schema ∧
    ∃ (u u' : Workbench) (index : Nat),
      exec (before.forM insertSchema) (start options docs) = (.ok (), u) ∧
      exec (addSchema (.text key) schema) u = (.ok (.back index), u') ∧
      model.indexOf (.forward (Document.schemaReference key)) = .ok (index : Int) ∧
      (∀ v, Passes document options docs v → ∀ lower specName generatedName own placement position,
        Schema.referenceOf position = .text (Document.schemaReference key) →
        ∃ r, exec (Schema.convertWith lower specName generatedName own position placement) v =
            (.ok r, v) ∧ model.indexOf r = .ok (index : Int)) ∧
      (∀ v, Steps .pending u'.model v.model → ∀ names,
        exec (Operation.referredItem names (.text (Document.schemaReference key))) v =
          (.ok (.back index), v)) := by
  obtain ⟨w, hconstruct, hfinish⟩ := run_eq_ok_iff.mp hrun
  obtain ⟨u, u', index, hbefore, hadd, hpath, hrange, hend⟩ :=
    exists_addSchema hconstruct hschemas
  have hplain := Document.schemaReference_of_plain htilde hslash
  have hinternal : WellKnown.isExternal (Document.schemaReference key) = false := by
    rw [hplain]
    exact isExternal_schemaPath key
  rw [← hplain] at hpath
  have hfinal := hend.get?_namedReferences hpath
  have hinRange : w.model.inRange index = true := by
    have := hend.size_le
    rw [Model.inRange_iff]
    omega
  -- what leads somewhere in the model constructed leads there in the model returned
  have hindexOf : ∀ r, model.indexOf r = w.model.indexOf r := by
    have hpending := pending_construct document options docs
    rw [hconstruct] at hpending
    intro r
    rw [← Model.indexOf_finish hpending.unfinished r, hfinish]
  refine ⟨?_, u, u', index, hbefore, hadd, ?_, ?_, ?_⟩
  · obtain ⟨components, hcomponents, hentries⟩ := find?_of_sectionOf? hschemas (by simp)
    refine Document.resolve_schemaReference hcomponents hentries ?_
    rw [Document.find?, Document.lookup?_append_of_none hfirst]
    simp [Document.lookup?, Document.isText]
  · rw [hindexOf, Model.indexOf, hfinal]
  · intro v hv lower specName generatedName own placement position hposition
    have hgoes := hv.goes_on
    rw [hconstruct] at hgoes
    obtain ⟨r, hr, hindex⟩ := convertWith_leads hposition hinternal hgoes hfinal hinRange
      specName generatedName own placement
    exact ⟨r, hr, by rw [hindexOf, hindex]⟩
  · intro v hv names
    have htext : exec (require (Document.text (Document.schemaReference key)).text?) v =
        (.ok (Document.schemaReference key), v) := rfl
    rw [Operation.referredItem, exec_bind_ok htext, hinternal, if_neg Bool.false_ne_true, named,
      exec_bind_model, Model.named, hv.get?_namedReferences hpath, exec_lift]

/-! ## Two documents -/

/-- A text schema. -/
def textSchema : Document :=
  .object [(.text "type", .text "string")]

/-- A document with two shared schemas, a text and a reference. -/
def referringDocument (key reference : String) : Document :=
  .object [(.text "components", .object [(.text "schemas", .object
    [(.text key, textSchema), (.text "X", .object [(.text "$ref", .text reference)])])])]

set_option maxRecDepth 4000 in
/-- A schema under a plain key is found by its reference at the start of the conversion, before it
has been lowered, and at the end. -/
theorem referringDocument_leads :
    ∃ model, (run (referringDocument "B" "#/components/schemas/B") {} none).1 = .ok model ∧
      (referringDocument "B" "#/components/schemas/B").resolve (Document.schemaReference "B") =
        .ok textSchema ∧
      ∃ index : Nat,
        model.indexOf (.forward (Document.schemaReference "B")) = .ok (index : Int) := by
  obtain ⟨model, hmodel⟩ :
      ∃ model, (run (referringDocument "B" "#/components/schemas/B") {} none).1 = .ok model :=
    ⟨_, rfl⟩
  have hschemas : sectionOf? (referringDocument "B" "#/components/schemas/B") "schemas" =
      some ([] ++ (.text "B", textSchema) ::
        [(.text "X", .object [(.text "$ref", .text "#/components/schemas/B")])]) := rfl
  obtain ⟨hresolve, _, _, index, _, _, hindex, _⟩ :=
    schemaReference_leads hmodel hschemas rfl (by decide +kernel) (by decide +kernel)
  exact ⟨model, hmodel, hresolve, index, hindex⟩

set_option maxRecDepth 4000 in
/-- A key with a slash: its reference resolves to the schema, and the conversion that meets the
reference fails because it is unknown. -/
theorem slashKey_unknown :
    (referringDocument "a/b" "#/components/schemas/a~1b").resolve (Document.schemaReference "a/b") =
        .ok textSchema ∧
      Document.schemaReference "a/b" = "#/components/schemas/a~1b" ∧
      (run (referringDocument "a/b" "#/components/schemas/a~1b") {} none).1 =
        .error ⟨.unknownReference "#/components/schemas/a~1b", none⟩ :=
  ⟨rfl, rfl, rfl⟩

end Conversion

end TypedApi
