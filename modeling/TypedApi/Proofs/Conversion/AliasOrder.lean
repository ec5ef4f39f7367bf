import TypedApi.Proofs.Conversion.SchemaReference
import TypedApi.Proofs.Operation.Touches
/-!
The order of aliases among shared components.

An entry of the components may be a reference to another entry of its own
section. Shared schemas keep the reference until the end and shared headers are
lowered when they are first needed, so both may refer ahead. Shared parameters,
request bodies and responses look up what has been lowered so far: the tables
they read hold the entries before, and those of other sections, and nothing
else. A document in which one of them refers ahead to its own section is not
converted, although the same entries in another order may be.
-/

set_option autoImplicit false

namespace TypedApi

open Build

/-! ## Beginnings of paths -/

/-- Texts that begin differently are different. -/
theorem append_ne_append {a b x y : String} (hab : ¬a.toList <+: b.toList)
    (hba : ¬b.toList <+: a.toList) : a ++ x ≠ b ++ y := by
  intro h
  have hlist : a.toList ++ x.toList = b.toList ++ y.toList := by
    rw [← String.toList_append, ← String.toList_append, h]
  -- of two beginnings of one list, one begins the other
  rcases List.prefix_or_prefix_of_prefix (List.prefix_append a.toList x.toList)
    (hlist ▸ List.prefix_append b.toList y.toList) with h | h
  · exact hab h
  · exact hba h

namespace Conversion

/-! ## What the shared components register -/

/-- A shared schema registers its own path. -/
theorem insertSchema_touches (entry : Document × Document) :
    Keeps (Model.Touches (· = "#/components/schemas/" ++ entry.1.display)) (insertSchema entry) := by
  obtain ⟨key, schema⟩ := entry
  refine .bind ?_ fun r => .modifyItem r Operation.keepsMark_pubTypedef
  cases key with
  | text name =>
    have hpath : ∀ p, some ("#/components/schemas/" ++ name) = some p →
        p = "#/components/schemas/" ++ name := fun _ h => (Option.some.inj h).symm
    show Keeps _ (addSchema (.text name) schema)
    refine .skip_answer (.require _) fun specName hname => ?_
    obtain ⟨_, _, hname⟩ := hname
    cases hname
    refine .ite ?_ (.skip (.require _) fun target => .ite ?_ ?_)
    · exact .bind (.of_grows (Schema.lower_grows ..)) fun _ => .addItem_path hpath
    · exact .skip (.note _) fun _ => .addItem_path hpath
    · refine .bind (.of_grows (Schema.convert_grows ..)) fun _ => .skip (.textOrNull _) fun _ => ?_
      exact .addItem_path hpath
  -- a key that is no text fails before anything is added
  | _ => exact .skip_answer (.require _) fun _ ⟨_, _, h⟩ => by cases h

/-- A shared parameter registers its own path. -/
theorem insertParameter_touches (entry : Document × Document) :
    Keeps (Model.Touches (· = "#/components/parameters/" ++ entry.1.display))
      (insertParameter entry) :=
  .bind (Operation.insertComponentParameter_touches _ rfl) fun r =>
    .modifyItem r Operation.keepsMark_pubTypedef

/-- A shared request body registers its own path. -/
theorem insertBody_touches (entry : Document × Document) :
    Keeps (Model.Touches (· = "#/components/requestBodies/" ++ entry.1.display))
      (insertBody entry) := by
  obtain ⟨key, body⟩ := entry
  refine .skip (.require _) fun _ => ?_
  split
  · exact (Keeps.namedBy _).bind fun r => .registerPath rfl
  · refine .skip (.require _) fun specName => ?_
    refine .bind (Operation.createBody_touches _ _ fun p hp => (Option.some.inj hp).symm) fun r => ?_
    exact .bind (.modifyItem r Operation.keepsMark_pubTypedef) fun _ =>
      .modifyItem r (Operation.keepsMark_orDocs _)

/-- The shared variants after are those before, and the one of a path. -/
def SharesAt (path : String) (m m' : Model) : Prop :=
  ∀ p ∈ m'.responseVariants.keys, p ∈ m.responseVariants.keys ∨ p = path

instance (path : String) : IsPreorder Model (SharesAt path) where
  refl _ _ hp := .inl hp
  trans _ _ _ h h' p hp := (h' p hp).elim (h p) .inr

/-- A shared response keeps its variants under its own path. -/
theorem insertResponse_sharesAt (document : Document) (entry : Document × Document) :
    Keeps (SharesAt ("#/components/responses/" ++ entry.1.display))
      (insertResponse document entry) := by
  obtain ⟨key, response⟩ := entry
  have hshare : ∀ variants, Keeps (SharesAt ("#/components/responses/" ++ key.display))
      (modifyModel fun m => m.withShared ("#/components/responses/" ++ key.display) variants) :=
    fun variants => ⟨fun w p hp => (Table.mem_keys_insert hp).symm⟩
  refine .skip (.require _) fun _ => ?_
  split
  · exact .skip (Operation.still_cachedVariantsBy _) fun variants => hshare variants
  · refine .skip (.require _) fun specName => .bind ?_ fun variants => hshare variants
    -- lowering the response itself shares nothing
    exact (Operation.createVariants_touches ..).mono fun _ _ h p hp =>
      .inl (h.responseVariants_eq ▸ hp)

/-! ## What has been registered before an entry -/

/-- After some entries, the paths are those from before them and their own. -/
theorem mem_paths_of_forM {α : Type} {f : α → Build PUnit} {path : α → String}
    (hf : ∀ e, Keeps (Model.Touches (· = path e)) (f e)) {entries : List α} {w u : Workbench}
    (h : exec (entries.forM f) w = (.ok (), u)) {p : String}
    (hp : p ∈ u.model.namedReferences.keys) :
    p ∈ w.model.namedReferences.keys ∨ ∃ e ∈ entries, p = path e := by
  have hloop : Keeps (Model.Touches fun p => ∃ e ∈ entries, p = path e) (entries.forM f) :=
    .forM fun e he => (hf e).mono fun _ _ h => h.mono fun _ hp => ⟨e, he, hp⟩
  exact (hloop.of_exec h).mem_paths hp

/-- The paths after the shared schemas are paths of shared schemas. -/
theorem mem_paths_of_schemas {entries : List (Document × Document)} {options : ConversionOptions}
    {docs : Option Docs.Fetcher} {u : Workbench}
    (h : exec (entries.forM insertSchema) (start options docs) = (.ok (), u)) {p : String}
    (hp : p ∈ u.model.namedReferences.keys) : ∃ name, p = "#/components/schemas/" ++ name := by
  have hloop : Keeps (Model.Touches fun p => ∃ name, p = "#/components/schemas/" ++ name)
      (entries.forM insertSchema) :=
    .forM fun e _ => (insertSchema_touches e).mono fun _ _ h => h.mono fun _ hp => ⟨_, hp⟩
  rcases (hloop.of_exec h).mem_paths hp with hp | hp
  -- a conversion starts without paths
  · cases hp
  · exact hp

/-- After some shared responses, the variants kept are those from before them and their own. -/
theorem mem_shared_of_forM {document : Document} {entries : List (Document × Document)}
    {w u : Workbench} (h : exec (entries.forM (insertResponse document)) w = (.ok (), u)) {p : String}
    (hp : p ∈ u.model.responseVariants.keys) :
    p ∈ w.model.responseVariants.keys ∨
      ∃ e ∈ entries, p = "#/components/responses/" ++ e.1.display := by
  induction entries generalizing w with
  | nil =>
    cases h
    exact .inl hp
  | cons e entries ih =>
    obtain ⟨_, v, he, hrest⟩ := of_exec_bind_ok h
    rcases ih hrest with hp | ⟨e', he', hp⟩
    · refine ((insertResponse_sharesAt document e).of_exec he p hp).imp_right fun hp => ?_
      exact ⟨e, List.mem_cons_self, hp⟩
    · exact .inr ⟨e', List.mem_cons_of_mem _ he', hp⟩

/-- A lookup that answers was for a registered path. -/
theorem mem_paths_of_namedBy {path : String} {w w' : Workbench} {r : Ref}
    (h : exec (namedBy (.text path)) w = (.ok r, w')) :
    path ∈ w.model.namedReferences.keys := by
  obtain ⟨_, index, hpath, hget, _⟩ := of_exec_namedBy h
  cases hpath
  exact List.mem_map_of_mem (Table.mem_of_get?_eq_some hget)

/-! ## Aliases -/

/-- Every entry that refers to an entry of its own section comes after one with that key. -/
def AliasesReferBack (sectionPath : String) (entries : List (Document × Document)) : Prop :=
  ∀ before key entry after target, entries = before ++ (key, entry) :: after →
    entry.find? "$ref" = some (.text (sectionPath ++ target)) →
    ∃ e ∈ before, e.1.display = target

/-- A loop whose body looks up the path of an alias among those registered refers back. -/
theorem aliasesReferBack_of_lookup {f : Document × Document → Build PUnit} {sectionPath : String}
    (hf : ∀ e, Keeps (Model.Touches (· = sectionPath ++ e.1.display)) (f e))
    (hlookup : ∀ key entry path u u', exec (f (key, entry)) u = (.ok (), u') →
      entry.find? "$ref" = some (.text path) → path ∈ u.model.namedReferences.keys)
    {entries : List (Document × Document)} {w w' : Workbench}
    (h : exec (entries.forM f) w = (.ok (), w'))
    (hfree : ∀ target, sectionPath ++ target ∉ w.model.namedReferences.keys) :
    AliasesReferBack sectionPath entries := by
  rintro before key entry after target rfl hentry
  obtain ⟨u, u', hbefore, halias, _⟩ := of_exec_forM_ok h
  rcases mem_paths_of_forM hf hbefore (hlookup key entry _ u u' halias hentry) with hp | ⟨e, he, hp⟩
  · exact absurd hp (hfree target)
  · exact ⟨e, he, ((String.append_right_inj _).mp hp).symm⟩

/-- A shared parameter that is an alias is looked up. -/
theorem lookup_of_insertParameter (key entry : Document) (path : String) (u u' : Workbench)
    (h : exec (insertParameter (key, entry)) u = (.ok (), u'))
    (hentry : entry.find? "$ref" = some (.text path)) :
    path ∈ u.model.namedReferences.keys := by
  obtain ⟨r, v, h, _⟩ := of_exec_bind_ok h
  obtain ⟨fields, v', hfields, h⟩ := of_exec_bind_ok h
  have hv : v'.model = u.model := by
    have hsame := (Still.require entry.fields?).model_eq u
    rwa [hfields] at hsame
  rw [hentry] at h
  obtain ⟨r, v'', hnamed, _⟩ := of_exec_bind_ok h
  exact hv ▸ mem_paths_of_namedBy hnamed

/-- A shared request body that is an alias is looked up. -/
theorem lookup_of_insertBody (key entry : Document) (path : String) (u u' : Workbench)
    (h : exec (insertBody (key, entry)) u = (.ok (), u'))
    (hentry : entry.find? "$ref" = some (.text path)) :
    path ∈ u.model.namedReferences.keys := by
  obtain ⟨fields, v', hfields, h⟩ := of_exec_bind_ok h
  have hv : v'.model = u.model := by
    have hsame := (Still.require entry.fields?).model_eq u
    rwa [hfields] at hsame
  rw [hentry] at h
  obtain ⟨r, v'', hnamed, _⟩ := of_exec_bind_ok h
  exact hv ▸ mem_paths_of_namedBy hnamed

/-- A shared response that is an alias is looked up among the variants kept. -/
theorem lookup_of_insertResponse {document key entry : Document} {path : String} {u u' : Workbench}
    (h : exec (insertResponse document (key, entry)) u = (.ok (), u'))
    (hentry : entry.find? "$ref" = some (.text path)) :
    path ∈ u.model.responseVariants.keys := by
  obtain ⟨fields, v', hfields, h⟩ := of_exec_bind_ok h
  have hv : v'.model = u.model := by
    have hsame := (Still.require entry.fields?).model_eq u
    rwa [hfields] at hsame
  rw [hentry] at h
  obtain ⟨variants, v'', hcached, _⟩ := of_exec_bind_ok h
  rw [Operation.cachedVariantsBy, exec_bind_model, exec_lift, Model.cachedVariants, hv] at hcached
  by_contra hnot
  rw [Table.get?_eq_none_iff.mpr hnot] at hcached
  cases hcached

/-- **Aliases among shared parameters, request bodies and responses refer back.** In a document that
is converted, an entry of one of these sections that is a reference to an entry of the same section
comes after an entry with that key. A document in which it comes before all of them is not
converted. -/
theorem aliases_refer_back {document : Document} {options : ConversionOptions}
    {docs : Option Docs.Fetcher} {model : Model} (hrun : (run document options docs).1 = .ok model) :
    (∀ entries, sectionOf? document "parameters" = some entries →
      AliasesReferBack "#/components/parameters/" entries) ∧
    (∀ entries, sectionOf? document "requestBodies" = some entries →
      AliasesReferBack "#/components/requestBodies/" entries) ∧
    (∀ entries, sectionOf? document "responses" = some entries →
      AliasesReferBack "#/components/responses/" entries) := by
  obtain ⟨w, hconstruct, _⟩ := run_eq_ok_iff.mp hrun
  obtain ⟨schemas, parameters, bodies, responses, u₁, v₁, u₂, u₃, u₄, ⟨_, hloop₁, hsame⟩,
    ⟨hparameters, hloop₂⟩, ⟨hbodies, hloop₃⟩, hresponses, hloop₄⟩ := exists_stages hconstruct
  -- what the earlier stages have registered begins differently
  have hfree₁ : ∀ target, "#/components/parameters/" ++ target ∉ v₁.model.namedReferences.keys := by
    intro target hp
    rw [hsame] at hp
    obtain ⟨name, hname⟩ := mem_paths_of_schemas hloop₁ hp
    exact append_ne_append (by decide +kernel) (by decide +kernel) hname
  have hfree₂ : ∀ target, "#/components/requestBodies/" ++ target ∉ u₂.model.namedReferences.keys := by
    intro target hp
    rcases mem_paths_of_forM insertParameter_touches hloop₂ hp with hp | ⟨e, _, hp⟩
    · rw [hsame] at hp
      obtain ⟨name, hname⟩ := mem_paths_of_schemas hloop₁ hp
      exact append_ne_append (by decide +kernel) (by decide +kernel) hname
    · exact append_ne_append (by decide +kernel) (by decide +kernel) hp
  -- and none of them has kept variants
  have hshared : u₃.model.responseVariants = [] := by
    have hschemas : Keeps (Model.Touches fun _ => True) (schemas.forM insertSchema) :=
      .forM fun e _ => (insertSchema_touches e).mono fun _ _ h => h.mono fun _ _ => trivial
    have hparams : Keeps (Model.Touches fun _ => True) (parameters.forM insertParameter) :=
      .forM fun e _ => (insertParameter_touches e).mono fun _ _ h => h.mono fun _ _ => trivial
    have hbods : Keeps (Model.Touches fun _ => True) (bodies.forM insertBody) :=
      .forM fun e _ => (insertBody_touches e).mono fun _ _ h => h.mono fun _ _ => trivial
    rw [(hbods.of_exec hloop₃).responseVariants_eq, (hparams.of_exec hloop₂).responseVariants_eq,
      hsame, (hschemas.of_exec hloop₁).responseVariants_eq]
    rfl
  refine ⟨fun entries hentries => ?_, fun entries hentries => ?_, fun entries hentries => ?_⟩
  · cases hparameters.symm.trans hentries
    exact aliasesReferBack_of_lookup insertParameter_touches lookup_of_insertParameter hloop₂ hfree₁
  · cases hbodies.symm.trans hentries
    exact aliasesReferBack_of_lookup insertBody_touches lookup_of_insertBody hloop₃ hfree₂
  · cases hresponses.symm.trans hentries
    rintro before key entry after target rfl hentry
    obtain ⟨u, u', hbefore, halias, _⟩ := of_exec_forM_ok hloop₄
    rcases mem_shared_of_forM hbefore (lookup_of_insertResponse halias hentry) with hp | ⟨e, he, hp⟩
    · rw [hshared] at hp
      cases hp
    · exact ⟨e, he, ((String.append_right_inj _).mp hp).symm⟩

/-! ## An alias and its target in both orders -/

/-- A parameter in the query. -/
def queryParameter : Document :=
  .object [(.text "name", .text "b"), (.text "in", .text "query"),
    (.text "schema", .object [(.text "type", .text "string")])]

/-- A reference to the shared parameter `B`. -/
def aliasOfB : Document :=
  .object [(.text "$ref", .text "#/components/parameters/B")]

/-- A document with nothing but shared parameters. -/
def parametersDocument (parameters : List (Document × Document)) : Document :=
  .object [(.text "components", .object [(.text "parameters", .object parameters)])]

/-- The alias after its target: the document is converted, and the alias refers back. -/
theorem aliasAfter_refers_back :
    ∃ model, (run (parametersDocument [(.text "B", queryParameter), (.text "A", aliasOfB)]) {} none).1 =
        .ok model ∧
      AliasesReferBack "#/components/parameters/" [(.text "B", queryParameter), (.text "A", aliasOfB)] := by
  obtain ⟨model, hmodel⟩ : ∃ model,
      (run (parametersDocument [(.text "B", queryParameter), (.text "A", aliasOfB)]) {} none).1 =
        .ok model := ⟨_, rfl⟩
  exact ⟨model, hmodel, (aliases_refer_back hmodel).1 _ rfl⟩

/-- The same two entries in both orders: with the alias in front the document is not converted. -/
theorem aliasBefore_fails :
    (∃ model, (run (parametersDocument [(.text "B", queryParameter), (.text "A", aliasOfB)]) {}
        none).1 = .ok model) ∧
      (run (parametersDocument [(.text "A", aliasOfB), (.text "B", queryParameter)]) {} none).1 =
        .error ⟨.unknownReference "#/components/parameters/B", none⟩ :=
  ⟨⟨_, rfl⟩, rfl⟩

end Conversion

end TypedApi
