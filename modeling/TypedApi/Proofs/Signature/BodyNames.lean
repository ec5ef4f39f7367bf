import TypedApi.Proofs.Name.Identifier
import TypedApi.Proofs.Signature.Union
/-!
The names of the variants of a body.

A body with several content types becomes a union with a variant for each of
them, and no tag tells its variants apart. Each is named, when the model is
finished, after the item that was added for it. These items have different names,
whatever the content types are called and whatever was there before; but a
display name is made anew from the words of the item's name, and so two names
that differ in case and underscores only may come to the same.
-/

set_option autoImplicit false

namespace TypedApi.Operation

open Build

variable {w w' : Workbench} {m m' : Model} {r : Ref} {specName : String} {path : Option String}
  {body : Document} {content : List (Document × Document)} {entry : Document × Document}
  {required : Bool} {v : Variant} {vs : List Variant} {name : String}

/-! ## Items for content types -/

/-- A variant that will be named after the item that it refers to, which has a name already. -/
structure Awaits (m : Model) (v : Variant) (name : String) : Prop where
  unnamed : v.name = .unnamed
  untagged : v.mappingName = none
  item : ∃ (j : Nat) (item : Item), v.definition = .back j ∧ m.definitions[j]? = some item ∧
    item.generatedName = name
  taken : name ∈ m.items.keys

/-- Names that are taken stay so. -/
theorem keys_subset_of_kept (h : m.Kept m') : m.items.keys ⊆ m'.items.keys :=
  (h.items.map Prod.fst).subset

theorem Awaits.kept (h : Awaits m v name) (hkept : m.Kept m') : Awaits m' v name := by
  obtain ⟨j, item, hv, hitem, hname⟩ := h.item
  obtain ⟨item', hitem', hstays, _⟩ := hkept.definitions j item hitem
  exact ⟨h.unnamed, h.untagged, ⟨j, item', hv, hitem', hstays.generatedName.trans hname⟩,
    keys_subset_of_kept hkept h.taken⟩

/-- The item for a content type is added under a name that is new. -/
theorem exists_awaits (h : exec (bodyVariant required entry) w = (.ok v, w')) :
    ∃ name, name ∉ w.model.items.keys ∧ Awaits w'.model v name := by
  rw [bodyVariant] at h
  obtain ⟨_, _, h⟩ := of_exec_bind_steady (.require _) h
  extract_lets proposed at h
  obtain ⟨schema, _, h⟩ := of_exec_bind_steady (.field _ _) h
  obtain ⟨item, u, hitem, h⟩ := of_exec_bind_ok h
  obtain ⟨r, u', hadd, h⟩ := of_exec_bind_ok h
  cases h
  have hkept := kept_of_exec (fun _ => mediaItem_along ..) hitem
  rcases addItem_cases (markOptional required item) none u with
    ⟨_, _, hfail, _⟩ | ⟨name, notes, _, _, hfree, _, hok⟩
  · rw [hfail] at hadd
    cases hadd
  · rw [hok] at hadd
    cases hadd
    refine ⟨name, fun hmem => ?_, rfl, rfl, ⟨u.model.size,
      { markOptional required item with generatedName := name }, rfl, ?_, rfl⟩, ?_⟩
    · exact Table.get?_eq_none_iff.mp hfree (keys_subset_of_kept hkept hmem)
    · simp [Model.withItem, Model.size]
    · exact List.mem_map_of_mem (Table.mem_of_get?_eq_some (Table.get?_insert_self _ _ _))

/-- **The items for the content types have different names**, all of them new. The induction is on
the content types: what is new for the rest is not the name of the first, which is taken by then. -/
theorem exists_names (h : exec (content.mapM (bodyVariant required)) w = (.ok vs, w')) :
    ∃ names, names.Nodup ∧ (∀ name ∈ names, name ∉ w.model.items.keys) ∧
      List.Forall₂ (Awaits w'.model) vs names := by
  induction content generalizing w vs with
  | nil =>
    cases h
    exact ⟨[], List.nodup_nil, by simp, .nil⟩
  | cons entry content ih =>
    rw [List.mapM_cons] at h
    obtain ⟨v, u, hv, h⟩ := of_exec_bind_ok h
    obtain ⟨vs, u', hvs, h⟩ := of_exec_bind_ok h
    cases h
    obtain ⟨name, hnew, hawaits⟩ := exists_awaits hv
    obtain ⟨names, hnodup, hfree, hall⟩ := ih hvs
    have hfirst := kept_of_exec (fun _ => bodyVariant_along ..) hv
    have hrest : Keeps (Steps .anything) (content.mapM (bodyVariant required)) :=
      .mapM (fun _ => .of_along fun _ => bodyVariant_along ..) _
    refine ⟨name :: names, List.nodup_cons.mpr ⟨fun hmem => hfree name hmem hawaits.taken, hnodup⟩,
      List.forall_mem_cons.mpr ⟨hnew, fun other hother hmem => ?_⟩,
      .cons (hawaits.kept (hrest.of_exec hvs).kept) hall⟩
    exact hfree other hother (keys_subset_of_kept hfirst hmem)

/-- A body whose content types do not share a reference is a union of variants that were made for
them. -/
theorem exists_union (hcontent : contentOf? body = some content) (hseveral : 1 < content.length)
    (hshared : exec (sharesReference content) w = (.ok false, w))
    (h : exec (createBody specName path body) w = (.ok r, w')) :
    ∃ required vs u item, exec (content.mapM (bodyVariant required)) w = (.ok vs, u) ∧
      exec (addItem item path) u = (.ok r, w') ∧ item.shape = .oneOf none vs := by
  rw [createBody] at h
  obtain ⟨d, hd, h⟩ := of_exec_bind_steady (.field _ _) h
  obtain ⟨content', hcontent', h⟩ := of_exec_bind_steady (.require _) h
  obtain rfl : content' = content := by
    rw [contentOf?, of_exec_require_ok (hd w)] at hcontent
    exact Option.some.inj ((of_exec_require_ok (hcontent' w)).symm.trans hcontent)
  extract_lets required description at h
  obtain ⟨item, u, hitem, hadd⟩ := of_exec_bind_ok h
  obtain ⟨vs, hvs, hshape⟩ : ∃ vs, exec (content'.mapM (bodyVariant required)) w = (.ok vs, u) ∧
      item.shape = .oneOf none vs := by
    rcases content' with _ | ⟨first, _ | ⟨second, rest⟩⟩
    · cases hseveral
    · cases Nat.lt_irrefl 1 hseveral
    · unfold bodyItem at hitem
      dsimp only at hitem
      rw [exec_bind_ok hshared, if_neg (by simp)] at hitem
      obtain ⟨vs, u', hvs, hitem⟩ := of_exec_bind_ok hitem
      cases hitem
      exact ⟨vs, hvs, rfl⟩
  refine ⟨required, vs, u, _, hvs, hadd, ?_⟩
  rw [markOptional]
  split <;> split <;> simp [hshape, shape_orDocs]

/-! ## Names -/

/-- The reference of a variant that awaits its name is settled to a number, which leads to that name
wherever the items have kept theirs. -/
theorem Awaits.nameOf_settled (h : Awaits m v name) (hm' : ∀ (j : Nat) (item : Item),
    m.definitions[j]? = some item → ∃ item' : Item, m'.definitions[j]? = some item' ∧
      item'.generatedName = item.generatedName) :
    m'.nameOf (settle m.resolved v.definition) = .ok name := by
  obtain ⟨j, item, hv, hitem, rfl⟩ := h.item
  obtain ⟨item', hitem', hname⟩ := hm' j item hitem
  have hindex := Model.indexOf_back (List.getElem?_eq_some_iff.mp hitem).1
  have hsettled : settle m.resolved v.definition = .resolved j := by
    rw [hv, settle, Model.resolved_eq_ok_iff.mpr ⟨_, hindex, rfl⟩]
  rw [hsettled, Model.nameOf_resolved hitem', hname]

/-- A union whose variants are named after the items that they refer to. The items have different
names, and the display names are different where the names of the items differ in more than case
and underscores. -/
structure NamedUnion (m : Model) (r : Ref) (count : Nat) (vs : List Variant) (names : List String) :
    Prop where
  shows : m.Shows r (.oneOf none vs)
  length_eq : vs.length = count
  items : List.Forall₂ (fun v name => m.nameOf v.definition = .ok name) vs names
  nodup : names.Nodup
  named : vs.map Variant.name =
    names.zipIdx.map fun p => .named (Variant.nameFrom p.2 (some p.1))
  distinct : (names.zipIdx.map Variant.spelling).Nodup → (vs.map Variant.name).Nodup

/-- **A union that waits for its names gets them** when the model is finished. -/
theorem namedUnion_of_finish {names : List String} (hshows : m.Shows r (.oneOf none vs))
    (hnames : names.Nodup) (hall : List.Forall₂ (Awaits m) vs names)
    (hfinish : m.finish = (m', none)) : ∃ vs', NamedUnion m' r vs.length vs' names := by
  have hkept := Model.kept_of_finish hfinish
  let g := settle m.resolved
  let nameOf := fun r => (m.settled.nameOf r).map some
  let vs' := (Model.nameVariants nameOf 0 (vs.map (Variant.relocate g))).1
  have hreferences : vs'.map Variant.definition = vs.map fun v => g v.definition := by
    have hunnamed : vs'.map Variant.unnamed = (vs.map (Variant.relocate g)).map Variant.unnamed :=
      Model.map_unnamed_nameVariants 0 _
    have hsame := congrArg (List.map Variant.definition) hunnamed
    simpa only [List.map_map, Function.comp_def, Variant.definition_unnamed,
      Variant.definition_relocate] using hsame
  have hitems : List.Forall₂ (fun r name => m'.nameOf r = .ok name)
      (vs.map fun v => g v.definition) names := by
    refine List.forall₂_map_left_iff.mpr (hall.imp fun v name hv => ?_)
    refine hv.nameOf_settled fun j item hitem => ?_
    obtain ⟨item', hitem', hstays, _⟩ := hkept.definitions j item hitem
    exact ⟨item', hitem', hstays.generatedName⟩
  have hnamed : vs'.map Variant.name =
      names.zipIdx.map fun p => .named (Variant.nameFrom p.2 (some p.1)) := by
    refine Model.names_of_nameVariants (List.forall₂_map_left_iff.mpr (hall.imp fun v name hv => ?_))
    refine ⟨hv.unnamed, ?_, ?_⟩
    · rw [Variant.taggedBase?, Variant.relocate, hv.untagged]
    -- the names are looked up while the items are relocated already, which has left them theirs
    · have hname : m.settled.nameOf (g v.definition) = .ok name := hv.nameOf_settled
        fun j item hitem => ⟨item.relocate g, by simp [Model.settled, Model.relocate, hitem, g], rfl⟩
      simp only [nameOf, Variant.definition_relocate, hname]
      rfl
  refine ⟨vs', hshows.finish_oneOf hfinish, ?_, ?_, hnames, hnamed, fun hspelled => ?_⟩
  · rw [← List.length_map Variant.definition, hreferences, List.length_map]
  · rw [← hreferences] at hitems
    exact List.forall₂_map_left_iff.mp hitems
  · rw [hnamed]
    exact Variant.nodup_of_spelling hspelled

/-- **The variants of a body are named after different items.** Whatever the model is and whatever
the content types are called, a body with several that do not share a reference becomes a union with
a variant for each. Whatever is called before the model is finished, each variant then has the
display name that is made from the name of its own item, no two items have the same name, and no two
variants do if the names of their items differ in more than case and underscores. -/
theorem namedUnion_of_createBody (hcontent : contentOf? body = some content)
    (hseveral : 1 < content.length) (hshared : exec (sharesReference content) w = (.ok false, w))
    (h : exec (createBody specName path body) w = (.ok r, w')) (later : List Call)
    (hfinish : (Call.after later w').model.finish = (m, none)) :
    ∃ vs names, NamedUnion m r content.length vs names := by
  obtain ⟨required, vs, u, item, hvs, hadd, hshape⟩ := exists_union hcontent hseveral hshared h
  obtain ⟨names, hnames, _, hall⟩ := exists_names hvs
  have hlength : content.length = vs.length := (forall₂_of_exec_mapM hvs).length_eq
  have hlater := Call.kept_by_calls later w'
  -- the model is open when it is finished, so it was open all the time since the union was added
  have hopen := (Model.definitions_finish hfinish).1
  have hsame : (Call.after later w').model.finalized = w'.model.finalized := by
    cases hfinal : w'.model.finalized with
    | false => exact hopen
    | true => exact hlater.finalized hfinal
  have hshows := (hshape ▸ Model.shows_of_addItem hadd).kept hlater hsame
  have hkept : u.model.Kept (Call.after later w').model :=
    (kept_of_exec (fun _ => .addItem (Standard.fits_anything ..)) hadd).trans hlater
  obtain ⟨vs', hunion⟩ := namedUnion_of_finish hshows hnames
    (hall.imp fun _ _ hawaits => hawaits.kept hkept) hfinish
  exact ⟨vs', names, hlength ▸ hunion⟩

/-- A letter may be sent as XML under either of its names. -/
def letterContent : List (Document × Document) :=
  [(.text "application/xml", .object [(.text "schema", .object [(.text "type", .text "string")])]),
    (.text "text/xml", .object [(.text "schema", .object [(.text "type", .text "string")])])]

/-- A body with some content types. -/
def bodyOfContent (content : List (Document × Document)) : Document :=
  .object [(.text "content", .object content)]

/-- What the content types of a body share is read off without touching anything. -/
theorem exec_sharesReference {shared : Bool}
    (h : (exec (sharesReference content) w).1.toOption = some shared) :
    exec (sharesReference content) w = (.ok shared, w) := by
  obtain ⟨answer, hanswer⟩ := (steady_sharesReference content).runs
  rw [hanswer] at h ⊢
  cases answer with
  | error e => cases h
  | ok a => rw [Option.some.inj h]

/-- The letter is a union of two variants, and nothing is in the way of finishing the model. -/
theorem letter_named :
    ∃ r w' m vs names, exec (createBody "Letter" none (bodyOfContent letterContent)) {} =
      (.ok r, w') ∧ w'.model.finish = (m, none) ∧ NamedUnion m r 2 vs names := by
  have hshared : exec (sharesReference letterContent) {} = (.ok false, {}) :=
    exec_sharesReference (by decide +kernel)
  have hfinished : (exec (createBody "Letter" none (bodyOfContent letterContent)) {}).1.toOption.map
      (fun _ => (exec (createBody "Letter" none (bodyOfContent letterContent))
        {}).2.model.finish.2.isNone) = some true := by
    decide +kernel
  rcases hrun : exec (createBody "Letter" none (bodyOfContent letterContent)) {} with ⟨result, w'⟩
  rw [hrun] at hfinished
  obtain ⟨r, rfl, hnone⟩ := exists_of_toOption_map hfinished
  rcases hfinish : w'.model.finish with ⟨m, e⟩
  rw [hfinish] at hnone
  obtain rfl := Option.isNone_iff_eq_none.mp hnone
  have hcontent : contentOf? (bodyOfContent letterContent) = some letterContent := rfl
  obtain ⟨vs, names, hunion⟩ :=
    namedUnion_of_createBody hcontent (by decide) hshared hrun [] hfinish
  exact ⟨r, w', m, vs, names, rfl, hfinish, hunion⟩

/-- Two content types that differ in a hyphen, the first with an object of a single property. -/
def hyphenContent : List (Document × Document) :=
  [(.text "application/a-b", .object [(.text "schema", .object [(.text "type", .text "object"),
      (.text "properties", .object [(.text "x", .object [(.text "type", .text "string")])])])]),
    (.text "application/ab", .object [(.text "schema", .object [(.text "type", .text "string")])])]

/-- Their variants in the finished model. -/
def hyphenVariants : List Variant :=
  [{ definition := .resolved 1, name := .named "ApplicationAb" },
    { definition := .resolved 2, name := .named "ApplicationAb" }]

/-- **Different items are not enough for different display names.** The second conversion lowers the
second capital of `AB`, and nothing tells the two variants apart any more. -/
theorem hyphen_named_alike :
    contentOf? (bodyOfContent hyphenContent) = some hyphenContent ∧ 1 < hyphenContent.length ∧
      exec (sharesReference hyphenContent) {} = (.ok false, {}) ∧
      ∃ w' m, exec (createBody "Pair" none (bodyOfContent hyphenContent)) {} =
          (.ok (.back 3), w') ∧ w'.model.finish = (m, none) ∧
        m.Shows (.back 3) (.oneOf none hyphenVariants) ∧
        m.definitions.map Item.generatedName = ["X", "ApplicationAB", "ApplicationAb", "Pair"] ∧
        ¬(hyphenVariants.map Variant.name).Nodup := by
  refine ⟨rfl, by decide, exec_sharesReference (by decide +kernel), ?_⟩
  have hfinished : (exec (createBody "Pair" none (bodyOfContent hyphenContent)) {}).1.toOption.map
      (fun r =>
        let m := (exec (createBody "Pair" none (bodyOfContent hyphenContent)) {}).2.model.finish
        (r, m.2.isNone, m.1.size, m.1.definitions.map Item.generatedName,
          m.1.definitions[3]?.map Item.shape)) =
      some (.back 3, true, 4, ["X", "ApplicationAB", "ApplicationAb", "Pair"],
        some (.oneOf none hyphenVariants)) := by
    decide +kernel
  rcases hrun : exec (createBody "Pair" none (bodyOfContent hyphenContent)) {} with ⟨result, w'⟩
  rw [hrun] at hfinished
  obtain ⟨r, rfl, hfinished⟩ := exists_of_toOption_map hfinished
  rcases hfinish : w'.model.finish with ⟨m, e⟩
  rw [hfinish] at hfinished
  simp only [Prod.mk.injEq, Option.isNone_iff_eq_none] at hfinished
  obtain ⟨rfl, rfl, hsize, hnames, hunion⟩ := hfinished
  obtain ⟨item, hitem, hshape⟩ := Option.map_eq_some_iff.mp hunion
  have hindex : m.indexOf (.back 3) = .ok 3 := Model.indexOf_back (by rw [hsize]; decide)
  exact ⟨w', m, rfl, hfinish, ⟨3, item, hindex, hitem, hshape⟩, hnames, by decide⟩

end TypedApi.Operation
