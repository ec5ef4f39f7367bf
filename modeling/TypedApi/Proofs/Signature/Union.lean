import TypedApi.Proofs.Signature.Parts
/-!
The union of an operation's responses.

Every status contributes the variants of its response, relabelled with its own
name: a response that stands there is lowered, one variant for each content type
or a single one, and a reference takes the variants that were kept for a shared
response, with the items that they refer to. The shared responses are lowered
once, before all operations, and nothing changes their variants afterwards; so
two operations that refer to one of them refer to the same items.
-/

set_option autoImplicit false

namespace TypedApi

open Build

/-- A loop that answers has an answer for each element, each given on a model that the loop has
left in the relation that its body keeps. -/
theorem Keeps.forall₂_of_exec_mapM {α β : Type} {R : Model → Model → Prop} [IsPreorder Model R]
    {f : α → Build β} {as : List α} {bs : List β} {w w' : Workbench} (hf : ∀ a, Keeps R (f a))
    (h : exec (as.mapM f) w = (.ok bs, w')) :
    List.Forall₂ (fun a b => ∃ u u', R w.model u.model ∧ exec (f a) u = (.ok b, u')) as bs :=
  (forall₂_between (fun a _ _ _ => (hf a).of_exec) h).2.imp fun _ _ ⟨u, u', hu, hrun, _⟩ =>
    ⟨u, u', hu, hrun⟩

namespace Operation

variable {document response : Document} {itemName : String} {w w' : Workbench}
  {vs : List Variant}

/-! ## The variants of a response -/

/-- The content types of a response with their media type objects, if it has the form for them. -/
def contentOf? (response : Document) : Option (List (Document × Document)) := do
  ((← response.get? "content").orElse (.object [])).fields?

/-- The tags of the variants of a response: its content types if there are several, and otherwise
none for its only variant. -/
def tagsOf (content : List (Document × Document)) : List (Option String) :=
  if 2 ≤ content.length then content.map fun p => p.1.text? else [none]

/-- One variant for each content type of a response, in order, or one if it has no content. Each is
what lowering an entry of the content answers, and it is tagged with the content type, which is a
text then, exactly if there are several. -/
structure PerContentType (document : Document) (itemName : String) (response : Document)
    (content : List (Document × Document)) (vs : List Variant) : Prop where
  content_eq : contentOf? response = some content
  tags_eq : vs.map Variant.mappingName = tagsOf content
  isSome : 2 ≤ content.length → ∀ p ∈ content, p.1.text?.isSome
  lowered : ∃ entries headers docs,
    entries.map Prod.fst = (if content.isEmpty then [.null] else content.map Prod.fst) ∧
    List.Forall₂
      (fun entry => Answers
        (responseVariant document itemName (1 < content.length) headers docs entry)) entries vs

theorem PerContentType.length_eq {content : List (Document × Document)}
    (h : PerContentType document itemName response content vs) :
    vs.length = max 1 content.length := by
  have hlength := congrArg List.length h.tags_eq
  rw [List.length_map, tagsOf] at hlength
  split at hlength
  · rw [List.length_map] at hlength
    omega
  · rw [List.length_singleton] at hlength
    omega

/-- The tag of a variant that lowering an entry answers. -/
theorem of_responseVariant {multiple : Bool} {headers : List (String × Document)}
    {docs : Document} {entry : Document × Document} {v : Variant}
    (h : Answers (responseVariant document itemName multiple headers docs entry) v) :
    v.mappingName = (if multiple then entry.1.text? else none) ∧
      (multiple = true → entry.1.text?.isSome) := by
  obtain ⟨w, w', h⟩ := h
  obtain ⟨contentType, schema⟩ := entry
  unfold responseVariant at h
  dsimp -zeta only at h
  extract_lets finish rest at h
  have htag : ∀ name w, exec (rest name) w = (.ok v, w') →
      v.mappingName = if multiple then contentType.text? else none := by
    intro name w h
    obtain ⟨payload, _, _, h⟩ := of_exec_bind_ok h
    split at h
    · cases h
      rfl
    · obtain ⟨definition, _, _, h⟩ := of_exec_bind_ok h
      cases h
      rfl
  split at h
  · obtain ⟨t, ht, h⟩ := of_exec_bind_steady (.require _) h
    refine ⟨htag _ _ h, fun _ => ?_⟩
    rw [of_exec_require_ok (ht w)]
    rfl
  · exact ⟨htag _ _ h, fun hmultiple => absurd hmultiple ‹_›⟩

/-- The entries that a response is lowered by: those of its content, or a single empty one. -/
theorem fst_of_contentEntries {entries : List (Document × Document)}
    (h : exec (contentEntries response) w = (.ok entries, w')) :
    ∃ content, contentOf? response = some content ∧
      entries.map Prod.fst = if content.isEmpty then [.null] else content.map Prod.fst := by
  rw [contentEntries] at h
  obtain ⟨d, hd, h⟩ := of_exec_bind_steady (.field _ _) h
  obtain ⟨content, hcontent, h⟩ := of_exec_bind_steady (.require _) h
  obtain ⟨pairs, _, hpairs, h⟩ := of_exec_bind_ok h
  have hcontent : contentOf? response = some content := by
    rw [contentOf?, of_exec_require_ok (hd w)]
    exact of_exec_require_ok (hcontent w)
  have hfst : pairs.map Prod.fst = content.map Prod.fst := by
    rw [← List.forall₂_eq_eq_eq, List.forall₂_map_left_iff, List.forall₂_map_right_iff]
    refine ((forall₂_of_exec_mapM hpairs).imp fun p q hq => ?_).flip
    obtain ⟨_, _, hq⟩ := hq
    obtain ⟨_, _, _, hq⟩ := of_exec_bind_ok hq
    cases hq
    rfl
  have hempty : pairs.isEmpty = content.isEmpty := by
    rw [← List.isEmpty_map, hfst, List.isEmpty_map]
  refine ⟨content, hcontent, ?_⟩
  cases h
  rw [hempty]
  split
  · rfl
  · exact hfst

/-- **A response is lowered to one variant for each content type.** -/
theorem perContentType_of_createVariants
    (h : exec (createVariants document itemName response) w = (.ok vs, w')) :
    ∃ content, PerContentType document itemName response content vs := by
  rw [createVariants] at h
  obtain ⟨d, hd, h⟩ := of_exec_bind_steady (.field _ _) h
  obtain ⟨content, hcontent, h⟩ := of_exec_bind_steady (.require _) h
  obtain ⟨headers, _, h⟩ := of_exec_bind_steady (steady_ownHeaders _) h
  obtain ⟨docs, _, h⟩ := of_exec_bind_steady (.field _ _) h
  obtain ⟨entries, hentries, h⟩ := of_exec_bind_steady (steady_contentEntries _) h
  obtain ⟨content', hcontent', hfst⟩ := fst_of_contentEntries (hentries w)
  have hsame : content' = content := by
    rw [contentOf?, of_exec_require_ok (hd w)] at hcontent'
    exact Option.some.inj (hcontent'.symm.trans (of_exec_require_ok (hcontent w)))
  subst hsame
  have hvariants := forall₂_of_exec_mapM h
  have htags : vs.map Variant.mappingName =
      (entries.map Prod.fst).map fun t => if 1 < content'.length then t.text? else none := by
    rw [List.map_map, ← List.forall₂_eq_eq_eq, List.forall₂_map_left_iff,
      List.forall₂_map_right_iff]
    refine (hvariants.imp fun entry v hv => ?_).flip
    exact (of_responseVariant hv).1.trans (by simp only [Function.comp, decide_eq_true_eq])
  refine ⟨content', hcontent', ?_, fun hseveral p hp => ?_, entries, headers, docs, hfst, hvariants⟩
  · rw [htags, hfst, tagsOf]
    by_cases hseveral : 2 ≤ content'.length
    · have hne : content'.isEmpty = false := by
        rw [List.isEmpty_eq_false_iff_exists_mem]
        exact ⟨_, List.getElem_mem (by omega : 0 < content'.length)⟩
      simp [hne, hseveral, show 1 < content'.length from hseveral]
    -- without several content types there is one entry, and its variant has no tag
    · rcases content' with _ | ⟨p, _ | ⟨q, rest⟩⟩
      · rfl
      · rfl
      · exact absurd (by simp) hseveral
  · have hne : content'.isEmpty = false :=
      List.isEmpty_eq_false_iff_exists_mem.mpr ⟨p, hp⟩
    rw [hne, if_neg (by simp)] at hfst
    obtain ⟨entry, hentry, hkey⟩ : ∃ e ∈ entries, e.1 = p.1 := by
      have hmem : p.1 ∈ entries.map Prod.fst := hfst ▸ List.mem_map_of_mem hp
      simpa using List.mem_map.mp hmem
    obtain ⟨v, _, hv⟩ := exists_of_mem_forall₂ hvariants hentry
    rw [← hkey]
    exact (of_responseVariant hv).2 (decide_eq_true hseveral)

/-! ## What a status contributes -/

/-- A variant of a response under the name of a status. -/
def relabel (status name : String) (v : Variant) : Variant where
  definition := v.definition
  mappingName := some (match v.mappingName with
    | some t => name ++ " " ++ t
    | none => name)
  statusCode := some status

/-- What a status contributes to a union: the variants of its response under its name. A reference
has the variants that are kept for the path, and so their items; any other response is lowered. -/
inductive Contributes (document : Document) (m : Model) (itemName status name : String)
    (response : Document) : List Variant → Prop
  | shared (path : String) (kept : List Variant) :
    response.find? "$ref" = some (.text path) → m.responseVariants.get? path = some kept →
    Contributes document m itemName status name response (kept.map (relabel status name))
  | own (content : List (Document × Document)) (lowered : List Variant) :
    response.find? "$ref" = none →
    PerContentType document (itemName ++ Name.upperCamel name) response content lowered →
    Contributes document m itemName status name response (lowered.map (relabel status name))

/-- What is kept for a path is read without touching the model. -/
theorem of_cachedVariantsBy {path : Document}
    (h : exec (cachedVariantsBy path) w = (.ok vs, w')) :
    w' = w ∧ ∃ s, path = .text s ∧ w.model.responseVariants.get? s = some vs := by
  rw [cachedVariantsBy.eq_def] at h
  split at h
  · rename_i s
    rw [exec_bind_model, exec_lift, Prod.mk.injEq] at h
    refine ⟨h.2.symm, s, rfl, ?_⟩
    have hkept := h.1
    rw [Model.cachedVariants] at hkept
    split at hkept
    · cases hkept
      assumption
    · cases hkept
  · split at h <;> cases h

/-- **A status contributes the variants of its response.** -/
theorem contributes_of_statusVariants {generatedName status : String} {piece : List Variant}
    (h : exec (statusVariants document generatedName (status, response)) w = (.ok piece, w')) :
    ∃ name, statusName status = .ok name ∧
      Contributes document w.model generatedName status name response piece ∧
      (response.hasField "$ref" = true → w' = w) := by
  obtain ⟨name, hname, h⟩ := of_exec_bind_steady (.lift _) h
  obtain ⟨fields, _, h⟩ := of_exec_bind_steady (.require _) h
  refine ⟨name, of_exec_lift_ok (hname w), ?_⟩
  cases href : response.find? "$ref" with
  | some path =>
    dsimp only at h
    rw [href] at h
    obtain ⟨kept, u, hkept, hrest⟩ := of_exec_bind_ok h
    obtain ⟨hsame, s, hpath, hget⟩ := of_cachedVariantsBy hkept
    cases hrest
    exact ⟨.shared s kept (hpath ▸ href) hget, fun _ => hsame⟩
  | none =>
    dsimp only at h
    rw [href] at h
    obtain ⟨lowered, u, hlowered, hrest⟩ := of_exec_bind_ok h
    obtain ⟨content, hcontent⟩ := perContentType_of_createVariants hlowered
    cases hrest
    refine ⟨.own content lowered href hcontent, fun hfield => ?_⟩
    rw [Document.hasField, href] at hfield
    cases hfield

/-! ## The union -/

/-- The union of an operation's responses. Its variants are those of the statuses, in declared order
with the default one last, and each status takes what is kept for shared responses from the model
as it was before. That stays as it is, and where every response is a reference the union is the
only item added. -/
structure UnionOf (document : Document) (specName : String) (responses : Document)
    (m m' : Model) (r : Ref) : Prop where
  exists_pieces : ∃ fields pieces, (responses.orElse (.object [])).fields? = some fields ∧
    List.Forall₂ (fun entry piece => ∃ name, statusName entry.1 = .ok name ∧
      Contributes document m (Name.upperCamel specName) entry.1 name entry.2 piece)
      (orderedStatuses fields) pieces ∧
    m'.Shows r (.oneOf none pieces.flatten) ∧
    ((∀ entry ∈ orderedStatuses fields, entry.2.hasField "$ref") →
      ∃ item, item.shape = .oneOf none pieces.flatten ∧ m' = m.withItem item none)
  shared_eq : m'.responseVariants = m.responseVariants

/-- A loop over references leaves everything as it is. -/
theorem eq_of_references {generatedName : String} {entries : List (String × Document)}
    {pieces : List (List Variant)} (hrefs : ∀ entry ∈ entries, entry.2.hasField "$ref" = true)
    (h : exec (entries.mapM (statusVariants document generatedName)) w = (.ok pieces, w')) :
    w' = w := by
  induction entries generalizing w pieces with
  | nil =>
    cases h
    rfl
  | cons entry entries ih =>
    rw [List.forall_mem_cons] at hrefs
    rw [List.mapM_cons] at h
    obtain ⟨piece, u, hpiece, h⟩ := of_exec_bind_ok h
    obtain ⟨rest, u', hrest, h⟩ := of_exec_bind_ok h
    cases h
    obtain ⟨_, _, _, hsame⟩ := contributes_of_statusVariants hpiece
    rw [ih hrefs.2 hrest, hsame hrefs.1]

theorem unionOf_of_createResponses {specName : String} {responses : Document} {r : Ref}
    (h : exec (createResponses document specName responses) w = (.ok r, w')) :
    UnionOf document specName responses w.model w'.model r := by
  refine ⟨?_, ((createResponses_touches ..).of_exec h).responseVariants_eq⟩
  rw [createResponses] at h
  obtain ⟨fields, hfields, h⟩ := of_exec_bind_steady (.require _) h
  obtain ⟨pieces, u, hpieces, hadd⟩ := of_exec_bind_ok h
  refine ⟨fields, pieces, of_exec_require_ok (hfields w), ?_, Model.shows_of_addItem hadd,
    fun hrefs => ?_⟩
  · refine (Keeps.forall₂_of_exec_mapM (statusVariants_touches _ _) hpieces).imp
      fun ⟨status, response⟩ piece ⟨v, v', htouches, hpiece⟩ => ?_
    obtain ⟨name, hname, hcontributes, _⟩ := contributes_of_statusVariants hpiece
    refine ⟨name, hname, ?_⟩
    -- what is kept has not changed since the first status
    cases hcontributes with
    | shared path kept href hget =>
      exact .shared path kept href (htouches.responseVariants_eq ▸ hget)
    | own content lowered href hcontent => exact .own content lowered href hcontent
  · obtain ⟨name, _, hmodel⟩ := of_exec_addItem hadd
    rw [eq_of_references hrefs hpieces] at hmodel
    exact ⟨_, rfl, hmodel⟩

end Operation

end TypedApi
