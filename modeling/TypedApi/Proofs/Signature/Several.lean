import TypedApi.Proofs.Document.Fields
import TypedApi.Proofs.Signature.Declarations
import TypedApi.Proofs.Signature.Shared
/-!
Whether a response has several content types.

The question is put to the document: the response is followed through its
references and the content types at the end are counted. The variants of a union
come from another place, the table of what is kept for shared responses, which
is keyed by the paths that the names of the entries spell. The two agree as long
as a path leads back to the entry that it was made for: no name holds a slash or
a tilde, which a path would read otherwise, and no two names are spelled alike,
as a number and its numeral are.
-/

set_option autoImplicit false

namespace TypedApi

open Build

/-! ## The size of a document -/

namespace Document

theorem length_le_fieldCountOfFields (fields : List (Document × Document)) :
    fields.length ≤ fieldCountOfFields fields := by
  induction fields with
  | nil => exact Nat.le_refl _
  | cons p rest ih =>
    obtain ⟨k, d⟩ := p
    rw [fieldCountOfFields, List.length_cons]
    omega

/-- A value among some fields has no more fields than they have together. -/
theorem fieldCount_le_of_mem {fields : List (Document × Document)} {q : Document × Document}
    (h : q ∈ fields) : q.2.fieldCount ≤ fieldCountOfFields fields := by
  induction fields with
  | nil => cases h
  | cons p rest ih =>
    obtain ⟨k, d⟩ := p
    rw [fieldCountOfFields]
    rcases List.mem_cons.mp h with rfl | h
    · show d.fieldCount ≤ _
      omega
    · have := ih h
      omega

theorem fieldCount_le_of_find? {v x : Document} {key : String} (h : v.find? key = some x) :
    x.fieldCount ≤ v.fieldCount := by
  obtain ⟨fields, rfl⟩ := exists_fields_of_find? h
  exact fieldCount_le_of_mem (mem_of_lookup? h)

/-! ## The path of a shared response -/

/-- A name that stands in a path as it is. -/
def IsPlain (name : String) : Prop :=
  '~' ∉ name.toList ∧ '/' ∉ name.toList

instance (name : String) : Decidable (IsPlain name) :=
  inferInstanceAs (Decidable (_ ∧ _))

/-- The path of a shared response with a plain name has the name as its last segment. -/
theorem segments?_responsePath {name : String} (h : IsPlain name) :
    segments? (Conversion.responsePath name) = some ["components", "responses", name] := by
  have hbegin : "#/components/responses/".toList =
      '#' :: '/' :: ("components".toList ++ '/' :: ("responses".toList ++ ['/'])) := by
    decide +kernel
  have hchars : (Conversion.responsePath name).toList =
      '#' :: '/' :: ("components".toList ++ '/' :: ("responses".toList ++ '/' :: name.toList)) := by
    refine (String.toList_append (s := "#/components/responses/")).trans ?_
    rw [hbegin]
    simp only [List.cons_append, List.append_assoc, List.nil_append]
  have hsplit : Text.splitAt '/' ("components".toList ++ '/' :: ("responses".toList ++
      '/' :: name.toList)) = ["components".toList, "responses".toList, name.toList] := by
    rw [Text.splitAt_append_cons (by decide +kernel), Text.splitAt_append_cons (by decide +kernel),
      Text.splitAt_of_not_mem h.2]
  have hfirst : unescapeSegment "components".toList = "components".toList := by decide +kernel
  have hsecond : unescapeSegment "responses".toList = "responses".toList := by decide +kernel
  have hname : unescapeSegment name.toList = name.toList := by
    have hescaped := unescapeSegment_escapeSegment name.toList
    rwa [escapeSegment_of_plain h.1 h.2] at hescaped
  rw [segments?, hchars]
  simp only [hsplit, List.map_cons, List.map_nil, hname, hfirst, hsecond, String.ofList_toList]

/-- What the path of a shared response resolves to is found among the shared responses. -/
theorem lookup?_of_resolve_responsePath {document components target : Document}
    {entries : List (Document × Document)} {name : String} (hplain : IsPlain name)
    (hcomponents : document.find? "components" = some components)
    (hentries : components.find? "responses" = some (.object entries))
    (h : document.resolve (Conversion.responsePath name) = .ok target) :
    lookup? name entries = some target := by
  rw [resolve, segments?_responsePath hplain] at h
  simp only [List.foldlM_cons, List.foldlM_nil, stepInto_of_find? hcomponents,
    stepInto_of_find? hentries, bind, Except.bind, pure, Except.pure] at h
  rw [stepInto] at h
  cases hlookup : lookup? name entries with
  | none =>
    rw [hlookup] at h
    cases h
  | some d =>
    rw [hlookup] at h
    cases h
    rfl

/-- Where no two keys are spelled alike, the text that a key spells is looked up to its value, or to
none. -/
theorem eq_of_lookup?_display {entries : List (Document × Document)} {e : Document × Document}
    {x : Document} (hnodup : (entries.map fun e => e.1.display).Nodup) (he : e ∈ entries)
    (h : lookup? e.1.display entries = some x) : x = e.2 := by
  have hmem := mem_of_lookup? h
  have hsame : ((Document.text e.1.display, x) : Document × Document) = e :=
    List.inj_on_of_nodup_map hnodup hmem he rfl
  rw [← hsame]

end Document

namespace Conversion

open Operation Document

variable {document : Document}

/-! ## Following references to shared responses -/

/-- Variants agree with a path, up to a count of links: every walk through a reference to the path
that is given more fuel ends at a response with one of the variants for each content type. -/
def Agrees (document : Document) (count : Nat) (path : String) (kept : List Variant) : Prop :=
  ∀ fuel seen value links, count < fuel → value.find? "$ref" = some (.text path) →
    chainFrom document fuel seen value = .ok links →
    ∃ link itemName content, links.getLast? = some link ∧
      PerContentType document itemName link.target content kept

/-- A walk through a reference begins with the link to what the path resolves to. -/
theorem exists_link_of_chainFrom {fuel : Nat} {seen : List String} {value : Document}
    {path : String} {links : List Link} (hvalue : value.find? "$ref" = some (.text path))
    (h : chainFrom document (fuel + 1) seen value = .ok links) :
    ∃ target rest, document.resolve path = .ok target ∧
      chainFrom document fuel (path :: seen) target = .ok rest ∧ links = ⟨path, target⟩ :: rest := by
  rw [chainFrom, hvalue] at h
  dsimp only at h
  split at h
  · cases h
  · split at h
    · cases h
    · rename_i target hresolve
      split at h
      · cases h
      · rename_i rest hrest
        cases h
        exact ⟨target, rest, hresolve, hrest, rfl⟩

/-- A value that is no reference has no links. -/
theorem chainFrom_of_find?_eq_none {fuel : Nat} {seen : List String} {value : Document}
    (h : value.find? "$ref" = none) : chainFrom document fuel seen value = .ok [] := by
  cases fuel with
  | zero => rfl
  | succ fuel => rw [chainFrom, h]

/-- The names of the shared responses that a path leads back to. -/
structure LegibleNames (entries : List (Document × Document)) : Prop where
  plain : ∀ e ∈ entries, IsPlain e.1.display
  distinct : (entries.map fun e => e.1.display).Nodup

/-- **What is kept for shared responses agrees with the document.** -/
theorem agrees_of_forM {components : Document} {entries : List (Document × Document)}
    {w w' : Workbench} (hnames : LegibleNames entries)
    (hcomponents : document.find? "components" = some components)
    (hentries : components.find? "responses" = some (.object entries))
    (hempty : w.model.responseVariants = [])
    (h : exec (entries.forM (insertResponse document)) w = (.ok (), w')) :
    ∀ path kept, w'.model.responseVariants.get? path = some kept →
      Agrees document entries.length path kept := by
  have htarget : ∀ e ∈ entries, ∀ target,
      document.resolve (responsePath e.1.display) = .ok target → target = e.2 := fun e he target h =>
    eq_of_lookup?_display hnames.distinct he
      (lookup?_of_resolve_responsePath (hnames.plain e he) hcomponents hentries h)
  intro path kept hget
  have hkept := kept_of_forM (k := 0) (P := Agrees document) ?_ ?_ ?_ ?_ h path kept hget
  · rwa [Nat.zero_add] at hkept
  · intro k path kept hagrees fuel seen value links hfuel
    exact hagrees fuel seen value links (by omega)
  -- a response that is lowered is where its path leads, and the walk ends there
  · rintro k e he href name kept hname ⟨_, _, hlowered⟩ fuel seen value links hfuel hvalue hchain
    obtain ⟨fuel, rfl⟩ : ∃ n, fuel = n + 1 := ⟨fuel - 1, by omega⟩
    obtain ⟨target, rest, hresolve, hrest, rfl⟩ := exists_link_of_chainFrom hvalue hchain
    have hsame := htarget e he target (by rw [hname]; exact hresolve)
    rw [hsame, chainFrom_of_find?_eq_none href] at hrest
    cases hrest
    obtain ⟨content, hcontent⟩ := perContentType_of_createVariants hlowered
    exact ⟨_, _, content, rfl, hsame ▸ hcontent⟩
  -- an alias is where its path leads, and the walk goes on from there
  · rintro k e he path kept href hagrees fuel seen value links hfuel hvalue hchain
    obtain ⟨fuel, rfl⟩ : ∃ n, fuel = n + 1 := ⟨fuel - 1, by omega⟩
    obtain ⟨target, rest, hresolve, hrest, rfl⟩ := exists_link_of_chainFrom hvalue hchain
    rw [htarget e he target hresolve] at hrest
    obtain ⟨link, itemName, content, hlast, hcontent⟩ :=
      hagrees fuel _ _ rest (by omega) href hrest
    refine ⟨link, itemName, content, ?_, hcontent⟩
    rw [List.getLast?_cons, hlast]
    rfl
  · intro path kept hget
    rw [hempty] at hget
    cases hget

/-! ## Counting content types in both places -/

/-- All that a model keeps for shared responses agrees with the document. -/
def AllAgree (document : Document) (m : Model) : Prop :=
  ∀ path kept, m.responseVariants.get? path = some kept →
    ∃ count, count < document.fieldCount + 2 ∧ Agrees document count path kept

/-- **All that a conversion keeps for shared responses agrees with the document**, whose walks have
fuel for more links than there are shared responses. -/
theorem allAgree_of_responses {entries : List (Document × Document)} {w w' : Workbench}
    (hnames : LegibleNames entries) (hentries : sectionOf? document "responses" = some entries)
    (hempty : w.model.responseVariants = [])
    (h : exec (entries.forM (insertResponse document)) w = (.ok (), w')) :
    AllAgree document w'.model := by
  intro path kept hget
  by_cases hne : entries = []
  · subst hne
    cases h
    rw [hempty] at hget
    cases hget
  · obtain ⟨components, hcomponents, hsection⟩ := find?_of_sectionOf? hentries hne
    refine ⟨entries.length, ?_,
      agrees_of_forM hnames hcomponents hsection hempty h path kept hget⟩
    have hdocument := fieldCount_le_of_find? hcomponents
    have hsize := fieldCount_le_of_find? hsection
    rw [fieldCount] at hsize
    have hlength := length_le_fieldCountOfFields entries
    omega

/-- A response with its own content has several content types if its content has. -/
theorem several_iff_of_content {response : Document} {content : List (Document × Document)}
    {itemName : String} {vs : List Variant} {several : Bool}
    (h : PerContentType document itemName response content vs)
    (hseveral : (do
      let content := (← orMalformed (response.get? "content")).orElse (.object [])
      return decide (2 ≤ (← orMalformed content.length?)) : Except Failure Bool) = .ok several) :
    several = true ↔ 2 ≤ vs.length := by
  have hcontent := h.content_eq
  rw [contentOf?] at hcontent
  obtain ⟨d, hd, hfields⟩ := Option.bind_eq_some_iff.mp hcontent
  rw [hd] at hseveral
  cases hobject : d.orElse (.object []) with
  | object fields =>
    rw [hobject] at hfields
    obtain rfl : fields = content := Option.some.inj hfields
    simp only [orMalformed, bind, Except.bind, hobject, length?, elements?, Option.map_some,
      List.length_map, pure, Except.pure, Except.ok.injEq] at hseveral
    rw [← hseveral, decide_eq_true_iff, h.length_eq]
    omega
  | _ =>
    rw [hobject] at hfields
    cases hfields

/-- **A response has several content types exactly if it contributes several variants**, whether it
is asked of the document or of what is kept. -/
theorem several_iff_of_contributes {m : Model} {itemName status name : String}
    {response : Document} {piece : List Variant} {several : Bool} (hm : AllAgree document m)
    (h : Contributes document m itemName status name response piece)
    (hseveral : hasSeveralContentTypes document response = .ok several) :
    several = true ↔ 2 ≤ piece.length := by
  rw [hasSeveralContentTypes] at hseveral
  obtain ⟨resolved, hresolved, hseveral⟩ := of_bind_eq_ok hseveral
  cases h with
  | shared path kept href hget =>
    obtain ⟨count, hcount, hagrees⟩ := hm path kept hget
    rw [followOrBlame, follow, chain] at hresolved
    cases hchain : chainFrom document (document.fieldCount + 2) [] response with
    | error e =>
      rw [hchain] at hresolved
      simp only [Except.map, blameReference] at hresolved
      split at hresolved <;> cases hresolved
    | ok links =>
      obtain ⟨link, itemName, content, hlast, hcontent⟩ := hagrees _ _ _ links hcount href hchain
      rw [hchain] at hresolved
      simp only [Except.map, blameReference, hlast, Option.map_some, Option.getD_some,
        Except.ok.injEq] at hresolved
      rw [List.length_map]
      exact several_iff_of_content (hresolved ▸ hcontent) hseveral
  | own content lowered href hcontent =>
    rw [Declaration.followOrBlame_of_find?_eq_none href, Except.ok.injEq] at hresolved
    rw [List.length_map]
    exact several_iff_of_content (hresolved ▸ hcontent) hseveral

/-- The statuses are those of the responses, in another order. -/
theorem mem_orderedStatuses {fields : List (Document × Document)} {entry : String × Document} :
    entry ∈ orderedStatuses fields ↔ ∃ p ∈ fields, (p.1.display, p.2) = entry := by
  rw [orderedStatuses, List.mem_append, List.mem_filter, List.mem_filter, ← and_or_left, ← List.mem_map]
  refine and_iff_left ?_
  by_cases h : entry.1 = "default"
  · exact .inr (by simpa using h)
  · exact .inl (by simpa using h)

/-- A search that answers: yes for an element that answers yes, no if all of them answer no. -/
theorem of_anyM_eq_ok {α ε : Type} {f : α → Except ε Bool} {l : List α} {b : Bool}
    (h : l.anyM f = .ok b) :
    if b then ∃ a ∈ l, f a = .ok true else ∀ a ∈ l, f a = .ok false := by
  induction l with
  | nil =>
    cases h
    simp
  | cons a l ih =>
    rw [List.anyM] at h
    obtain ⟨first, hfirst, h⟩ := of_bind_eq_ok h
    cases first with
    | true =>
      cases h
      exact ⟨a, List.mem_cons_self, hfirst⟩
    | false =>
      have hrest := ih h
      cases b with
      | true =>
        obtain ⟨a', ha', hyes⟩ := hrest
        exact ⟨a', List.mem_cons_of_mem _ ha', hyes⟩
      | false => exact List.forall_mem_cons.mpr ⟨hfirst, hrest⟩

/-- **Some response has several content types exactly if some status contributes several variants.** -/
theorem anySeveral_iff {m : Model} {itemName : String} {responses : Document}
    {fields : List (Document × Document)} {pieces : List (List Variant)} {several : Bool}
    {w : Workbench} (hm : AllAgree document m)
    (hfields : (responses.orElse (.object [])).fields? = some fields)
    (hpieces : List.Forall₂ (fun entry piece => ∃ name, statusName entry.1 = .ok name ∧
      Contributes document m itemName entry.1 name entry.2 piece) (orderedStatuses fields) pieces)
    (h : exec (anySeveral document responses) w = (.ok several, w)) :
    several = true ↔ ∃ piece ∈ pieces, 2 ≤ piece.length := by
  rw [anySeveral] at h
  obtain ⟨fields', hfields', h⟩ := of_exec_bind_steady (.require _) h
  have hsame : fields' = fields := by
    have hobject := of_exec_require_ok (hfields' w)
    cases responses with
    | object own =>
      rw [orElse_object] at hfields
      exact Option.some.inj (hobject.symm.trans hfields)
    | _ => cases hobject
  subst hsame
  have hany := of_anyM_eq_ok (of_exec_lift_ok h)
  cases several with
  | true =>
    obtain ⟨p, hp, hyes⟩ := hany
    obtain ⟨piece, hpiece, _, _, hcontributes⟩ :=
      exists_of_mem_forall₂ hpieces (mem_orderedStatuses.mpr ⟨p, hp, rfl⟩)
    exact ⟨fun _ => ⟨piece, hpiece, (several_iff_of_contributes hm hcontributes hyes).mp rfl⟩,
      fun _ => rfl⟩
  | false =>
    refine ⟨by simp, fun ⟨piece, hpiece, hlength⟩ => ?_⟩
    obtain ⟨entry, hentry, _, _, hcontributes⟩ := exists_of_mem_forall₂_right hpieces hpiece
    obtain ⟨p, hp, rfl⟩ := mem_orderedStatuses.mp hentry
    exact (several_iff_of_contributes hm hcontributes (hany p hp)).mpr hlength

end Conversion

end TypedApi
