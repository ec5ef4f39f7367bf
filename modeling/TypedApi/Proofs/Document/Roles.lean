import TypedApi.Operation.Signature
import TypedApi.Proofs.Document.Emptied
import Mathlib.Data.List.Forall2
/-!
What the values of a document are read as.

A conversion reads every value in a role: the document itself, its components, a
parameter, a schema, a piece of data. The role of a value follows from the role
of what it stands in and from its key, and what a reference leads to is read in
the role of the reference. `ReadAs d d'` relates the values that are read in one
role at the same place of two documents.

Two documents are respellings of each other if true stands in the one where the
empty object stands in the other, and if this is so only for schemas whose
reader looks whether they are Boolean. Schemas of parameters, of headers and of
the media types of responses are not of that sort: there a reference is looked
for first, which needs an object. Neither are schemas that a reference makes
something else.
-/

set_option autoImplicit false

namespace TypedApi

/-! ## Roles -/

/-- What a value is read as. For a schema and a media type object, `boolean` tells whether the schema
may be true. -/
inductive Role where
  | data
  | root
  | components
  | pathItem
  | operation
  | parameter
  | body
  | response
  | header
  | media (boolean : Bool)
  | schema (boolean : Bool)
  | map (value : Role)
  | list (element : Role)
deriving DecidableEq, Repr

namespace Role

open Document

/-- The keywords of a role that are read as they stand. -/
def keywords : Role → List String
  | .pathItem => ["$ref", "summary", "description"]
  | .operation => ["operationId", "externalDocs", "description", "summary"]
  | .parameter => ["$ref", "name", "in", "required", "description"]
  | .body => ["$ref", "required", "description"]
  | .response => ["$ref", "description"]
  | .header => ["$ref", "required", "description"]
  | .schema _ =>
    ["$ref", "type", "nullable", "title", "description", "externalDocs", "x-newtype",
      "x-pub-typedef", "format", "enum", "x-extensible-enum", "minimum", "maximum",
      "exclusiveMinimum", "exclusiveMaximum", "uniqueItems", "required", "discriminator",
      "readOnly", "writeOnly"]
  | _ => []

/-- Whether the `required` keyword of an object can be asked for the name of a property; bytes
cannot. -/
def asksRequired (schema : Document) : Bool :=
  ((((schema.find? "required").getD .null).orElse (.array [])).mentions? "").isSome

/-- The role of what stands under a key of a value with a role, unless it is not read. -/
def field (ρ : Role) (parent : Document) (key : String) : Option Role :=
  if ρ.keywords.contains key then some .data
  else
    match ρ, key with
    | .root, "components" => some .components
    | .root, "paths" => some (.map .pathItem)
    | .components, "schemas" => some (.map (.schema true))
    | .components, "parameters" => some (.map .parameter)
    | .components, "requestBodies" => some (.map .body)
    | .components, "responses" => some (.map .response)
    | .components, "headers" => some (.map .header)
    | .pathItem, "parameters" => some (.list .parameter)
    | .pathItem, key =>
      if Operation.pathKeywords.contains key || "x-".toList.isPrefixOf key.toList then none
      else some .operation
    | .operation, "parameters" => some (.list .parameter)
    | .operation, "requestBody" => some .body
    | .operation, "responses" => some (.map .response)
    | .parameter, "schema" => some (.schema false)
    | .parameter, "content" => some (.map (.media false))
    | .body, "content" => some (.map (.media true))
    | .response, "content" => some (.map (.media false))
    | .response, "headers" => some (.map .header)
    | .header, "schema" => some (.schema false)
    | .header, "content" => some (.map (.media false))
    | .media boolean, "schema" => some (.schema boolean)
    | .schema _, "properties" => some (.map (.schema (asksRequired parent)))
    | .schema _, "items" => some (.schema true)
    | .schema _, "additionalProperties" => some (.schema true)
    | .schema _, "oneOf" => some (.list (.schema true))
    | .schema _, "allOf" => some (.list (.schema true))
    | _, _ => none

/-- The role of what stands under a key, which any scalar may be where all keys are alike. -/
def under (ρ : Role) (parent key : Document) : Option Role :=
  match ρ, key with
  | .map σ, _ => some σ
  | ρ, .text key => ρ.field parent key
  | _, _ => none

/-- Whether a value with a role may be a reference that is followed. -/
def follows : Role → Bool
  | .pathItem | .parameter | .response | .header => true
  | _ => false

/-- A keyword is read as it stands. -/
theorem under_keyword {ρ : Role} {key : String} (h : key ∈ ρ.keywords) (parent : Document) :
    ρ.under parent (.text key) = some .data := by
  have hfield : ρ.field parent key = some .data := if_pos (List.contains_iff_mem.mpr h)
  cases ρ with
  | map σ => cases h
  | _ => exact hfield

theorem ref_mem_keywords {ρ : Role} (h : ρ.follows = true) : "$ref" ∈ ρ.keywords := by
  cases ρ with
  | pathItem => decide
  | parameter => decide
  | response => decide
  | header => decide
  | _ => cases h

end Role

namespace Document

/-! ## Values in a role -/

/-- The values that are read in a role at the same place of two documents. -/
inductive ReadAs (d d' : Document) : Role → Document → Document → Prop
  | root : ReadAs d d' .root d d'
  | value {ρ σ : Role} {fields fields' : List (Document × Document)} {i : Nat}
      {key x x' : Document} :
    ReadAs d d' ρ (.object fields) (.object fields') → fields[i]? = some (key, x) →
    fields'[i]? = some (key, x') → ρ.under (.object fields) key = some σ → ReadAs d d' σ x x'
  | element {σ : Role} {v v' x x' : Document} {items items' : List Document} {i : Nat} :
    ReadAs d d' (.list σ) v v' → v.elements? = some items → v'.elements? = some items' →
    items[i]? = some x → items'[i]? = some x' → ReadAs d d' σ x x'
  | follow {ρ : Role} {v v' target target' : Document} {reference : String} :
    ReadAs d d' ρ v v' → ρ.follows = true → v.find? "$ref" = some (.text reference) →
    v'.find? "$ref" = some (.text reference) → d.resolve reference = .ok target →
    d'.resolve reference = .ok target' → ReadAs d d' ρ target target'

/-- Whether the keys of an object and the members of a collection are scalars, as they have to
be. -/
def hasScalarKeys : Document → Bool
  | .object fields => fields.all fun p => p.1.isKey
  | .collection members => members.all isKey
  | _ => true

/-- Two documents that differ in the spelling of schemas that admit everything: where the one has
true and the other the empty object, both are read as schemas that may be Boolean. -/
structure Respelled (d d' : Document) : Prop where
  emptied_eq : d.emptied = d'.emptied
  data : ∀ v v', ReadAs d d' .data v v' → v = v'
  kind : ∀ ρ v v', ReadAs d d' ρ v v' → v.isObject ≠ v'.isObject → ρ = .schema true
  keys : ∀ ρ v v', ReadAs d d' ρ v v' → v.hasScalarKeys = true ∧ v'.hasScalarKeys = true

/-! ## Relations that parts inherit -/

/-- A relation for each role that the parts of values inherit. Data are the same, and only schemas
that may be Boolean are not of one kind. -/
structure Inherited (P : Role → Document → Document → Prop) : Prop where
  data : ∀ v v', P .data v v' → v = v'
  akin : ∀ ρ v v', P ρ v v' → Akin v v' ∨ ρ = .schema true ∧ Swapped v v'
  value : ∀ (ρ σ : Role) (fields fields' : List (Document × Document)) (i : Nat)
    (key x x' : Document), P ρ (.object fields) (.object fields') →
    fields[i]? = some (key, x) → fields'[i]? = some (key, x') →
    ρ.under (.object fields) key = some σ → P σ x x'
  element : ∀ (σ : Role) (v v' : Document) (items items' : List Document) (i : Nat)
    (x x' : Document), P (.list σ) v v' → v.elements? = some items →
    v'.elements? = some items' → items[i]? = some x → items'[i]? = some x' → P σ x x'

/-- The elements of values with the same emptied form. -/
theorem elements?_emptied {v v' : Document} (h : v.emptied = v'.emptied)
    {items items' : List Document} (hitems : v.elements? = some items)
    (hitems' : v'.elements? = some items') : items.map emptied = items'.map emptied := by
  rcases akin_or_swapped h with hakin | hswapped
  · cases hakin with
    | same =>
      rw [hitems] at hitems'
      rw [Option.some.inj hitems']
    | array hparts =>
      cases hitems
      cases hitems'
      exact hparts
    | pair ha hb =>
      cases hitems
      cases hitems'
      rw [List.map_cons, List.map_cons, ha, List.map_cons, List.map_cons, hb]
    | object hparts =>
      cases hitems
      cases hitems'
      have hkeys := congrArg (List.map fun p => p.1.emptied) hparts
      simpa [Function.comp_def] using hkeys
  · cases hswapped with
    | empty => cases hitems'
    | full => cases hitems

/-- What is read in one role at the same place has the same emptied form. -/
theorem ReadAs.emptied_eq {d d' : Document} (hd : d.emptied = d'.emptied) {ρ : Role}
    {v v' : Document} (h : ReadAs d d' ρ v v') : v.emptied = v'.emptied := by
  induction h with
  | root => exact hd
  | @value ρ σ fields fields' i key x x' _ hx hx' _ ih =>
    have hparts : (fields.map fun p => (p.1, p.2.emptied)) =
        fields'.map fun p => (p.1, p.2.emptied) := by simpa [emptied] using ih
    have hindex := congrArg (fun l : List (Document × Document) => l[i]?) hparts
    simpa [hx, hx'] using hindex
  | @element σ v v' x x' items items' i _ hitems hitems' hx hx' ih =>
    have hindex := congrArg (fun l : List Document => l[i]?) (elements?_emptied ih hitems hitems')
    simpa [hx, hx'] using hindex
  | @follow ρ v v' target target' reference _ _ _ _ htarget htarget' ih =>
    have hresolve := resolve_accord hd reference
    rw [htarget, htarget'] at hresolve
    cases hresolve with
    | answer _ _ h => exact h

/-- **What two respellings are read as** goes on to the parts. -/
theorem Respelled.inherited {d d' : Document} (hd : Respelled d d') : Inherited (ReadAs d d') where
  data := hd.data
  akin ρ v v' h := by
    by_cases hobject : v.isObject = v'.isObject
    · exact .inl (akin_of_isObject_eq (h.emptied_eq hd.emptied_eq) hobject)
    · rcases akin_or_swapped (h.emptied_eq hd.emptied_eq) with hakin | hswapped
      · exact .inl hakin
      · exact .inr ⟨hd.kind ρ v v' h hobject, hswapped⟩
  value ρ σ fields fields' i key x x' h hx hx' hσ := .value h hx hx' hσ
  element σ v v' items items' i x x' h hitems hitems' hx hx' := .element h hitems hitems' hx hx'

/-- Two fields with one key, their values in a role. -/
def Entry (P : Role → Document → Document → Prop) (σ : Role) (p p' : Document × Document) : Prop :=
  p'.1 = p.1 ∧ P σ p.2 p'.2

namespace Inherited

variable {P : Role → Document → Document → Prop} (hP : Inherited P) {ρ σ : Role} {v v' : Document}

include hP

theorem emptied_eq (h : P ρ v v') : v.emptied = v'.emptied := by
  rcases hP.akin ρ v v' h with hakin | ⟨_, hswapped⟩
  · exact hakin.emptied_eq
  · cases hswapped <;> rfl

theorem hasField_eq (h : P ρ v v') (key : String) : v.hasField key = v'.hasField key :=
  Document.hasField_eq (hP.emptied_eq h) key

/-- All but schemas that may be Boolean are of one kind. -/
theorem akin_of_ne (h : P ρ v v') (hρ : ρ ≠ .schema true) : Akin v v' :=
  (hP.akin ρ v v' h).resolve_right fun hswapped => hρ hswapped.1

/-- The fields of two objects: the same keys, and the values go on in their roles. -/
theorem pairs {fields fields' : List (Document × Document)}
    (h : P ρ (.object fields) (.object fields')) :
    List.Forall₂ (fun p p' : Document × Document => p'.1 = p.1 ∧
      ∀ σ, ρ.under (.object fields) p.1 = some σ → P σ p.2 p'.2) fields fields' := by
  have hparts : (fields.map fun p => (p.1, p.2.emptied)) =
      fields'.map fun p => (p.1, p.2.emptied) := by simpa [emptied] using hP.emptied_eq h
  have hlength : fields.length = fields'.length := by simpa using congrArg List.length hparts
  refine List.forall₂_iff_get.mpr ⟨hlength, fun i hi hi' => ?_⟩
  have hkey : fields'[i].1 = fields[i].1 := by
    have hindex := congrArg (fun l : List (Document × Document) => l[i]?) hparts
    simp only [List.getElem?_map, List.getElem?_eq_getElem hi, List.getElem?_eq_getElem hi',
      Option.map_some, Option.some.injEq, Prod.mk.injEq] at hindex
    exact hindex.1.symm
  refine ⟨hkey, fun σ hσ => hP.value ρ σ _ _ i fields[i].1 _ _ h (List.getElem?_eq_getElem hi) ?_ hσ⟩
  rw [List.getElem?_eq_getElem hi', ← hkey]
  rfl

/-- **What stands under a key** is read in the role of the key, or missing on both sides. -/
theorem find? (h : P ρ v v') (key : String) (hσ : ρ.under v (.text key) = some σ) :
    Option.Rel (P σ) (v.find? key) (v'.find? key) := by
  rcases hP.akin ρ v v' h with hakin | ⟨_, hswapped⟩
  · cases v with
    | object fields =>
      cases v' with
      | object fields' =>
        have hpairs := hP.pairs h
        simp only [Document.find?]
        generalize Document.object fields = parent at hσ hpairs
        clear h hakin
        induction hpairs with
        | nil => exact .none
        | @cons p p' rest rest' hp _ ih =>
          obtain ⟨k, x⟩ := p
          obtain ⟨k', x'⟩ := p'
          obtain ⟨rfl, hx⟩ := hp
          rw [lookup?, lookup?]
          split
          · rename_i hk
            cases k' with
            | text t =>
              obtain rfl : t = key := by simpa [isText] using hk
              exact .some (hx σ hσ)
            | _ => cases hk
          · exact ih
      | _ => cases hakin
    | _ => cases hakin <;> exact .none
  · cases hswapped <;> exact .none

/-- A keyword that is read as it stands is the same on both sides. -/
theorem find?_eq (h : P ρ v v') (key : String) (hkey : key ∈ ρ.keywords) :
    v.find? key = v'.find? key := by
  have hfind := hP.find? h key (Role.under_keyword hkey v)
  generalize v.find? key = o at hfind ⊢
  generalize v'.find? key = o' at hfind ⊢
  cases hfind with
  | none => rfl
  | some hx => rw [hP.data _ _ hx]

/-- The entries of a map. -/
theorem fields? (h : P (.map σ) v v') :
    Option.Rel (List.Forall₂ (Entry P σ)) v.fields? v'.fields? := by
  have hakin := hP.akin_of_ne h nofun
  cases v with
  | object fields =>
    cases v' with
    | object fields' => exact .some ((hP.pairs h).imp fun _ _ hp => ⟨hp.1, hp.2 σ rfl⟩)
    | _ => cases hakin
  | _ => cases hakin <;> exact .none

/-- The elements of a list. -/
theorem elements? (h : P (.list σ) v v') :
    Option.Rel (List.Forall₂ (P σ)) v.elements? v'.elements? := by
  have hakin := hP.akin_of_ne h nofun
  have hlength := hakin.length?_eq
  simp only [length?] at hlength
  cases hitems : v.elements? with
  | none =>
    rw [hitems] at hlength
    obtain hitems' : v'.elements? = none := by simpa using hlength.symm
    rw [hitems']
    exact .none
  | some items =>
    rw [hitems] at hlength
    obtain ⟨items', hitems', hcount⟩ : ∃ items', v'.elements? = some items' ∧
        items'.length = items.length := by simpa using hlength.symm
    rw [hitems']
    refine .some (List.forall₂_iff_get.mpr ⟨hcount.symm, fun i hi hi' => ?_⟩)
    exact hP.element σ v v' items items' i _ _ h hitems hitems' (List.getElem?_eq_getElem hi)
      (List.getElem?_eq_getElem hi')

end Inherited

/-! ## Values in a role, or nothing -/

/-- Values in a role, or nothing in the place of both: null, or what is put there instead. -/
inductive Given (P : Role → Document → Document → Prop) (ρ : Role) : Document → Document → Prop
  | read {v v' : Document} : P ρ v v' → Given P ρ v v'
  | null : Given P ρ .null .null
  | noFields : Given P ρ (.object []) (.object [])
  | noItems : Given P ρ (.array []) (.array [])

namespace Given

variable {P : Role → Document → Document → Prop} {ρ σ : Role} {v v' : Document}

theorem of_rel {o o' : Option Document} (h : Option.Rel (P ρ) o o') :
    Given P ρ (o.getD .null) (o'.getD .null) := by
  cases h with
  | none => exact .null
  | some h => exact .read h

/-- What relates values in a role and every value to itself relates what is given. -/
theorem elim {R : Document → Document → Prop} (h : Given P ρ v v')
    (hread : ∀ v v', P ρ v v' → R v v') (hsame : ∀ v, R v v) : R v v' := by
  cases h with
  | read h => exact hread _ _ h
  | null => exact hsame _
  | noFields => exact hsame _
  | noItems => exact hsame _

variable (hP : Inherited P)

include hP

/-- Schemas that may be Boolean apart, what is given is of one kind. -/
theorem akin_of_ne (h : Given P ρ v v') (hρ : ρ ≠ .schema true) : Akin v v' :=
  h.elim (fun _ _ h => hP.akin_of_ne h hρ) .same

theorem data_eq (h : Given P .data v v') : v = v' :=
  h.elim hP.data fun _ => rfl

/-- What stands under a key, if anything. -/
theorem find? (h : Given P ρ v v') (key : String) (hσ : ρ.under v (.text key) = some σ) :
    Option.Rel (P σ) (v.find? key) (v'.find? key) := by
  cases h with
  | read h => exact hP.find? h key hσ
  | null => exact .none
  | noFields => exact .none
  | noItems => exact .none

/-- What stands under a key of two objects. -/
theorem get? (h : Given P ρ v v') (hρ : ρ ≠ .schema true) {key : String}
    (hσ : ρ.under v (.text key) = some σ) :
    Option.Rel (Given P σ) (v.get? key) (v'.get? key) := by
  have hfind := Given.of_rel (h.find? hP key hσ)
  have hakin := h.akin_of_ne hP hρ
  cases v with
  | object fields =>
    cases v' with
    | object fields' => exact .some hfind
    | _ => cases hakin
  | _ => cases hakin <;> exact .none

/-- The value if it holds, else nothing. -/
theorem orElse (h : Given P ρ v v') (hρ : ρ ≠ .schema true) {d : Document} (hd : Given P ρ d d) :
    Given P ρ (v.orElse d) (v'.orElse d) := by
  rw [Document.orElse, Document.orElse, (h.akin_of_ne hP hρ).holds_eq]
  split
  · exact h
  · exact hd

theorem fields? (h : Given P (.map σ) v v') :
    Option.Rel (List.Forall₂ (Entry P σ)) v.fields? v'.fields? := by
  cases h with
  | read h => exact hP.fields? h
  | null => exact .none
  | noFields => exact .some .nil
  | noItems => exact .none

/-- The entries of a map, none if there is no map. -/
theorem entries? (h : Given P (.map σ) v v') :
    Option.Rel (List.Forall₂ (Entry P σ)) (v.orElse (.object [])).fields?
      (v'.orElse (.object [])).fields? :=
  (h.orElse hP nofun .noFields).fields? hP

theorem elements? (h : Given P (.list σ) v v') :
    Option.Rel (List.Forall₂ (P σ)) v.elements? v'.elements? := by
  cases h with
  | read h => exact hP.elements? h
  | null => exact .none
  | noFields => exact .some .nil
  | noItems => exact .some .nil

end Given

/-! ## References -/

/-- Links with the same reference, to values in one role. -/
def LinkAs (d d' : Document) (ρ : Role) (link link' : Link) : Prop :=
  link'.reference = link.reference ∧ ReadAs d d' ρ link.target link'.target

section

variable {d d' : Document} (hd : Respelled d d') {ρ : Role} {v v' : Document}

include hd

/-- Walks along references match, link by link. -/
theorem Respelled.chainFrom (hρ : ρ.follows = true) (fuel : Nat) (seen : List String)
    (h : ReadAs d d' ρ v v') :
    Accord (List.Forall₂ (LinkAs d d' ρ)) (d.chainFrom fuel seen v) (d'.chainFrom fuel seen v') := by
  induction fuel generalizing seen v v' with
  | zero => exact .answer _ _ .nil
  | succ fuel ih =>
    have hfind := hd.inherited.find?_eq h "$ref" (Role.ref_mem_keywords hρ)
    rw [Document.chainFrom, Document.chainFrom, ← hfind]
    cases href : v.find? "$ref" with
    | none => exact .answer _ _ .nil
    | some reference =>
      cases reference with
      | text reference =>
        dsimp only
        split
        · exact .fail _ _ rfl
        · have hresolve := resolve_accord hd.emptied_eq reference
          have hfollow : ∀ target target', d.resolve reference = .ok target →
              d'.resolve reference = .ok target' → ReadAs d d' ρ target target' :=
            fun _ _ => .follow h hρ href (hfind ▸ href)
          generalize d.resolve reference = x at hresolve hfollow ⊢
          generalize d'.resolve reference = y at hresolve hfollow ⊢
          cases hresolve with
          | fail e e' hkind => exact .fail e e' hkind
          | answer target target' _ =>
            have htarget := hfollow target target' rfl rfl
            have hrest := ih (reference :: seen) htarget
            dsimp only
            generalize d.chainFrom fuel (reference :: seen) target = x at hrest ⊢
            generalize d'.chainFrom fuel (reference :: seen) target' = y at hrest ⊢
            cases hrest with
            | fail e e' hkind => exact .fail e e' hkind
            | answer links links' hlinks => exact .answer _ _ (.cons ⟨rfl, htarget⟩ hlinks)
      | _ => exact .fail _ _ rfl

theorem Respelled.chain (hρ : ρ.follows = true) (h : ReadAs d d' ρ v v') :
    Accord (List.Forall₂ (LinkAs d d' ρ)) (d.chain v) (d'.chain v') := by
  rw [Document.chain, Document.chain, fieldCount_eq hd.emptied_eq]
  exact hd.chainFrom hρ _ _ h

omit hd in
/-- The last links of matching walks match. -/
theorem getLast?_rel {links links' : List Link} (h : List.Forall₂ (LinkAs d d' ρ) links links') :
    Option.Rel (LinkAs d d' ρ) links.getLast? links'.getLast? := by
  induction h with
  | nil => exact .none
  | @cons link link' rest rest' hlink _ ih =>
    rw [List.getLast?_cons, List.getLast?_cons]
    generalize rest.getLast? = o at ih ⊢
    generalize rest'.getLast? = o' at ih ⊢
    cases ih with
    | none => exact .some hlink
    | some hlast => exact .some hlast

/-- **Walks along references end at values in the role that they started from.** -/
theorem Respelled.followOrBlame (hρ : ρ.follows = true) (h : ReadAs d d' ρ v v') :
    Accord (ReadAs d d' ρ) (d.followOrBlame v) (d'.followOrBlame v') := by
  have htext : referenceText v = referenceText v' := by
    rw [referenceText, referenceText, hd.inherited.find?_eq h "$ref" (Role.ref_mem_keywords hρ)]
  rw [Document.followOrBlame, Document.followOrBlame, htext, Document.follow, Document.follow]
  refine .blame ((hd.chain hρ h).map fun links links' hlinks => ?_) _
  have hlast := getLast?_rel hlinks
  generalize links.getLast? = o at hlast ⊢
  generalize links'.getLast? = o' at hlast ⊢
  cases hlast with
  | none => exact h
  | some hlink => exact hlink.2

end

/-! ## Deciding respellings -/

/-- What is enough of two values in one role for a respelling; data are asked to have no parts. -/
def agrees (ρ : Role) (v v' : Document) : Bool :=
  (ρ ≠ .data || v.isPlain && v'.isPlain) && (v.isObject = v'.isObject || ρ = .schema true) &&
    v.hasScalarKeys && v'.hasScalarKeys

/-- Whether what stands under the keys of two objects passes a test in its role. -/
def fieldsPass (test : Role → Document → Document → Bool) (ρ : Role) : Document → Document → Bool
  | .object fields, .object fields' =>
    (fields.zip fields').all fun p =>
      match ρ.under (.object fields) p.1.1 with
      | some σ => test σ p.1.2 p.2.2
      | none => true
  | _, _ => true

/-- Whether the elements of two lists pass a test in their role. -/
def elementsPass (test : Role → Document → Document → Bool) (ρ : Role) (v v' : Document) : Bool :=
  match ρ, v.elements?, v'.elements? with
  | .list σ, some items, some items' => (items.zip items').all fun p => test σ p.1 p.2
  | _, _, _ => true

/-- Whether what a followed reference leads to passes a test. -/
def targetsPass (test : Role → Document → Document → Bool) (d d' : Document) (ρ : Role)
    (v : Document) : Bool :=
  match ρ.follows, v.find? "$ref" with
  | true, some (.text reference) =>
    match d.resolve reference, d'.resolve reference with
    | .ok target, .ok target' => test ρ target target'
    | _, _ => true
  | _, _ => true

/-- Whether two values and all that is read from them agree, down to a depth that suffices. -/
def respells (d d' : Document) : Nat → Role → Document → Document → Bool
  | 0, _, _, _ => false
  | fuel + 1, ρ, v, v' =>
    agrees ρ v v' && fieldsPass (respells d d' fuel) ρ v v' &&
      elementsPass (respells d d' fuel) ρ v v' && targetsPass (respells d d' fuel) d d' ρ v

/-- The parts of a test of two values. -/
theorem respells_cases {d d' : Document} {fuel : Nat} {ρ : Role} {v v' : Document}
    (h : respells d d' fuel ρ v v' = true) :
    ∃ rest, agrees ρ v v' = true ∧ fieldsPass (respells d d' rest) ρ v v' = true ∧
      elementsPass (respells d d' rest) ρ v v' = true ∧
      targetsPass (respells d d' rest) d d' ρ v = true := by
  cases fuel with
  | zero => cases h
  | succ rest =>
    rw [respells, Bool.and_eq_true, Bool.and_eq_true, Bool.and_eq_true] at h
    exact ⟨rest, h.1.1.1, h.1.1.2, h.1.2, h.2⟩

/-- What is read from values that agree agrees as well. -/
theorem ReadAs.respells {d d' : Document} {fuel : Nat}
    (hroot : respells d d' fuel .root d d' = true) {ρ : Role} {v v' : Document}
    (h : ReadAs d d' ρ v v') : ∃ fuel, Document.respells d d' fuel ρ v v' = true := by
  induction h with
  | root => exact ⟨fuel, hroot⟩
  | @value ρ σ fields fields' i key x x' _ hx hx' hσ ih =>
    obtain ⟨_, hv⟩ := ih
    obtain ⟨rest, -, hfields, -, -⟩ := respells_cases hv
    have hmem : ((key, x), (key, x')) ∈ fields.zip fields' :=
      List.mem_of_getElem? (List.getElem?_zip_eq_some.mpr ⟨hx, hx'⟩)
    have hpass := List.all_eq_true.mp hfields _ hmem
    rw [hσ] at hpass
    exact ⟨rest, hpass⟩
  | @element σ v v' x x' items items' i _ hitems hitems' hx hx' ih =>
    obtain ⟨_, hv⟩ := ih
    obtain ⟨rest, -, -, helements, -⟩ := respells_cases hv
    have hmem : (x, x') ∈ items.zip items' :=
      List.mem_of_getElem? (List.getElem?_zip_eq_some.mpr ⟨hx, hx'⟩)
    simp only [elementsPass, hitems, hitems'] at helements
    exact ⟨rest, List.all_eq_true.mp helements _ hmem⟩
  | @follow ρ v v' target target' reference _ hρ href _ htarget htarget' ih =>
    obtain ⟨_, hv⟩ := ih
    obtain ⟨rest, -, -, -, htargets⟩ := respells_cases hv
    simp only [targetsPass, hρ, href, htarget, htarget'] at htargets
    exact ⟨rest, htargets⟩

/-- **Two documents that agree from the root are respellings of each other.** -/
theorem respelled_of_respells {d d' : Document} {fuel : Nat} (hd : d.emptied = d'.emptied)
    (hroot : respells d d' fuel .root d d' = true) : Respelled d d' := by
  have hagrees : ∀ ρ v v', ReadAs d d' ρ v v' → agrees ρ v v' = true := by
    intro ρ v v' h
    obtain ⟨_, hv⟩ := h.respells hroot
    obtain ⟨_, hv, -, -, -⟩ := respells_cases hv
    exact hv
  refine ⟨hd, fun v v' h => ?_, fun ρ v v' h hkind => ?_, fun ρ v v' h => ?_⟩
  · have hv := hagrees _ _ _ h
    simp only [agrees, Bool.and_eq_true, Bool.or_eq_true, ne_eq, not_true_eq_false,
      decide_false, Bool.false_eq_true, false_or] at hv
    have heq := h.emptied_eq hd
    rwa [emptied_of_isPlain hv.1.1.1.1, emptied_of_isPlain hv.1.1.1.2] at heq
  · have hv := hagrees _ _ _ h
    simp only [agrees, Bool.and_eq_true, Bool.or_eq_true, decide_eq_true_eq] at hv
    exact hv.1.1.2.resolve_left hkind
  · have hv := hagrees _ _ _ h
    simp only [agrees, Bool.and_eq_true] at hv
    exact ⟨hv.1.2, hv.2⟩

end Document

end TypedApi
