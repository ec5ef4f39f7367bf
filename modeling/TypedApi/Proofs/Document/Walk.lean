import TypedApi.Document.Pointer
import TypedApi.Proofs.Document.Fields
import Mathlib.Data.Finset.Card
import Mathlib.Data.Finset.SDiff
import Mathlib.Logic.Relation
/-!
Walks through references.

A walk goes from a value to what its reference leads to, and from there on, until
it comes to a value that is no reference or to a reference that it has met. `Walk`
says this without a bound. `chain` is given fuel, and has enough of it: every
reference after the first is a field of the document, none is met twice, and the
document has no more references than fields. So the fuel never shows.

Where references form a cycle, a walk into it has no other way out than to fail,
and the cycle is what it reports.
-/

set_option autoImplicit false

namespace TypedApi.Document

variable {document value target d x : Document} {path : String} {seen seen' : List String}
  {links : List Link} {result : Except Failure (List Link)}

/-! ## The references in a document -/

mutual
/-- The references of a value and of all values that a path can lead to from there. -/
def references : Document → List String
  | .array items => referencesOfItems items
  | .object fields => referencesOfFields fields
  | _ => []

/-- The references of the elements of an array. -/
def referencesOfItems : List Document → List String
  | [] => []
  | d :: rest => d.references ++ referencesOfItems rest

/-- The reference among some fields, and those of their values. -/
def referencesOfFields : List (Document × Document) → List String
  | [] => []
  | (k, d) :: rest =>
    (if k.isText "$ref" then d.text?.toList else []) ++ d.references ++ referencesOfFields rest
end

mutual
/-- There are no more references than fields. -/
theorem length_references_le : ∀ d : Document, d.references.length ≤ d.fieldCount
  | .array items => by
    rw [references, fieldCount]
    exact length_referencesOfItems_le items
  | .object fields => by
    rw [references, fieldCount]
    exact length_referencesOfFields_le fields
  | .null | .bool _ | .int _ | .float _ | .text _ | .bytes _ | .moment _ | .pair .. | .collection _
  | .loop _ => Nat.zero_le _

theorem length_referencesOfItems_le : ∀ items : List Document,
    (referencesOfItems items).length ≤ fieldCountOfItems items
  | [] => Nat.le_refl _
  | d :: rest => by
    rw [referencesOfItems, fieldCountOfItems, List.length_append]
    exact Nat.add_le_add (length_references_le d) (length_referencesOfItems_le rest)

theorem length_referencesOfFields_le : ∀ fields : List (Document × Document),
    (referencesOfFields fields).length ≤ fieldCountOfFields fields
  | [] => Nat.le_refl _
  | (k, d) :: rest => by
    have hown : (if k.isText "$ref" then d.text?.toList else []).length ≤ 1 := by
      split
      · cases d.text? <;> simp
      · simp
    have hvalue := length_references_le d
    have hrest := length_referencesOfFields_le rest
    rw [referencesOfFields, fieldCountOfFields, List.length_append, List.length_append]
    omega
end

theorem subset_referencesOfFields {fields : List (Document × Document)} {k : Document}
    (h : (k, x) ∈ fields) : x.references ⊆ referencesOfFields fields := by
  induction fields with
  | nil => cases h
  | cons p rest ih =>
    obtain ⟨k', d⟩ := p
    rw [referencesOfFields]
    rcases List.mem_cons.mp h with heq | h
    · cases heq
      exact List.subset_append_of_subset_left _ (List.subset_append_right _ _)
    · exact List.subset_append_of_subset_right _ (ih h)

theorem subset_referencesOfItems {items : List Document} (h : x ∈ items) :
    x.references ⊆ referencesOfItems items := by
  induction items with
  | nil => cases h
  | cons d rest ih =>
    rw [referencesOfItems]
    rcases List.mem_cons.mp h with rfl | h
    · exact List.subset_append_left _ _
    · exact List.subset_append_of_subset_right _ (ih h)

/-- A value that is a reference has it among its references. -/
theorem mem_references (h : value.find? "$ref" = some (.text path)) : path ∈ value.references := by
  obtain ⟨fields, rfl⟩ := exists_fields_of_find? h
  have hmem := mem_of_lookup? h
  rw [references]
  clear h
  induction fields with
  | nil => cases hmem
  | cons p rest ih =>
    obtain ⟨k, d⟩ := p
    rw [referencesOfFields]
    rcases List.mem_cons.mp hmem with heq | hmem
    · cases heq
      simp [isText, text?]
    · exact List.mem_append_right _ (ih hmem)

/-- One step of a path leads to no references but those that were there. -/
theorem references_subset_of_stepInto {reference segment : String}
    (h : stepInto reference d segment = .ok x) : x.references ⊆ d.references := by
  cases d with
  | object fields =>
    rw [stepInto] at h
    split at h
    · cases h
      rw [references]
      exact subset_referencesOfFields (mem_of_lookup? ‹_›)
    · cases h
  | array items =>
    rw [stepInto] at h
    split at h
    · cases h
      obtain ⟨index, _, hitem⟩ := Option.bind_eq_some_iff.mp ‹_›
      rw [references]
      rw [elementAt?] at hitem
      exact subset_referencesOfItems (List.mem_of_getElem? (Option.ite_none_left_eq_some.mp hitem).2)
    · cases h
  | _ => cases h

/-- Neither does a whole path. -/
theorem references_subset_of_resolve (h : document.resolve path = .ok x) :
    x.references ⊆ document.references := by
  rw [resolve] at h
  split at h
  · rename_i segments _
    clear * - h
    induction segments generalizing document with
    | nil =>
      cases h
      exact List.Subset.refl _
    | cons segment rest ih =>
      rw [List.foldlM_cons] at h
      cases hstep : stepInto path document segment with
      | error e =>
        rw [hstep] at h
        cases h
      | ok next =>
        rw [hstep] at h
        exact List.Subset.trans (ih h) (references_subset_of_stepInto hstep)
  · cases h

/-! ## Walks -/

/-- A walk from a value on, given the references met before: the links that it goes through, or why
it fails. -/
inductive Walk (document : Document) :
    List String → Document → Except Failure (List Link) → Prop
  | done (seen : List String) (value : Document) : value.find? "$ref" = none →
    Walk document seen value (.ok [])
  | circular (seen : List String) (value : Document) (path : String) :
    value.find? "$ref" = some (.text path) → path ∈ seen →
    Walk document seen value (fail (.source (.circular path)))
  | stuck (seen : List String) (value : Document) (path : String) (e : Failure) :
    value.find? "$ref" = some (.text path) → path ∉ seen → document.resolve path = .error e →
    Walk document seen value (.error e)
  | malformed (seen : List String) (value reference : Document) :
    value.find? "$ref" = some reference → reference.text? = none →
    Walk document seen value (.error .malformed)
  | step (seen : List String) (value target : Document) (path : String)
    (rest : Except Failure (List Link)) :
    value.find? "$ref" = some (.text path) → path ∉ seen → document.resolve path = .ok target →
    Walk document (path :: seen) target rest →
    Walk document seen value (rest.map (⟨path, target⟩ :: ·))

/-- With fuel for the references that are left, a walk is what `chainFrom` says. The first value may
be no part of the document, so its own reference is counted by itself; those that follow are all
from the document. -/
theorem walk_chainFrom {fuel : Nat} (hpos : 0 < fuel)
    (hfuel : ∀ path, value.find? "$ref" = some (.text path) → path ∉ seen →
      (document.references.toFinset \ (path :: seen).toFinset).card + 1 < fuel) :
    Walk document seen value (chainFrom document fuel seen value) := by
  induction fuel generalizing seen value with
  | zero => exact absurd hpos (Nat.not_lt_zero _)
  | succ fuel ih =>
    rw [chainFrom.eq_def]
    dsimp only
    split
    · exact .done seen value ‹_›
    · rename_i path hpath
      split
      · exact .circular seen value path hpath (by simpa using ‹seen.contains path = true›)
      have hnew : path ∉ seen := by simpa using ‹¬seen.contains path = true›
      have hleft := hfuel path hpath hnew
      cases hresolve : document.resolve path with
      | error e => exact .stuck seen value path e hpath hnew hresolve
      | ok target =>
        have hrest : Walk document (path :: seen) target
            (chainFrom document fuel (path :: seen) target) := by
          refine ih (by omega) fun next hnext hunmet => ?_
          -- the next reference is one of those that were left, and now it is met
          have hmem : next ∈ document.references.toFinset \ (path :: seen).toFinset := by
            rw [Finset.mem_sdiff, List.mem_toFinset, List.mem_toFinset]
            exact ⟨references_subset_of_resolve hresolve (mem_references hnext), hunmet⟩
          have hfewer := Finset.card_erase_lt_of_mem hmem
          rw [List.toFinset_cons, Finset.sdiff_insert]
          omega
        have hstep := Walk.step seen value target path _ hpath hnew hresolve hrest
        dsimp only
        cases hchain : chainFrom document fuel (path :: seen) target with
        | error e => rwa [hchain] at hstep
        | ok links => rwa [hchain] at hstep
    · rename_i reference hnot hreference
      refine .malformed seen value reference hreference ?_
      cases reference with
      | text s => exact absurd rfl (hnot s)
      | _ => rfl

/-- **The fuel of a walk is enough**, whatever the document and the value. -/
theorem walk_chain (document value : Document) :
    Walk document [] value (document.chain value) := by
  refine walk_chainFrom (Nat.succ_pos _) fun path _ _ => ?_
  have hsubset := Finset.card_le_card
    (Finset.sdiff_subset (s := document.references.toFinset) (t := [path].toFinset))
  have hdistinct := List.toFinset_card_le document.references
  have hcount := length_references_le document
  omega

/-- A walk that ends does so with fewer references met before. -/
theorem Walk.mono (h : Walk document seen value (.ok links)) (hseen : seen' ⊆ seen) :
    Walk document seen' value (.ok links) := by
  generalize hresult : (.ok links : Except Failure (List Link)) = result at h
  induction h generalizing seen' links with
  | done seen value hnone =>
    cases hresult
    exact .done seen' value hnone
  | circular | stuck | malformed => cases hresult
  | step seen value target path rest hvalue hnew hresolve _ ih =>
    cases rest with
    | error e => cases hresult
    | ok rest =>
      cases hresult
      have hrest := ih (List.cons_subset_cons path hseen) rfl
      exact .step seen' value target path _ hvalue (fun hmem => hnew (hseen hmem)) hresolve hrest

/-- **A walk that ends** has come to a value that is no reference, or goes through a link first. -/
theorem Walk.ok_cases (h : Walk document seen value (.ok links)) :
    (links = [] ∧ value.find? "$ref" = none) ∨
    ∃ path target rest, links = ⟨path, target⟩ :: rest ∧
      value.find? "$ref" = some (.text path) ∧ document.resolve path = .ok target ∧
      Walk document (path :: seen) target (.ok rest) := by
  generalize hresult : (.ok links : Except Failure (List Link)) = result at h
  cases h with
  | done _ _ hnone =>
    cases hresult
    exact .inl ⟨rfl, hnone⟩
  | circular | stuck | malformed => cases hresult
  | step _ _ target path rest hvalue _ hresolve hrest =>
    cases rest with
    | error e => cases hresult
    | ok rest =>
      cases hresult
      exact .inr ⟨path, target, rest, rfl, hvalue, hresolve, hrest⟩

/-- A walk from a reference begins with the link to what it resolves to. -/
theorem Walk.exists_link (h : Walk document seen value (.ok links))
    (hvalue : value.find? "$ref" = some (.text path)) :
    ∃ target rest, links = ⟨path, target⟩ :: rest ∧ document.resolve path = .ok target ∧
      Walk document (path :: seen) target (.ok rest) := by
  rcases h.ok_cases with ⟨_, hnone⟩ | ⟨own, target, rest, hlinks, hown, hresolve, hrest⟩
  · rw [hnone] at hvalue
    cases hvalue
  · obtain rfl : own = path := by simpa using hown.symm.trans hvalue
    exact ⟨target, rest, hlinks, hresolve, hrest⟩

/-- A walk with links starts from a reference. -/
theorem Walk.exists_reference {link : Link} {rest : List Link}
    (h : Walk document seen value (.ok (link :: rest))) :
    value.find? "$ref" = some (.text link.reference) := by
  rcases h.ok_cases with ⟨hempty, _⟩ | ⟨path, target, others, hlinks, hvalue, _⟩
  · cases hempty
  · cases hlinks
    exact hvalue

/-- A walk without links starts from no reference. -/
theorem Walk.find?_of_nil (h : Walk document seen value (.ok [])) : value.find? "$ref" = none := by
  rcases h.ok_cases with ⟨_, hnone⟩ | ⟨path, target, others, hlinks, _⟩
  · exact hnone
  · cases hlinks

/-! ## Cycles -/

/-- A reference leads to a value that is a reference itself. -/
def Refers (document : Document) (path next : String) : Prop :=
  ∃ target, document.resolve path = .ok target ∧ target.find? "$ref" = some (.text next)

/-- A reference from which a walk comes to one that leads back to itself. -/
def Cyclic (document : Document) (path : String) : Prop :=
  ∃ back, Relation.ReflTransGen document.Refers path back ∧
    Relation.TransGen document.Refers back back

/-- A reference into a cycle leads on, and stays in it. -/
theorem Cyclic.exists_next (h : document.Cyclic path) :
    ∃ next, document.Refers path next ∧ document.Cyclic next := by
  obtain ⟨back, hpath, hback⟩ := h
  rcases Relation.ReflTransGen.cases_head hpath with rfl | ⟨next, hnext, hrest⟩
  · obtain ⟨next, hnext, hrest⟩ := Relation.TransGen.head'_iff.mp hback
    exact ⟨next, hnext, path, hrest, hback⟩
  · exact ⟨next, hnext, back, hrest, hback⟩

/-- **A walk into a cycle reports a circle.** -/
theorem Walk.circular_of_cyclic (h : Walk document seen value result)
    (hvalue : value.find? "$ref" = some (.text path)) (hpath : document.Cyclic path) :
    ∃ met, result = fail (.source (.circular met)) := by
  induction h generalizing path with
  | done seen value hnone =>
    rw [hnone] at hvalue
    cases hvalue
  | circular seen value met _ _ => exact ⟨met, rfl⟩
  | stuck seen value own e hown _ hresolve =>
    obtain ⟨next, ⟨target, htarget, _⟩, _⟩ := hpath.exists_next
    obtain rfl : own = path := by simpa using hown.symm.trans hvalue
    rw [hresolve] at htarget
    cases htarget
  | malformed seen value reference hreference hnot =>
    rw [hreference, Option.some.injEq] at hvalue
    subst hvalue
    cases hnot
  | step seen value target own rest hown _ hresolve _ ih =>
    obtain ⟨next, ⟨target', htarget, hnext⟩, hcyclic⟩ := hpath.exists_next
    obtain rfl : own = path := by simpa using hown.symm.trans hvalue
    obtain rfl : target = target' := Except.ok.inj (hresolve.symm.trans htarget)
    obtain ⟨met, rfl⟩ := ih hnext hcyclic
    exact ⟨met, rfl⟩

end TypedApi.Document
