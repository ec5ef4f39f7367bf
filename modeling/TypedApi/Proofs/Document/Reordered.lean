import TypedApi.Proofs.Document.Pointer
import TypedApi.Table
import Mathlib.Data.List.Forall2
/-!
Documents that differ in the order of their shared schemas.

Reading such documents gives the same nearly everywhere. A lookup by key does
not see the order of the fields, so a reference leads to the same value in both
documents or to none in both, and what it leads to is equal, with two
exceptions: the reference may be to the components as a whole, or to the object
that holds the schemas. The values at the ends of chains of references are then
not equal, but every field that is read of them by a key is.
-/

set_option autoImplicit false

namespace TypedApi

/-! ## Lookups in another order -/

/-- In a table without repeated keys, a key has a value exactly if the two are one of the pairs. -/
theorem Table.get?_eq_some_iff {α : Type} {t : Table α} (hdistinct : t.keys.Nodup) {key : String}
    {value : α} : t.get? key = some value ↔ (key, value) ∈ t := by
  refine ⟨Table.mem_of_get?_eq_some, fun hmem => ?_⟩
  induction t with
  | nil => cases hmem
  | cons p t ih =>
    obtain ⟨k, v⟩ := p
    obtain ⟨hfirst, hrest⟩ := List.nodup_cons.mp hdistinct
    rcases List.mem_cons.mp hmem with heq | hmem
    · cases heq
      rw [get?, if_pos rfl]
    · have hne : k ≠ key := by
        intro hkey
        apply hfirst
        simpa only [hkey] using List.mem_map_of_mem (f := Prod.fst) hmem
      rw [get?, if_neg hne]
      exact ih hrest hmem

/-- A table without repeated keys may be read in any order. -/
theorem Table.get?_perm {α : Type} {t t' : Table α} (hperm : t.Perm t') (hdistinct : t.keys.Nodup)
    (key : String) : t'.get? key = t.get? key := by
  have hdistinct' : t'.keys.Nodup := (hperm.map Prod.fst).nodup_iff.mp hdistinct
  refine Option.ext fun value => ?_
  rw [get?_eq_some_iff hdistinct, get?_eq_some_iff hdistinct']
  exact hperm.mem_iff.symm

namespace Document

/-- The fields of an object whose keys are texts. -/
def textFields (entries : Table Document) : List (Document × Document) :=
  entries.map fun p => (.text p.1, p.2)

theorem lookup?_textFields (key : String) (entries : Table Document) :
    lookup? key (textFields entries) = entries.get? key := by
  induction entries with
  | nil => rfl
  | cons p entries ih =>
    obtain ⟨k, v⟩ := p
    rw [textFields] at ih
    simp only [textFields, List.map_cons, lookup?, isText, Table.get?, ih, decide_eq_true_eq]

/-- How many fields there are does not depend on their order. -/
theorem fieldCountOfFields_perm {fields fields' : List (Document × Document)}
    (h : fields.Perm fields') : fieldCountOfFields fields' = fieldCountOfFields fields := by
  induction h with
  | nil => rfl
  | cons p _ ih => simp only [fieldCountOfFields, ih]
  | swap p q _ => simp only [fieldCountOfFields]; omega
  | trans _ _ ih ih' => exact ih'.trans ih

/-! ## Objects that differ in one value -/

/-- Two objects with the same fields, except for the value of one key. -/
inductive Replaced (key : String) (value value' : Document) : Document → Document → Prop
  | intro (before after : List (Document × Document)) : lookup? key before = none →
    Replaced key value value' (.object (before ++ (.text key, value) :: after))
      (.object (before ++ (.text key, value') :: after))

namespace Replaced

variable {key : String} {value value' d d' : Document}

theorem find?_self (h : Replaced key value value' d d') :
    d.find? key = some value ∧ d'.find? key = some value' := by
  obtain ⟨before, after, hfirst⟩ := h
  simp [find?, lookup?_append_of_none hfirst, lookup?, isText]

theorem find?_of_ne (h : Replaced key value value' d d') {other : String} (hne : other ≠ key) :
    d'.find? other = d.find? other := by
  obtain ⟨before, after, hfirst⟩ := h
  have hother : (Document.text key).isText other = false := by simp [isText, Ne.symm hne]
  clear hfirst
  simp only [find?]
  induction before with
  | nil => simp [lookup?, hother]
  | cons p before ih => simp only [List.cons_append, lookup?, ih]

theorem fields? (h : Replaced key value value' d d') :
    ∃ fields fields', d = .object fields ∧ d' = .object fields' ∧
      (.text key, value) ∈ fields ∧ (.text key, value') ∈ fields' := by
  obtain ⟨before, after, _⟩ := h
  exact ⟨_, _, rfl, rfl, by simp, by simp⟩

theorem get?_of_ne (h : Replaced key value value' d d') {other : String} (hne : other ≠ key) :
    d'.get? other = d.get? other := by
  have hfind := h.find?_of_ne hne
  obtain ⟨fields, fields', rfl, rfl, _⟩ := h.fields?
  simp only [find?] at hfind
  simp only [get?, hfind]

theorem fieldCount_eq (h : Replaced key value value' d d')
    (hvalue : value'.fieldCount = value.fieldCount) : d'.fieldCount = d.fieldCount := by
  obtain ⟨before, after, hfirst⟩ := h
  clear hfirst
  simp only [fieldCount]
  induction before with
  | nil => simp only [List.nil_append, fieldCountOfFields, hvalue]
  | cons p before ih => simp only [List.cons_append, fieldCountOfFields, ih]

/-- A walk under the key goes on from the values. -/
theorem walk_self (h : Replaced key value value' d d') (reference : String) (rest : List String) :
    (key :: rest).foldlM (stepInto reference) d = rest.foldlM (stepInto reference) value ∧
      (key :: rest).foldlM (stepInto reference) d' = rest.foldlM (stepInto reference) value' := by
  obtain ⟨hfind, hfind'⟩ := h.find?_self
  rw [List.foldlM_cons, List.foldlM_cons, stepInto_of_find? hfind, stepInto_of_find? hfind']
  exact ⟨rfl, rfl⟩

end Replaced

/-- A walk into an object depends on what is found there under its first key. -/
theorem walk_congr {fields fields' : List (Document × Document)} {key : String}
    (h : lookup? key fields' = lookup? key fields) (reference : String) (rest : List String) :
    (key :: rest).foldlM (stepInto reference) (.object fields') =
      (key :: rest).foldlM (stepInto reference) (.object fields) := by
  rw [List.foldlM_cons, List.foldlM_cons, stepInto, stepInto, h]

/-- A walk under another key is the same in both objects. -/
theorem Replaced.walk_of_ne {key : String} {value value' d d' : Document}
    (h : Replaced key value value' d d') {other : String} (hne : other ≠ key) (reference : String)
    (rest : List String) :
    (other :: rest).foldlM (stepInto reference) d' =
      (other :: rest).foldlM (stepInto reference) d := by
  have hfind := h.find?_of_ne hne
  obtain ⟨fields, fields', rfl, rfl, _⟩ := h.fields?
  exact walk_congr hfind reference rest

/-! ## Reordered documents -/

/-- Two documents that differ in nothing but the order of their shared schemas. -/
structure Reordered (schemas schemas' : Table Document) (components components' d d' : Document) :
    Prop where
  perm : schemas.Perm schemas'
  distinct : schemas.keys.Nodup
  inner : Replaced "schemas" (.object (textFields schemas)) (.object (textFields schemas'))
    components components'
  outer : Replaced "components" components components' d d'

/-- What two such documents have under the same path, if anything: equal values, or the components,
or the object that holds the schemas. -/
inductive FoundAlike (schemas schemas' : Table Document) (components components' : Document) :
    Option (List String) → Document → Document → Prop
  | same (path : Option (List String)) (value : Document) :
    FoundAlike schemas schemas' components components' path value value
  | components : FoundAlike schemas schemas' components components' (some ["components"])
    components components'
  | schemas : FoundAlike schemas schemas' components components' (some ["components", "schemas"])
    (.object (textFields schemas)) (.object (textFields schemas'))

/-- Two computations that fail in the same way, or answer alike. -/
inductive Matches {α β : Type} (R : α → β → Prop) : Except Failure α → Except Failure β → Prop
  | fail (e : Failure) : Matches R (.error e) (.error e)
  | answer (a : α) (b : β) : R a b → Matches R (.ok a) (.ok b)

theorem Matches.of_eq {α : Type} {R : α → α → Prop} (h : ∀ a, R a a) {x y : Except Failure α}
    (heq : y = x) : Matches R x y := by
  subst heq
  cases y with
  | error e => exact .fail e
  | ok a => exact .answer a a (h a)

/-- A walk that leads nowhere is blamed on the same reference on both sides. -/
theorem Matches.blame {α β : Type} {R : α → β → Prop} {x : Except Failure α} {y : Except Failure β}
    (h : Matches R x y) (reference : String) :
    Matches R (blameReference reference x) (blameReference reference y) := by
  cases h with
  | fail e =>
    rw [blameReference, blameReference]
    split
    · exact .fail _
    · exact .fail _
  | answer a b hab => exact .answer a b hab

/-- Links with the same reference, to values that are found alike. -/
def LinkAlike (schemas schemas' : Table Document) (components components' : Document)
    (link link' : Link) : Prop :=
  link'.reference = link.reference ∧
    FoundAlike schemas schemas' components components' (segments? link.reference) link.target
      link'.target

/-- Values that are found alike where walks from one value end: both are that value itself, or they
are the targets of the last links. -/
def EndsAlike (schemas schemas' : Table Document) (components components' d value : Document)
    (target target' : Document) : Prop :=
  ∃ path, FoundAlike schemas schemas' components components' path target target' ∧
    ∀ segments, path = some segments → ∃ links link,
      d.chain value = .ok links ∧ links.getLast? = some link ∧
      segments? link.reference = some segments

section

variable {schemas schemas' : Table Document} {components components' d d' : Document}

/-- What is found alike has the same fields under all keys but the one for the schemas. -/
theorem FoundAlike.find?_eq (h : Reordered schemas schemas' components components' d d')
    {path : Option (List String)} {value value' : Document}
    (hfound : FoundAlike schemas schemas' components components' path value value') {key : String}
    (hkey : key ≠ "schemas") : value'.find? key = value.find? key := by
  cases hfound with
  | same => rfl
  | components => exact h.inner.find?_of_ne hkey
  | schemas =>
    simp only [find?, lookup?_textFields]
    exact Table.get?_perm h.perm h.distinct key

/-- What is found alike is equal, or an object on both sides. -/
theorem FoundAlike.eq_or_object (h : Reordered schemas schemas' components components' d d')
    {path : Option (List String)} {value value' : Document}
    (hfound : FoundAlike schemas schemas' components components' path value value') :
    value' = value ∨ ∃ fields fields', value = .object fields ∧ value' = .object fields' := by
  cases hfound with
  | same => exact .inl rfl
  | components =>
    obtain ⟨fields, fields', hfields, hfields', _⟩ := h.inner.fields?
    exact .inr ⟨fields, fields', hfields, hfields'⟩
  | schemas => exact .inr ⟨_, _, rfl, rfl⟩

theorem FoundAlike.get?_eq (h : Reordered schemas schemas' components components' d d')
    {path : Option (List String)} {value value' : Document}
    (hfound : FoundAlike schemas schemas' components components' path value value') {key : String}
    (hkey : key ≠ "schemas") : value'.get? key = value.get? key := by
  have hfind := hfound.find?_eq h hkey
  rcases hfound.eq_or_object h with rfl | ⟨fields, fields', rfl, rfl⟩
  · rfl
  · simp only [find?] at hfind
    simp only [get?, hfind]

/-- The last links of matching walks match. -/
theorem getLast?_alike {links links' : List Link}
    (hlinks : List.Forall₂ (LinkAlike schemas schemas' components components') links links') :
    links = [] ∧ links' = [] ∨ ∃ link link', links.getLast? = some link ∧
      links'.getLast? = some link' ∧ LinkAlike schemas schemas' components components' link link' := by
  induction hlinks with
  | nil => exact .inl ⟨rfl, rfl⟩
  | cons hlink _ ih =>
    refine .inr ?_
    rcases ih with ⟨rfl, rfl⟩ | ⟨last, last', hlast, hlast', halike⟩
    · exact ⟨_, _, rfl, rfl, hlink⟩
    · exact ⟨last, last', by rw [List.getLast?_cons, hlast]; rfl,
        by rw [List.getLast?_cons, hlast']; rfl, halike⟩

namespace Reordered

variable (h : Reordered schemas schemas' components components' d d')

include h

theorem fieldCount_eq : d'.fieldCount = d.fieldCount := by
  refine h.outer.fieldCount_eq (h.inner.fieldCount_eq ?_)
  simp only [fieldCount]
  exact fieldCountOfFields_perm (h.perm.map _)

/-- **A reference leads to the same in both documents**: to values that are found alike, or to none
for the same reason. -/
theorem resolve (reference : String) :
    Matches (FoundAlike schemas schemas' components components' (segments? reference))
      (d.resolve reference) (d'.resolve reference) := by
  rw [Document.resolve, Document.resolve]
  cases hsegments : segments? reference with
  | none => exact .fail _
  | some segments =>
    dsimp only
    cases segments with
    | nil => exact absurd hsegments segments?_ne_nil
    | cons first rest =>
      by_cases hfirst : first = "components"
      · subst hfirst
        obtain ⟨hwalk, hwalk'⟩ := h.outer.walk_self reference rest
        rw [hwalk, hwalk']
        cases rest with
        | nil => exact .answer _ _ .components
        | cons second rest =>
          by_cases hsecond : second = "schemas"
          · subst hsecond
            obtain ⟨hwalk, hwalk'⟩ := h.inner.walk_self reference rest
            rw [hwalk, hwalk']
            cases rest with
            | nil => exact .answer _ _ .schemas
            -- past the schemas, each one is found by its key
            | cons third rest =>
              refine .of_eq (.same _) (walk_congr ?_ reference rest)
              rw [lookup?_textFields, lookup?_textFields]
              exact Table.get?_perm h.perm h.distinct third
          · exact .of_eq (.same _) (h.inner.walk_of_ne hsecond reference rest)
      · exact .of_eq (.same _) (h.outer.walk_of_ne hfirst reference rest)

/-- Walks along references match, link by link. -/
theorem chainFrom (fuel : Nat) (seen : List String) {value value' : Document}
    (hvalue : value'.find? "$ref" = value.find? "$ref") :
    Matches (List.Forall₂ (LinkAlike schemas schemas' components components'))
      (d.chainFrom fuel seen value) (d'.chainFrom fuel seen value') := by
  induction fuel generalizing seen value value' with
  | zero => exact .answer _ _ .nil
  | succ fuel ih =>
    rw [Document.chainFrom, Document.chainFrom, hvalue]
    cases value.find? "$ref" with
    | none => exact .answer _ _ .nil
    | some reference =>
      cases reference with
      | text reference =>
        dsimp only
        split
        · exact .fail _
        · have hresolve := h.resolve reference
          generalize d.resolve reference = x at hresolve ⊢
          generalize d'.resolve reference = y at hresolve ⊢
          cases hresolve with
          | fail e => exact .fail e
          | answer target target' hfound =>
            -- what the walk goes on from is a reference on both sides or on none
            have hrest := ih (reference :: seen) (hfound.find?_eq h (show "$ref" ≠ "schemas" by decide))
            dsimp only
            generalize d.chainFrom fuel (reference :: seen) target = x at hrest ⊢
            generalize d'.chainFrom fuel (reference :: seen) target' = y at hrest ⊢
            cases hrest with
            | fail e => exact .fail e
            | answer links links' hlinks => exact .answer _ _ (.cons ⟨rfl, hfound⟩ hlinks)
      | _ => exact .fail _

theorem chain (value : Document) :
    Matches (List.Forall₂ (LinkAlike schemas schemas' components components')) (d.chain value)
      (d'.chain value) := by
  rw [Document.chain, Document.chain, h.fieldCount_eq]
  exact h.chainFrom _ _ rfl

/-- **Walks from one value end at values that are found alike.** -/
theorem followOrBlame (value : Document) :
    Matches (EndsAlike schemas schemas' components components' d value) (d.followOrBlame value)
      (d'.followOrBlame value) := by
  rw [Document.followOrBlame, Document.followOrBlame, Document.follow, Document.follow]
  refine .blame ?_ _
  have hchain := h.chain value
  generalize hx : d.chain value = x at hchain ⊢
  generalize d'.chain value = y at hchain ⊢
  cases hchain with
  | fail e => exact .fail e
  | answer links links' hlinks =>
    refine .answer _ _ ?_
    dsimp only
    rcases getLast?_alike hlinks with ⟨rfl, rfl⟩ | ⟨link, link', hlast, hlast', _, hfound⟩
    · exact ⟨none, .same _ _, by simp⟩
    · rw [hlast, hlast']
      exact ⟨_, hfound, fun segments hsegments => ⟨links, link, hx, hlast, hsegments⟩⟩

end Reordered

end

end Document

end TypedApi
