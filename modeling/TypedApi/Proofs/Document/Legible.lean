import TypedApi.Document.Coercion
import TypedApi.Document.Pointer
import TypedApi.Proofs.Document.Fields
/-!
Documents whose documentation can be read.

A schema or an operation may say where its documentation is kept, and it may say
something itself. Which of the two is read depends on whether documentation is
fetched. A document is legible if either can be read: wherever an address is
given it is a text, and the description and the summary beside it are texts or
missing. What a reader finds in a legible document, by going down into it or by
following a reference, is legible again.
-/

set_option autoImplicit false

/-! # What holds of a document and of everything in it

`everywhere p` asks a question of a value, of the elements of every array, pair
and collection in it, and of the keys and values of every object. What is found
in a value of that sort is of that sort again, so a reader may go down step by
step without asking anew.
-/

namespace TypedApi.Document

mutual
/-- Whether a value and all values in it pass a test. -/
def everywhere (p : Document → Bool) : Document → Bool
  | .array items => p (.array items) && everywhereItems p items
  | .pair a b => p (.pair a b) && (a.everywhere p && b.everywhere p)
  | .collection members => p (.collection members) && everywhereItems p members
  | .object fields => p (.object fields) && everywhereFields p fields
  | d => p d

/-- Whether every element passes the test, and all in it. -/
def everywhereItems (p : Document → Bool) : List Document → Bool
  | [] => true
  | d :: rest => d.everywhere p && everywhereItems p rest

/-- Whether every key and every value passes the test, and all in them. -/
def everywhereFields (p : Document → Bool) : List (Document × Document) → Bool
  | [] => true
  | (k, d) :: rest => k.everywhere p && (d.everywhere p && everywhereFields p rest)
end

variable {p : Document → Bool} {d x : Document}

/-- The value itself passes the test. -/
theorem of_everywhere (h : d.everywhere p = true) : p d = true := by
  cases d with
  | array | pair | collection | object =>
    rw [everywhere, Bool.and_eq_true] at h
    exact h.1
  | _ => exact h

theorem everywhere_of_mem {items : List Document} (h : everywhereItems p items = true)
    (hx : x ∈ items) : x.everywhere p = true := by
  induction items with
  | nil => cases hx
  | cons d rest ih =>
    rw [everywhereItems, Bool.and_eq_true] at h
    rcases List.mem_cons.mp hx with rfl | hx
    · exact h.1
    · exact ih h.2 hx

theorem everywhere_of_mem_fields {fields : List (Document × Document)} {k : Document}
    (h : everywhereFields p fields = true) (hx : (k, x) ∈ fields) :
    k.everywhere p = true ∧ x.everywhere p = true := by
  induction fields with
  | nil => cases hx
  | cons q rest ih =>
    obtain ⟨k', d⟩ := q
    rw [everywhereFields, Bool.and_eq_true, Bool.and_eq_true] at h
    rcases List.mem_cons.mp hx with heq | hx
    · cases heq
      exact ⟨h.1, h.2.1⟩
    · exact ih h.2.2 hx

/-- The keys and values of an object pass the test. -/
theorem everywhere_field {fields : List (Document × Document)} {k : Document}
    (h : (object fields).everywhere p = true) (hx : (k, x) ∈ fields) :
    k.everywhere p = true ∧ x.everywhere p = true := by
  rw [everywhere, Bool.and_eq_true] at h
  exact everywhere_of_mem_fields h.2 hx

/-- The value of a field passes the test. -/
theorem everywhere_of_find? {key : String} (h : d.everywhere p = true)
    (hx : d.find? key = some x) : x.everywhere p = true := by
  cases d with
  | object fields => exact (everywhere_field h (mem_of_lookup? hx)).2
  | _ => cases hx

/-- The elements of a value pass the test, if texts and numbers do. -/
theorem everywhere_of_elements? {items : List Document} (htext : ∀ s, p (.text s) = true)
    (hint : ∀ n, p (.int n) = true) (h : d.everywhere p = true) (hitems : d.elements? = some items)
    (hx : x ∈ items) : x.everywhere p = true := by
  cases d with
  | array | collection =>
    cases hitems
    rw [everywhere, Bool.and_eq_true] at h
    exact everywhere_of_mem h.2 hx
  | pair a b =>
    cases hitems
    rw [everywhere, Bool.and_eq_true, Bool.and_eq_true] at h
    rcases List.mem_pair.mp hx with rfl | rfl
    · exact h.2.1
    · exact h.2.2
  | object fields =>
    cases hitems
    obtain ⟨q, hq, rfl⟩ := List.mem_map.mp hx
    exact (everywhere_field h hq).1
  | text s =>
    cases hitems
    obtain ⟨c, _, rfl⟩ := List.mem_map.mp hx
    exact htext _
  | bytes bs =>
    cases hitems
    obtain ⟨b, _, rfl⟩ := List.mem_map.mp hx
    exact hint _
  | _ => cases hitems

end TypedApi.Document

/-! # Legible documents -/

namespace TypedApi.Document

/-- A text, or nothing. -/
def isReadable (d : Document) : Bool :=
  d.isNull || d.asText?.isSome

/-- The address of the documentation that is kept elsewhere, null for none. -/
def docsUrl (d : Document) : Document :=
  (((d.find? "externalDocs").getD .null).find? "url").getD .null

/-- Whether the documentation of a value can be read both where its address leads and beside it. -/
def isLegibleHere (d : Document) : Bool :=
  !d.docsUrl.holds ||
    (d.docsUrl.text?.isSome && ((d.find? "description").getD .null).isReadable &&
      ((d.find? "summary").getD .null).isReadable)

/-- Whether the documentation of a value and of all in it can be read. -/
def isLegible (d : Document) : Bool :=
  d.everywhere isLegibleHere

variable {d x : Document}

/-- Where a legible value gives an address, both the address and what stands beside it can be
read. -/
theorem of_isLegible (h : d.isLegible = true) (hurl : d.docsUrl.holds = true) :
    d.docsUrl.text?.isSome = true ∧ ((d.find? "description").getD .null).isReadable = true ∧
      ((d.find? "summary").getD .null).isReadable = true := by
  have hhere := of_everywhere h
  rw [isLegibleHere, hurl] at hhere
  simp only [Bool.not_true, Bool.false_or, Bool.and_eq_true] at hhere
  exact ⟨hhere.1.1, hhere.1.2, hhere.2⟩

/-! ## Reading on -/

/-- The value of a field is legible, whether it is there or not. -/
theorem isLegible_getD_find? (h : d.isLegible = true) (key : String) :
    ((d.find? key).getD .null).isLegible = true := by
  cases hx : d.find? key with
  | none => rfl
  | some x => exact everywhere_of_find? h hx

/-- The value of a field of an object is legible. -/
theorem isLegible_of_get? {key : String} (h : d.isLegible = true) (hx : d.get? key = some x) :
    x.isLegible = true := by
  have hfind := getD_get? d key
  rw [hx, Option.getD_some] at hfind
  rw [hfind]
  exact isLegible_getD_find? h key

theorem isLegible_orElse (h : d.isLegible = true) (hx : x.isLegible = true) :
    (d.orElse x).isLegible = true := by
  rw [orElse]
  split
  · exact h
  · exact hx

theorem isLegible_of_elements? {items : List Document} (h : d.isLegible = true)
    (hitems : d.elements? = some items) (hx : x ∈ items) : x.isLegible = true :=
  everywhere_of_elements? (fun _ => rfl) (fun _ => rfl) h hitems hx

theorem isLegible_of_fields? {fields : List (Document × Document)} {p : Document × Document}
    (h : d.isLegible = true) (hfields : d.fields? = some fields) (hp : p ∈ fields) :
    p.2.isLegible = true := by
  cases d with
  | object _ =>
    cases hfields
    exact (everywhere_field h hp).2
  | _ => cases hfields

/-! ## Writing a field anew -/

theorem everywhereFields_putField {p : Document → Bool} {fields : List (Document × Document)}
    {k : Document} (h : everywhereFields p fields = true) (hk : k.everywhere p = true)
    (hx : x.everywhere p = true) : everywhereFields p (putField fields k x) = true := by
  induction fields with
  | nil => simp [putField, everywhereFields, hk, hx]
  | cons q rest ih =>
    obtain ⟨k', y⟩ := q
    rw [everywhereFields, Bool.and_eq_true, Bool.and_eq_true] at h
    rw [putField]
    split
    · simp [everywhereFields, h.1, h.2.2, hx]
    · simp [everywhereFields, h.1, h.2.1, ih h.2.2]

/-- Another type does not touch documentation. -/
theorem isLegible_withType (h : d.isLegible = true) (hx : x.isLegible = true) :
    (d.withField "type" x).isLegible = true := by
  cases d with
  | object fields =>
    have hfields : everywhereFields isLegibleHere fields = true := by
      rw [isLegible, everywhere, Bool.and_eq_true] at h
      exact h.2
    have hsame : isLegibleHere ((object fields).withField "type" x) =
        isLegibleHere (object fields) := by
      simp only [isLegibleHere, docsUrl, find?_withField]
      simp
    rw [isLegible]
    simp only [withField, everywhere, Bool.and_eq_true]
    exact ⟨hsame.trans (of_everywhere h), everywhereFields_putField hfields rfl hx⟩
  | _ => exact h

/-! ## Following references -/

/-- What is found at an index is one of the elements. -/
theorem mem_of_elementAt? {items : List Document} {index : Int}
    (h : elementAt? items index = some x) : x ∈ items := by
  rw [elementAt?] at h
  generalize (if index < 0 then index + (items.length : Int) else index) = i at h
  split at h
  · cases h
  · exact List.mem_of_getElem? h

theorem isLegible_of_stepInto {reference segment : String} (h : d.isLegible = true)
    (hx : stepInto reference d segment = .ok x) : x.isLegible = true := by
  cases d with
  | object fields =>
    rw [stepInto] at hx
    split at hx
    · cases hx
      exact (everywhere_field h (mem_of_lookup? ‹_›)).2
    · cases hx
  | array items =>
    rw [stepInto] at hx
    split at hx
    · rename_i found hfound
      cases hx
      obtain ⟨index, _, hindex⟩ := Option.bind_eq_some_iff.mp hfound
      exact isLegible_of_elements? h rfl (mem_of_elementAt? hindex)
    · cases hx
  | _ => cases hx

/-- What stands at a path of a legible value is legible. -/
theorem isLegible_of_walk {reference : String} {segments : List String} (h : d.isLegible = true)
    (hx : segments.foldlM (stepInto reference) d = .ok x) : x.isLegible = true := by
  induction segments generalizing d with
  | nil =>
    cases hx
    exact h
  | cons segment rest ih =>
    rw [List.foldlM_cons] at hx
    cases hstep : stepInto reference d segment with
    | error e =>
      rw [hstep] at hx
      cases hx
    | ok y =>
      rw [hstep] at hx
      exact ih (isLegible_of_stepInto h hstep) hx

variable {document value : Document}

theorem isLegible_of_resolve {reference : String} (h : document.isLegible = true)
    (hx : document.resolve reference = .ok x) : x.isLegible = true := by
  rw [resolve] at hx
  split at hx
  · exact isLegible_of_walk h hx
  · cases hx

/-- All that a chain of references leads to is legible. -/
theorem isLegible_of_chainFrom {fuel : Nat} {seen : List String} {links : List Link}
    (h : document.isLegible = true) (hlinks : chainFrom document fuel seen value = .ok links) :
    ∀ link ∈ links, link.target.isLegible = true := by
  induction fuel generalizing seen value links with
  | zero =>
    cases hlinks
    simp
  | succ fuel ih =>
    rw [chainFrom.eq_def] at hlinks
    dsimp only at hlinks
    split at hlinks
    · cases hlinks
      simp
    · split at hlinks
      · cases hlinks
      · split at hlinks
        · cases hlinks
        · rename_i target htarget
          split at hlinks
          · cases hlinks
          · rename_i rest hrest
            cases hlinks
            refine List.forall_mem_cons.mpr ⟨isLegible_of_resolve h htarget, ih hrest⟩
    · cases hlinks

/-- The answer of a walk that is blamed on its reference is the answer of the walk. -/
theorem of_blameReference_ok {α : Type} {reference : String} {e : Except Failure α} {a : α}
    (h : blameReference reference e = .ok a) : e = .ok a := by
  cases e with
  | ok b => exact h
  | error f =>
    rw [blameReference] at h
    split at h <;> cases h

theorem isLegible_of_followOrBlame (h : document.isLegible = true) (hvalue : value.isLegible = true)
    (hx : document.followOrBlame value = .ok x) : x.isLegible = true := by
  have hfollow := of_blameReference_ok hx
  rw [follow] at hfollow
  cases hchain : document.chain value with
  | error e =>
    rw [hchain] at hfollow
    cases hfollow
  | ok links =>
    rw [hchain] at hfollow
    cases hlast : links.getLast? with
    | none =>
      simp only [Except.map, hlast] at hfollow
      cases hfollow
      exact hvalue
    | some link =>
      simp only [Except.map, hlast] at hfollow
      cases hfollow
      exact isLegible_of_chainFrom h hchain link (List.mem_of_getLast? hlast)

end TypedApi.Document
