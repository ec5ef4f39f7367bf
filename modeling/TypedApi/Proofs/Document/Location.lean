import TypedApi.Proofs.Build.Blame
import TypedApi.Proofs.Document.Pointer
import TypedApi.Proofs.Text.Numeral
/-!
Locations in a document.

A reference names a location by a path of segments: a key where an object has been
reached, an element where an array has. The standard for such references knows one
segment for each element, its position as a plain numeral. Reading a reference is
more lenient and takes every spelling of an integer, a negative one counting from
the end. `Locates` has the way of naming elements as a parameter, so that both
readings are the same relation.

Whatever a document holds, the reference that is made of a path leads to the value
at its end, and a reference is answered exactly if its segments lead somewhere by
the lenient reading.
-/

set_option autoImplicit false

namespace TypedApi.Document

variable {d document v x : Document} {reference segment : String} {segments : List String}

/-! ## Segments and what they name -/

/-- The plain numeral of a position names the element there. -/
def plainIndex (n : Nat) (segment : String) (i : Nat) : Prop :=
  i < n ∧ segment = toString i

/-- A spelling of an integer names the element at that position, counted from the end if the
integer is negative. -/
def spelledIndex (n : Nat) (segment : String) (i : Nat) : Prop :=
  i < n ∧ ∃ z, Text.Spelling segment z ∧ (z = i ∨ z + n = i)

/-- The segments of a path lead from a value to another one. The elements of an array are named as
the parameter says. -/
inductive Locates (named : Nat → String → Nat → Prop) : Document → List String → Document → Prop
  | here (d : Document) : Locates named d [] d
  | key (fields : List (Document × Document)) (segment : String) (rest : List String)
    (x v : Document) :
    lookup? segment fields = some x → Locates named x rest v →
    Locates named (.object fields) (segment :: rest) v
  | element (items : List Document) (i : Nat) (segment : String) (rest : List String)
    (x v : Document) :
    named items.length segment i → items[i]? = some x → Locates named x rest v →
    Locates named (.array items) (segment :: rest) v

/-- What the integer of a segment leads to in an array. -/
theorem elementAt?_eq_some_iff {items : List Document} {z : Int} :
    elementAt? items z = some x ↔
      ∃ i : Nat, (z = i ∨ z + items.length = i) ∧ items[i]? = some x := by
  have hread : ∀ k : Int, (if k < 0 then none else items[k.toNat]?) = some x ↔
      ∃ i : Nat, k = i ∧ items[i]? = some x := by
    intro k
    rw [Option.ite_none_left_eq_some]
    constructor
    · rintro ⟨hk, hx⟩
      exact ⟨k.toNat, by omega, hx⟩
    · rintro ⟨i, rfl, hx⟩
      exact ⟨by omega, by rwa [Int.toNat_natCast]⟩
  refine (hread _).trans ⟨?_, ?_⟩
  · rintro ⟨i, hi, hx⟩
    exact ⟨i, by split at hi <;> omega, hx⟩
  · rintro ⟨i, hi, hx⟩
    have hlt := (List.getElem?_eq_some_iff.mp hx).1
    exact ⟨i, by split <;> omega, hx⟩

/-- One step of a path goes to where its segment leads. -/
theorem stepInto_eq_ok_iff :
    stepInto reference d segment = .ok x ↔ Locates spelledIndex d [segment] x := by
  constructor
  · intro h
    cases d with
    | object fields =>
      rw [stepInto] at h
      split at h
      · cases h
        exact .key fields segment [] _ _ ‹_› (.here _)
      · cases h
    | array items =>
      rw [stepInto] at h
      split at h
      · rename_i hbind
        cases h
        obtain ⟨z, hz, hx⟩ := Option.bind_eq_some_iff.mp hbind
        obtain ⟨i, hi, hx⟩ := elementAt?_eq_some_iff.mp hx
        exact .element items i segment [] _ _ ⟨(List.getElem?_eq_some_iff.mp hx).1, z,
          Text.integer?_eq_some_iff.mp hz, hi⟩ hx (.here _)
      · cases h
    | _ => cases h
  · intro h
    cases h with
    | key fields _ _ _ _ hx hrest =>
      cases hrest
      rw [stepInto, hx]
    | element items i _ _ _ _ hnamed hx hrest =>
      cases hrest
      obtain ⟨_, z, hz, hi⟩ := hnamed
      rw [stepInto, Text.integer?_eq_some_iff.mpr hz, Option.bind_some,
        elementAt?_eq_some_iff.mpr ⟨i, hi, hx⟩]

/-- A path leads somewhere if its first segment does, and the others do from there. -/
theorem locates_cons_iff {named : Nat → String → Nat → Prop} :
    Locates named d (segment :: segments) v ↔
      ∃ x, Locates named d [segment] x ∧ Locates named x segments v := by
  constructor
  · intro h
    cases h with
    | key fields _ _ x _ hx hrest => exact ⟨x, .key _ _ _ _ _ hx (.here _), hrest⟩
    | element items i _ _ x _ hnamed hx hrest =>
      exact ⟨x, .element _ _ _ _ _ _ hnamed hx (.here _), hrest⟩
  · rintro ⟨x, hfirst, hrest⟩
    cases hfirst with
    | key fields _ _ _ _ hx hend =>
      cases hend
      exact .key _ _ _ _ _ hx hrest
    | element items i _ _ _ _ hnamed hx hend =>
      cases hend
      exact .element _ _ _ _ _ _ hnamed hx hrest

/-- A whole path goes to where its segments lead. -/
theorem foldlM_stepInto_eq_ok_iff :
    segments.foldlM (stepInto reference) d = .ok v ↔ Locates spelledIndex d segments v := by
  induction segments generalizing d with
  | nil =>
    constructor
    · rintro ⟨⟩
      exact .here _
    · rintro ⟨⟩
      rfl
  | cons segment rest ih =>
    rw [List.foldlM_cons, locates_cons_iff]
    constructor
    · intro h
      obtain ⟨x, hx, hrest⟩ := of_bind_eq_ok h
      exact ⟨x, stepInto_eq_ok_iff.mp hx, ih.mp hrest⟩
    · rintro ⟨x, hx, hrest⟩
      rw [stepInto_eq_ok_iff.mpr hx]
      exact ih.mpr hrest

/-- A reference has the value that its segments lead to. -/
theorem resolve_eq_ok_iff :
    document.resolve reference = .ok v ↔
      ∃ segments, segments? reference = some segments ∧ Locates spelledIndex document segments v := by
  rw [resolve]
  cases hsegments : segments? reference with
  | none =>
    constructor
    · intro h
      cases h
    · rintro ⟨_, h, _⟩
      cases h
  | some segments =>
    rw [foldlM_stepInto_eq_ok_iff]
    simp

/-! ## References that lead nowhere -/

/-- A failure over a reference that leads nowhere. A walk that never ends is another one. -/
def IsUnresolved (e : Failure) : Prop :=
  ∃ p : SourceProblem, e = ⟨.source p, none⟩ ∧ ∀ path, p ≠ .circular path

/-- A reference that has no value fails as one that leads nowhere. -/
theorem failsOnly_resolve (document : Document) (reference : String) :
    FailsOnly IsUnresolved (document.resolve reference) := by
  rw [resolve]
  split
  · refine .foldlM (fun current segment _ => ?_) _
    rw [stepInto.eq_def]
    split
    · split
      · exact .ok _
      · exact .fail ⟨.missingKey .., rfl, by simp⟩
    · split
      · exact .ok _
      · exact .fail ⟨.badIndex .., rfl, by simp⟩
    · exact .fail ⟨.notNavigable .., rfl, by simp⟩
  · exact .fail ⟨.externalPointer _, rfl, by simp⟩

/-- **A reference is answered exactly if its segments lead somewhere**, and with the value that they
lead to: every segment is a key of the object that has been reached, or spells the position of an
element of the array. Every other reference fails as one that leads nowhere. -/
theorem resolve_located (document : Document) (reference : String) :
    (∀ v, document.resolve reference = .ok v ↔
      ∃ segments, segments? reference = some segments ∧
        Locates spelledIndex document segments v) ∧
    ((∃ v segments, segments? reference = some segments ∧
        Locates spelledIndex document segments v) ∨
      ∃ e, document.resolve reference = .error e ∧ IsUnresolved e) := by
  refine ⟨fun v => resolve_eq_ok_iff, ?_⟩
  cases h : document.resolve reference with
  | ok v => exact .inl ⟨v, resolve_eq_ok_iff.mp h⟩
  | error e => exact .inr ⟨e, rfl, failsOnly_resolve document reference e h⟩

/-- A document with an array of two texts. -/
def taggedDocument : Document :=
  .object [(.text "tags", .array [.text "first", .text "last"])]

/-- A negative numeral is answered with an element counted from the end, although it is the plain
numeral of no position. -/
theorem minusOne_answered :
    taggedDocument.resolve "#/tags/-1" = .ok (.text "last") ∧
      ¬∃ segments v, segments? "#/tags/-1" = some segments ∧
        Locates plainIndex taggedDocument segments v := by
  have hread : segments? "#/tags/-1" = some ["tags", "-1"] := by decide +kernel
  refine ⟨by rw [resolve, hread]; rfl, ?_⟩
  rintro ⟨segments, v, hsegments, hlocates⟩
  cases hread.symm.trans hsegments
  cases hlocates with
  | key _ _ _ x _ hx hrest =>
    have hitems : x = .array [.text "first", .text "last"] := by
      simpa [lookup?, isText] using hx.symm
    subst hitems
    cases hrest with
    | element _ i _ _ _ _ hnamed =>
      obtain ⟨hi, hsegment⟩ := hnamed
      have hnone : ∀ i < 2, "-1" ≠ toString i := by decide +kernel
      exact hnone i hi hsegment

/-! ## The reference made of a path -/

/-- One step of a path into a document: to the value of a key or to the element at a position. -/
inductive Hop where
  | key (name : String)
  | index (i : Nat)
deriving DecidableEq, Repr

namespace Hop

/-- The value that a step leads to. -/
def target? (d : Document) : Hop → Option Document
  | .key name => d.find? name
  | .index i =>
    match d with
    | .array items => items[i]?
    | _ => none

/-- What a step is called: a key by itself, a position by its plain numeral. -/
def name : Hop → String
  | .key name => name
  | .index i => toString i

/-- A step as a reference has it: a key escaped, a position as its plain numeral. -/
def written : Hop → List Char
  | .key name => escapeSegment name.toList
  | .index i => (toString i).toList

end Hop

/-- The value that the steps of a path lead to, one after the other. -/
def at? (d : Document) (path : List Hop) : Option Document :=
  path.foldlM Hop.target? d

/-- The reference made of a path. -/
def pointer (path : List Hop) : String :=
  "#/" ++ String.ofList (List.intercalate ['/'] (path.map Hop.written))

/-- A numeral has no tilde and no slash. -/
theorem toString_plain (i : Nat) : '~' ∉ (toString i).toList ∧ '/' ∉ (toString i).toList := by
  have hdigit : ∀ c ∈ (toString i).toList, c.isDigit = true := by
    intro c hc
    rw [Nat.toString_eq_ofList_toDigits, String.toList_ofList] at hc
    exact Nat.isDigit_of_mem_toDigits (by decide) (by decide) hc
  exact ⟨fun h => absurd (hdigit _ h) (by decide), fun h => absurd (hdigit _ h) (by decide)⟩

/-- A step is written as its name with the tildes and slashes escaped. -/
theorem Hop.written_eq (hop : Hop) : hop.written = escapeSegment hop.name.toList := by
  cases hop with
  | key name => rfl
  | index i => exact (escapeSegment_of_plain (toString_plain i).1 (toString_plain i).2).symm

/-- Pieces without separators, joined by them, are cut into the same pieces again. -/
theorem splitAt_intercalate {separator : Char} {pieces : List (List Char)} (hne : pieces ≠ [])
    (h : ∀ piece ∈ pieces, separator ∉ piece) :
    Text.splitAt separator (List.intercalate [separator] pieces) = pieces := by
  induction pieces with
  | nil => exact absurd rfl hne
  | cons piece pieces ih =>
    have hpiece := h piece List.mem_cons_self
    cases pieces with
    | nil => rw [List.intercalate_singleton, Text.splitAt_of_not_mem hpiece]
    | cons next pieces =>
      rw [List.intercalate_cons_cons, List.append_assoc, List.singleton_append,
        Text.splitAt_append_cons hpiece,
        ih (List.cons_ne_nil _ _) fun q hq => h q (List.mem_cons_of_mem _ hq)]

/-- The segments of the reference made of a path are the names of its steps. -/
theorem segments?_pointer {path : List Hop} (hne : path ≠ []) :
    segments? (pointer path) = some (path.map Hop.name) := by
  have hchars : (pointer path).toList =
      '#' :: '/' :: List.intercalate ['/'] (path.map Hop.written) := by
    rw [pointer, String.toList_append, String.toList_ofList, String.toList_ofList]
    rfl
  have hsplit : Text.splitAt '/' (List.intercalate ['/'] (path.map Hop.written)) =
      path.map Hop.written := by
    refine splitAt_intercalate (by simpa using hne) fun piece hpiece => ?_
    obtain ⟨hop, _, rfl⟩ := List.mem_map.mp hpiece
    rw [hop.written_eq]
    exact slash_not_mem_escapeSegment _
  have hread : ∀ hop : Hop, String.ofList (unescapeSegment hop.written) = hop.name := by
    intro hop
    rw [hop.written_eq, unescapeSegment_escapeSegment, String.ofList_toList]
  rw [segments?, hchars]
  simp only [hsplit, List.map_map]
  exact congrArg some (List.map_congr_left fun hop _ => hread hop)

/-- The names of the steps lead where the steps do, if the elements on the way are named so. -/
theorem locates_of_at? {named : Nat → String → Nat → Prop} {path : List Hop}
    (hnamed : ∀ n i, .index i ∈ path → i < n → named n (toString i) i)
    (h : document.at? path = some v) : Locates named document (path.map Hop.name) v := by
  induction path generalizing document with
  | nil =>
    cases h
    exact .here _
  | cons hop path ih =>
    rw [at?, List.foldlM_cons] at h
    obtain ⟨x, hx, hrest⟩ := Option.bind_eq_some_iff.mp h
    have hrest := ih (fun n i hi => hnamed n i (List.mem_cons_of_mem _ hi)) hrest
    cases hop with
    | key name =>
      cases document with
      | object fields => exact .key fields name _ x v hx hrest
      | _ => cases hx
    | index i =>
      cases document with
      | array items =>
        have hi : items[i]? = some x := hx
        have hlt := (List.getElem?_eq_some_iff.mp hi).1
        exact .element items i _ _ x v (hnamed _ i List.mem_cons_self hlt) hi hrest
      | _ => cases hx

/-- **The reference made of a path resolves to the value at its end**, whatever the keys on the way
hold. A numeral may have so many digits only; the positions in an array that memory can hold have
far fewer. -/
theorem resolve_pointer {path : List Hop} (hne : path ≠ [])
    (hdigits : ∀ i, .index i ∈ path → i < 10 ^ Text.digitLimit)
    (h : document.at? path = some v) : document.resolve (pointer path) = .ok v := by
  refine resolve_eq_ok_iff.mpr ⟨_, segments?_pointer hne, locates_of_at? (fun n i hi hlt => ?_) h⟩
  exact ⟨hlt, i, Text.integer?_eq_some_iff.mp (Text.integer?_toString (hdigits i hi)), .inl rfl⟩

/-- A document whose keys hold tildes, slashes, digits only and nothing. -/
def escapingDocument : Document :=
  .object [(.text "a/b", .object [(.text "~01", .array [.null,
    .object [(.text "", .object [(.text "7", .text "found")])]])])]

/-- A path through all of them. -/
def escapingPath : List Hop :=
  [.key "a/b", .key "~01", .index 1, .key "", .key "7"]

theorem resolve_escapingPath :
    escapingPath ≠ [] ∧ (∀ i, .index i ∈ escapingPath → i < 10 ^ Text.digitLimit) ∧
      escapingDocument.at? escapingPath = some (.text "found") ∧
      pointer escapingPath = "#/a~1b/~001/1//7" ∧
      escapingDocument.resolve (pointer escapingPath) = .ok (.text "found") := by
  have hne : escapingPath ≠ [] := by decide
  have hdigits : ∀ i, .index i ∈ escapingPath → i < 10 ^ Text.digitLimit := by
    intro i hi
    obtain rfl : i = 1 := by simpa [escapingPath] using hi
    exact Nat.one_lt_pow (by decide) (by decide)
  have hat : escapingDocument.at? escapingPath = some (.text "found") := rfl
  exact ⟨hne, hdigits, hat, by decide +kernel, resolve_pointer hne hdigits hat⟩

end TypedApi.Document
