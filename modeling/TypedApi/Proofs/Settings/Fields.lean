import TypedApi.Proofs.Document.Layered
import TypedApi.Settings.Edit
import Mathlib.Tactic.Common
/-!
Settings, one by one.

Reading the settings of a document is one rule for all of them: where the path of a
setting leads to a value, that has to spell one for the setting, and where it leads
nowhere the default is taken. A document that is good in this sense is a *layer*. The
rule is what the reader does, and settings that are written out give themselves.

A layer over settings that are written out is one exactly if it is one by itself, and
gives what it has itself before what is below.
-/

set_option autoImplicit false

namespace TypedApi

open Document (along?_cons along?_layer laid laid_none laid_of_not_isObject isObject_laid)

variable {d v y : Document} {s t : Settings} {x : Setting} {p : List String}

/-! ## Values -/

/-- The value of a setting. -/
inductive Setting.Value where
  | flag (b : Bool)
  | count (n : Int)
  | text (s : String)
deriving DecidableEq, Repr

/-- The form in which a value is written out. -/
def Setting.Value.document : Setting.Value → Document
  | .flag b => .bool b
  | .count n => .int n
  | .text s => .text s

namespace Setting

/-- What a value in a document spells for a setting. -/
def read? : Setting → Document → Option Value
  | .cacheTtl, d => d.count?.map .count
  | .format, d => d.text?.map .text
  | _, d => d.flag?.map .flag

/-- What a setting is where nothing says otherwise. -/
def default : Setting → Value
  | .cacheTtl => .count 86400
  | .format => .text "auto"
  | _ => .flag true

/-- The sections are the whole, two in it, and one in the first of these. -/
theorem isSection_iff :
    isSection p = true ↔
      p = [] ∨ p = ["generator"] ∨ p = ["generator", "docs_cache"] ∨ p = ["output"] := by
  constructor
  · intro h
    obtain ⟨x, _, hx⟩ := List.any_eq_true.mp h
    rw [Bool.and_eq_true, decide_eq_true_eq, List.isPrefixOf_iff_prefix] at hx
    have hfront : ∀ n < x.path.length, x.path.take n = [] ∨ x.path.take n = ["generator"] ∨
        x.path.take n = ["generator", "docs_cache"] ∨ x.path.take n = ["output"] := by
      cases x <;> decide
    rw [List.prefix_iff_eq_take.mp hx.1]
    exact hfront p.length hx.2
  · rintro (rfl | rfl | rfl | rfl) <;> decide

/-- What leads to a setting or a section leads through sections. -/
theorem isSection_of_prefix {rest : List String} (hrest : rest ≠ [])
    (h : x.path = p ++ rest ∨ isSection (p ++ rest) = true) : isSection p = true := by
  have hlength : 0 < rest.length := List.length_pos_iff.mpr hrest
  obtain hpath | hsection := h
  · refine List.any_eq_true.mpr ⟨x, by cases x <;> decide, ?_⟩
    rw [hpath, Bool.and_eq_true, decide_eq_true_eq, List.isPrefixOf_iff_prefix]
    exact ⟨List.prefix_append p rest, by simpa using hlength⟩
  · obtain ⟨y, hy, hprefix⟩ := List.any_eq_true.mp hsection
    rw [Bool.and_eq_true, decide_eq_true_eq, List.isPrefixOf_iff_prefix] at hprefix
    refine List.any_eq_true.mpr ⟨y, hy, ?_⟩
    rw [Bool.and_eq_true, decide_eq_true_eq, List.isPrefixOf_iff_prefix]
    refine ⟨(List.prefix_append p rest).trans hprefix.1, ?_⟩
    have := hprefix.2
    rw [List.length_append] at this
    omega

end Setting

namespace Settings

open Setting (Value isSection isSection_iff isSection_of_prefix)

/-- What a setting is. -/
def get (s : Settings) : Setting → Value
  | .boundedIntegers => .flag s.options.boundedIntegers
  | .emitDocs => .flag s.options.emitDocs
  | .fetchExternalDocs => .flag s.options.fetchExternalDocs
  | .cacheEnabled => .flag s.docsCache.enabled
  | .cacheTtl => .count s.docsCache.ttlSeconds
  | .format => .text s.format

@[simp] theorem get_default (x : Setting) : ({} : Settings).get x = x.default := by
  cases x <;> rfl

/-- There is no more to settings than the single ones. -/
theorem eq_of_get (h : ∀ x, s.get x = t.get x) : s = t := by
  have hbounded := Value.flag.inj (h .boundedIntegers)
  have hdocs := Value.flag.inj (h .emitDocs)
  have hfetch := Value.flag.inj (h .fetchExternalDocs)
  have henabled := Value.flag.inj (h .cacheEnabled)
  have httl := Value.count.inj (h .cacheTtl)
  have hformat := Value.text.inj (h .format)
  obtain ⟨⟨_, _, _⟩, ⟨_, _⟩, _⟩ := s
  obtain ⟨⟨_, _, _⟩, ⟨_, _⟩, _⟩ := t
  cases hbounded
  cases hdocs
  cases hfetch
  cases henabled
  cases httl
  cases hformat
  rfl

/-- What each setting can be by itself, all can be together. -/
theorem exists_get {f : Setting → Value} (h : ∀ x, ∃ s : Settings, s.get x = f x) :
    ∃ s : Settings, ∀ x, s.get x = f x := by
  obtain ⟨bounded, hbounded⟩ := h .boundedIntegers
  obtain ⟨emit, hemit⟩ := h .emitDocs
  obtain ⟨fetch, hfetch⟩ := h .fetchExternalDocs
  obtain ⟨enabled, henabled⟩ := h .cacheEnabled
  obtain ⟨ttl, httl⟩ := h .cacheTtl
  obtain ⟨format, hformat⟩ := h .format
  refine ⟨{
    options := {
      boundedIntegers := bounded.options.boundedIntegers
      emitDocs := emit.options.emitDocs
      fetchExternalDocs := fetch.options.fetchExternalDocs }
    docsCache := {
      enabled := enabled.docsCache.enabled
      ttlSeconds := ttl.docsCache.ttlSeconds }
    format := format.format }, fun x => ?_⟩
  cases x <;> assumption

/-- What a value spells for a setting, the setting can be. -/
theorem exists_get_of_read? {value : Value} (h : x.read? v = some value) :
    ∃ s : Settings, s.get x = value := by
  cases x with
  | cacheTtl =>
    obtain ⟨n, _, rfl⟩ := Option.map_eq_some_iff.mp h
    exact ⟨{ docsCache := { ttlSeconds := n } }, rfl⟩
  | format =>
    obtain ⟨s, _, rfl⟩ := Option.map_eq_some_iff.mp h
    exact ⟨{ format := s }, rfl⟩
  | boundedIntegers =>
    obtain ⟨b, _, rfl⟩ := Option.map_eq_some_iff.mp h
    exact ⟨{ options := { boundedIntegers := b } }, rfl⟩
  | emitDocs =>
    obtain ⟨b, _, rfl⟩ := Option.map_eq_some_iff.mp h
    exact ⟨{ options := { emitDocs := b } }, rfl⟩
  | fetchExternalDocs =>
    obtain ⟨b, _, rfl⟩ := Option.map_eq_some_iff.mp h
    exact ⟨{ options := { fetchExternalDocs := b } }, rfl⟩
  | cacheEnabled =>
    obtain ⟨b, _, rfl⟩ := Option.map_eq_some_iff.mp h
    exact ⟨{ docsCache := { enabled := b } }, rfl⟩

/-! ## Layers -/

/-- What a document gives for a setting. -/
def given? (d : Document) (x : Setting) : Option Value :=
  (d.along? x.path).bind x.read?

/-- A document that settings can be read from: its sections are objects, and its values spell ones
for their settings. Any part of it may be missing. -/
structure IsLayer (d : Document) : Prop where
  sections : ∀ p y, isSection p = true → d.along? p = some y → y.isObject = true
  values : ∀ (x : Setting) v, d.along? x.path = some v → (x.read? v).isSome = true

/-- What a document gives over settings, settings can be. -/
theorem exists_get_given? (d : Document) (s : Settings) :
    ∃ t : Settings, ∀ x, t.get x = (given? d x).getD (s.get x) := by
  refine exists_get fun x => ?_
  cases hgiven : given? d x with
  | none => exact ⟨s, rfl⟩
  | some value =>
    obtain ⟨v, _, hread⟩ := Option.bind_eq_some_iff.mp hgiven
    exact exists_get_of_read? hread

/-- A section with what stands for it where there is none. -/
def sectionOf (d : Document) (key : String) : Document :=
  (d.find? key).getD (.object [])

theorem along?_singleton (d : Document) (key : String) : d.along? [key] = d.find? key := by
  rw [along?_cons]
  cases d.find? key <;> rfl

theorem section?_eq_some_iff {key : String} : section? d key = some y ↔
    sectionOf d key = y ∧ y.isObject = true := by
  unfold section? sectionOf
  cases d.find? key with
  | none =>
    constructor
    · rintro ⟨⟩
      exact ⟨rfl, rfl⟩
    · rintro ⟨rfl, _⟩
      rfl
  | some z =>
    dsimp only [Option.getD_some]
    split
    · rename_i hz
      exact ⟨fun h => by cases h; exact ⟨rfl, hz⟩, fun h => by rw [h.1]⟩
    · rename_i hz
      exact ⟨nofun, fun h => absurd (h.1 ▸ h.2) hz⟩

/-- A path leads the same way from a section as from what stands for it. -/
theorem along?_sectionOf (d : Document) (key next : String) (rest : List String) :
    (sectionOf d key).along? (next :: rest) = d.along? (key :: next :: rest) := by
  rw [along?_cons d, sectionOf]
  cases d.find? key <;> rfl

/-- A section that is an object stands for one, and a missing one does too. -/
theorem isObject_sectionOf {key : String} :
    (sectionOf d key).isObject = true ↔ ∀ y, d.find? key = some y → y.isObject = true := by
  rw [sectionOf]
  cases d.find? key with
  | none => exact iff_of_true rfl nofun
  | some z => exact ⟨fun h y hy => by cases hy; exact h, fun h => h z rfl⟩

/-- A document has its sections if it is an object and each of them is one or is missing. -/
theorem sections_iff :
    (∀ p y, isSection p = true → d.along? p = some y → y.isObject = true) ↔
      d.isObject = true ∧ (sectionOf d "generator").isObject = true ∧
        (sectionOf (sectionOf d "generator") "docs_cache").isObject = true ∧
          (sectionOf d "output").isObject = true := by
  simp only [isObject_sectionOf, ← along?_singleton, along?_sectionOf]
  constructor
  · intro h
    exact ⟨h [] d (by decide) rfl, fun y => h _ y (by decide), fun y => h _ y (by decide),
      fun y => h _ y (by decide)⟩
  · rintro ⟨hwhole, hgenerator, hcache, houtput⟩ p y hp hy
    obtain rfl | rfl | rfl | rfl := isSection_iff.mp hp
    · cases hy
      exact hwhole
    · exact hgenerator y hy
    · exact hcache y hy
    · exact houtput y hy

/-- The value of a setting is read from its section: what is there has to spell one, and otherwise
the default is taken. -/
theorem valueOr_eq_some_iff {α : Type} {read? : Document → Option α} {make : α → Value}
    {key : String} {default a : α} {part : Document} (hmake : Function.Injective make)
    (hread : ∀ v, x.read? v = (read? v).map make) (hdefault : x.default = make default)
    (hfind : part.find? key = d.along? x.path) :
    valueOr read? part key default = some a ↔
      (∀ v, d.along? x.path = some v → (x.read? v).isSome = true) ∧
        make a = (given? d x).getD x.default := by
  have hgiven : (given? d x).getD x.default =
      make (((part.find? key).bind read?).getD default) := by
    rw [given?, hdefault, hfind, ← Option.getD_map make, Option.map_bind, funext hread]
    rfl
  rw [hgiven, hmake.eq_iff, ← hfind, @eq_comm _ a]
  simp only [hread, Option.isSome_map]
  unfold valueOr
  cases part.find? key with
  | none => simp
  | some v => cases hv : read? v <;> simp [hv]

/-- The settings of a document are read section by section. -/
theorem ofDocument?_eq_some_iff_parts :
    ofDocument? d = some s ↔
      d.isObject = true ∧ (sectionOf d "generator").isObject = true ∧
        (sectionOf (sectionOf d "generator") "docs_cache").isObject = true ∧
        (sectionOf d "output").isObject = true ∧
        valueOr Document.flag? (sectionOf d "generator") "bounded_integers" true =
          some s.options.boundedIntegers ∧
        valueOr Document.flag? (sectionOf d "generator") "emit_docs" true =
          some s.options.emitDocs ∧
        valueOr Document.flag? (sectionOf d "generator") "fetch_external_docs" true =
          some s.options.fetchExternalDocs ∧
        valueOr Document.flag? (sectionOf (sectionOf d "generator") "docs_cache") "enabled" true =
          some s.docsCache.enabled ∧
        valueOr Document.count? (sectionOf (sectionOf d "generator") "docs_cache") "ttl_seconds"
          86400 = some s.docsCache.ttlSeconds ∧
        valueOr Document.text? (sectionOf d "output") "format" "auto" = some s.format := by
  constructor
  · intro h
    unfold ofDocument? at h
    split at h
    · cases h
    · rename_i hobject
      obtain ⟨generator, hgenerator, h⟩ := Option.bind_eq_some_iff.mp h
      obtain ⟨cache, hcache, h⟩ := Option.bind_eq_some_iff.mp h
      obtain ⟨output, houtput, h⟩ := Option.bind_eq_some_iff.mp h
      obtain ⟨bounded, hbounded, h⟩ := Option.bind_eq_some_iff.mp h
      obtain ⟨emit, hemit, h⟩ := Option.bind_eq_some_iff.mp h
      obtain ⟨fetch, hfetch, h⟩ := Option.bind_eq_some_iff.mp h
      obtain ⟨enabled, henabled, h⟩ := Option.bind_eq_some_iff.mp h
      obtain ⟨ttl, httl, h⟩ := Option.bind_eq_some_iff.mp h
      obtain ⟨format, hformat, h⟩ := Option.bind_eq_some_iff.mp h
      cases h
      obtain ⟨rfl, hgenerator⟩ := section?_eq_some_iff.mp hgenerator
      obtain ⟨rfl, hcache⟩ := section?_eq_some_iff.mp hcache
      obtain ⟨rfl, houtput⟩ := section?_eq_some_iff.mp houtput
      exact ⟨by simpa using hobject, hgenerator, hcache, houtput, hbounded, hemit, hfetch, henabled,
        httl, hformat⟩
  · rintro ⟨hobject, hgenerator, hcache, houtput, hbounded, hemit, hfetch, henabled, httl, hformat⟩
    have hgenerator := section?_eq_some_iff.mpr ⟨rfl, hgenerator⟩
    have hcache := section?_eq_some_iff.mpr ⟨rfl, hcache⟩
    have houtput := section?_eq_some_iff.mpr ⟨rfl, houtput⟩
    rw [ofDocument?, hobject, hgenerator, houtput]
    simp only [Option.bind_eq_bind, Option.bind_some, hcache, hbounded, hemit, hfetch, henabled,
      httl, hformat]
    rfl

/-- **The settings of a document** can be read exactly if it is a layer, and each of them is then
what the document gives for it, or else its default. -/
theorem ofDocument?_eq_some_iff :
    ofDocument? d = some s ↔ IsLayer d ∧ ∀ x, s.get x = (given? d x).getD x.default := by
  have hflag : Function.Injective Value.flag := fun _ _ => Value.flag.inj
  have hcount : Function.Injective Value.count := fun _ _ => Value.count.inj
  have htext : Function.Injective Value.text := fun _ _ => Value.text.inj
  have hfound : ∀ key next, (sectionOf d key).find? next = d.along? [key, next] := by
    intro key next
    rw [← along?_singleton, along?_sectionOf]
  have hinner : ∀ next, (sectionOf (sectionOf d "generator") "docs_cache").find? next =
      d.along? ["generator", "docs_cache", next] := by
    intro next
    rw [← along?_singleton, along?_sectionOf, along?_sectionOf]
  rw [ofDocument?_eq_some_iff_parts,
    @valueOr_eq_some_iff d .boundedIntegers _ _ _ _ _ _ _ hflag (fun _ => rfl) rfl (hfound _ _),
    @valueOr_eq_some_iff d .emitDocs _ _ _ _ _ _ _ hflag (fun _ => rfl) rfl (hfound _ _),
    @valueOr_eq_some_iff d .fetchExternalDocs _ _ _ _ _ _ _ hflag (fun _ => rfl) rfl (hfound _ _),
    @valueOr_eq_some_iff d .cacheEnabled _ _ _ _ _ _ _ hflag (fun _ => rfl) rfl (hinner _),
    @valueOr_eq_some_iff d .cacheTtl _ _ _ _ _ _ _ hcount (fun _ => rfl) rfl (hinner _),
    @valueOr_eq_some_iff d .format _ _ _ _ _ _ _ htext (fun _ => rfl) rfl (hfound _ _)]
  constructor
  · rintro ⟨hobject, hgenerator, hcache, houtput, ⟨h₁, g₁⟩, ⟨h₂, g₂⟩, ⟨h₃, g₃⟩, ⟨h₄, g₄⟩, ⟨h₅, g₅⟩,
      ⟨h₆, g₆⟩⟩
    refine ⟨⟨sections_iff.mpr ⟨hobject, hgenerator, hcache, houtput⟩, fun x => ?_⟩, fun x => ?_⟩
    · cases x <;> assumption
    · cases x <;> assumption
  · rintro ⟨⟨hsections, hvalues⟩, hget⟩
    obtain ⟨hobject, hgenerator, hcache, houtput⟩ := sections_iff.mp hsections
    have hsetting := fun x => And.intro (hvalues x) (hget x)
    exact ⟨hobject, hgenerator, hcache, houtput, hsetting .boundedIntegers, hsetting .emitDocs,
      hsetting .fetchExternalDocs, hsetting .cacheEnabled, hsetting .cacheTtl, hsetting .format⟩

/-! ## Settings that are written out -/

@[simp] theorem along?_dump (s : Settings) (x : Setting) :
    s.dump.along? x.path = some (s.get x).document := by
  cases x <;> rfl

@[simp] theorem read?_get (s : Settings) (x : Setting) :
    x.read? (s.get x).document = some (s.get x) := by
  cases x <;> rfl

/-- Settings that are written out have all sections. -/
theorem exists_along?_dump (s : Settings) (h : isSection p = true) :
    ∃ y, s.dump.along? p = some y ∧ y.isObject = true := by
  obtain rfl | rfl | rfl | rfl := isSection_iff.mp h <;> exact ⟨_, rfl, rfl⟩

/-- Settings that are written out give each setting. -/
theorem given?_dump (s : Settings) (x : Setting) : given? s.dump x = some (s.get x) := by
  rw [given?, along?_dump, Option.bind_some, read?_get]

/-- Settings that are written out can be read. -/
theorem isLayer_dump (s : Settings) : IsLayer s.dump where
  sections p y hp hy := by
    obtain ⟨z, hz, hobject⟩ := exists_along?_dump s hp
    rw [hz] at hy
    exact Option.some.inj hy ▸ hobject
  values x v hv := by
    rw [along?_dump] at hv
    rw [← Option.some.inj hv, read?_get]
    rfl

/-- **Settings that are written out are read as they were.** -/
theorem ofDocument?_dump (s : Settings) : ofDocument? s.dump = some s := by
  refine ofDocument?_eq_some_iff.mpr ⟨isLayer_dump s, fun x => ?_⟩
  rw [given?_dump]
  rfl

/-! ## A layer over settings -/

/-- What leads to a section or to a setting leads through objects if the sections before it are. -/
theorem objects_of_sections {p : List String}
    (h : ∀ q y, q.length < p.length → isSection q = true → d.along? q = some y → y.isObject = true)
    (hp : isSection p = true ∨ ∃ x : Setting, x.path = p) (front rest : List String) (y : Document)
    (hpath : p = front ++ rest) (hrest : rest ≠ []) (hy : d.along? front = some y) :
    y.isObject = true := by
  have hlength : 0 < rest.length := List.length_pos_iff.mpr hrest
  refine h front y (by rw [hpath, List.length_append]; omega) ?_ hy
  obtain hp | ⟨x, hx⟩ := hp
  · exact isSection_of_prefix (x := .format) hrest (.inr (hpath ▸ hp))
  · exact isSection_of_prefix hrest (.inl (hx.trans hpath))

/-- Over the value of a setting anything that is given stands as it is. -/
theorem laid_document (value : Value) (above : Option Document) :
    laid (some value.document) above = some (above.getD value.document) := by
  cases above with
  | none => rfl
  | some y => cases value <;> rfl

variable (hkeys : d.hasTextKeys = true)

include hkeys

/-- The value of a setting in a layer stands before the one below. -/
theorem IsLayer.along?_layer_dump (h : IsLayer d) (s : Settings) (x : Setting) :
    (s.dump.layer d).along? x.path = some ((d.along? x.path).getD (s.get x).document) := by
  rw [along?_layer hkeys (objects_of_sections (fun q y _ => h.sections q y) (.inr ⟨x, rfl⟩)),
    along?_dump, laid_document]

/-- A layer over settings gives what it has itself before what is below. -/
theorem IsLayer.given?_layer_dump (h : IsLayer d) (s : Settings) (x : Setting) :
    given? (s.dump.layer d) x = some ((given? d x).getD (s.get x)) := by
  rw [given?, h.along?_layer_dump hkeys, Option.bind_some, given?]
  cases hd : d.along? x.path with
  | none => exact read?_get s x
  | some v =>
    obtain ⟨value, hvalue⟩ := Option.isSome_iff_exists.mp (h.values x v hd)
    rw [Option.getD_some, Option.bind_some, hvalue]
    rfl

/-- A layer over settings is one. -/
theorem IsLayer.layer_dump (h : IsLayer d) (s : Settings) : IsLayer (s.dump.layer d) where
  sections p y hp hy := by
    obtain ⟨below, hbelow, hobject⟩ := exists_along?_dump s hp
    rw [along?_layer hkeys (objects_of_sections (fun q y _ => h.sections q y) (.inl hp)),
      hbelow] at hy
    cases hd : d.along? p with
    | none =>
      rw [hd, laid_none] at hy
      exact Option.some.inj hy ▸ hobject
    | some above =>
      rw [hd] at hy
      exact isObject_laid hy (h.sections p above hp hd)
  values x v hv := by
    rw [h.along?_layer_dump hkeys] at hv
    rw [← Option.some.inj hv]
    cases hd : d.along? x.path with
    | none =>
      rw [Option.getD_none, read?_get]
      rfl
    | some w => exact h.values x w hd

/-- What is a layer over settings is one by itself: nothing below can mend a section that is no
object, or a value that spells none. -/
theorem isLayer_of_layer_dump (hobject : d.isObject = true) (h : IsLayer (s.dump.layer d)) :
    IsLayer d := by
  have hsections : ∀ n p y, p.length ≤ n → isSection p = true → d.along? p = some y →
      y.isObject = true := by
    intro n
    induction n with
    | zero =>
      intro p y hlength _ hy
      obtain rfl := List.length_eq_zero_iff.mp (Nat.le_zero.mp hlength)
      exact Option.some.inj hy ▸ hobject
    | succ n ih =>
      intro p y hlength hp hy
      have hobjects := objects_of_sections (d := d)
        (fun q z hq => ih q z (Nat.le_of_lt_succ (Nat.lt_of_lt_of_le hq hlength))) (.inl hp)
      by_contra hnot
      have hlayered := @along?_layer s.dump _ _ hkeys hobjects
      rw [hy, laid_of_not_isObject _ (Bool.not_eq_true _ ▸ hnot)] at hlayered
      exact hnot (h.sections p y hp hlayered)
  refine ⟨fun p y hp hy => hsections p.length p y (Nat.le_refl _) hp hy, fun x v hv => ?_⟩
  refine h.values x v ?_
  rw [along?_layer hkeys (objects_of_sections (fun q y _ => hsections q.length q y (Nat.le_refl _))
    (.inr ⟨x, rfl⟩)), along?_dump, laid_document, hv]
  rfl

/-- **The settings of a layer over others** can be read exactly if it is one, and each of them is
then what the layer gives for it, or else what it was. -/
theorem ofDocument?_layer_eq_some_iff (hobject : d.isObject = true) :
    ofDocument? (s.dump.layer d) = some t ↔
      IsLayer d ∧ ∀ x, t.get x = (given? d x).getD (s.get x) := by
  rw [ofDocument?_eq_some_iff]
  constructor
  · rintro ⟨hlayer, hget⟩
    have h := isLayer_of_layer_dump hkeys hobject hlayer
    refine ⟨h, fun x => ?_⟩
    rw [hget, h.given?_layer_dump hkeys]
    rfl
  · rintro ⟨h, hget⟩
    refine ⟨h.layer_dump hkeys s, fun x => ?_⟩
    rw [hget, h.given?_layer_dump hkeys]
    rfl

end Settings

end TypedApi
