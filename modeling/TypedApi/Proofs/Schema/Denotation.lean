import TypedApi.Proofs.Schema.Reading
import TypedApi.Proofs.Schema.Steps
import Mathlib.Data.List.Forall2
/-!
What trees say of schemas.

The rules below relate a schema to its tree, keyword by keyword and without any
bound: an object has one field for each property, an array is a list or a set of
its elements, a map has the schema of its values, a union has one alternative
for each entry, and a schema that admits null is an alias of itself without
null. Every tree that is read off a schema is derived by these rules.
-/

set_option autoImplicit false

namespace TypedApi.Schema

/-! ## The rules -/

/-- The type of a schema, by its keyword or by the other ones. -/
def typeOf (schema : Document) : Document :=
  ((schema.find? "type").getD .null).orElse (inferType schema)

/-- Whether a keyword holds. -/
def Holds (schema : Document) (keyword : String) : Prop :=
  ((schema.find? keyword).getD .null).holds = true

/-- The object form of a schema with one type, and whether null is admitted besides. -/
def Normalizes (schema typed : Document) (nullable : Bool) : Prop :=
  ∃ object, readObject schema = .ok object ∧ readNullable object = .ok (typed, nullable)

/-- What a schema says of itself. -/
structure Remarks (schema : Document) (about : About) : Prop where
  docs : readText ((schema.find? "description").getD .null) = .ok about.docs
  newtype : about.newtype = Newtype.ofExtension? ((schema.find? "x-newtype").getD .null)
  pubTypedef : about.pubTypedef = ((schema.find? "x-pub-typedef").getD .null).isTrue
  nullable : about.nullable = false

/-- A field is that of a property: it has its name, the access flags of a schema that is written
out, and it may be left out unless its name is required. -/
structure FieldOf (required : List Document) (property : Document × Document) (field : Field) :
    Prop where
  name : property.1 = .text field.name
  readOnly : field.readOnly = true ↔ property.2.isObject = true ∧
    property.2.hasField "$ref" = false ∧ Holds property.2 "readOnly"
  writeOnly : field.writeOnly = true ↔ property.2.isObject = true ∧
    property.2.hasField "$ref" = false ∧ Holds property.2 "writeOnly"
  inlineOption : field.inlineOption = true ↔ .text field.name ∉ required

mutual
/-- The tree of a schema that may be a reference. -/
inductive Denotes (bounded : Bool) : Document → Tree → Prop
  | reference {schema : Document} {path : String} :
    referenceOf schema = .text path →
    (WellKnown.isExternal path = true → WellKnown.find? path = none) →
    Denotes bounded schema (.reference path)
  | wellKnown {schema : Document} {path : String} {scalar : Scalar} :
    referenceOf schema = .text path → WellKnown.isExternal path = true →
    WellKnown.find? path = some scalar →
    Denotes bounded schema (.leaf scalar)
  | written {schema : Document} {tree : Tree} :
    referenceOf schema = .null → Spells bounded schema tree → Denotes bounded schema tree

/-- The tree of a schema that is written out. -/
inductive Spells (bounded : Bool) : Document → Tree → Prop
  | bare {schema typed : Document} {about : About} {form : Form} {children : List Tree} :
    Normalizes schema typed false → Remarks typed about →
    Contains bounded typed false form children →
    Spells bounded schema (.node about form children)
  /-- A schema that admits null is an alias of what it is without null. -/
  | nullable {schema typed : Document} {about : About} {form : Form} {children : List Tree} :
    Normalizes schema typed true → Remarks typed about → Contains bounded typed true form children →
    Spells bounded schema
      (.node { docs := about.docs, nullable := true } .synonym [.node about form children])

/-- The form of a schema with one type, and the trees of the schemas inside it. -/
inductive Contains (bounded : Bool) : Document → Bool → Form → List Tree → Prop
  /-- A union has one alternative for each entry, in order. -/
  | union {schema : Document} {nullable : Bool} {entries : List Document}
    {discriminant : Option String} {tags : List (Option String)} {children : List Tree} :
    ((schema.find? "oneOf").getD .null).elements? = some entries →
    tags.length = entries.length →
    List.Forall₂ (Denotes bounded) entries children →
    Contains bounded schema nullable (.oneOf discriminant tags) children
  /-- An override has the one reference of an `allOf`. -/
  | override {schema entry : Document} {rest : List Document} {nullable : Bool}
    {readOnly writeOnly : Bool} {title description : Option String} {target : Tree} :
    schema.find? "allOf" = some (.array (entry :: rest)) →
    (readOnly = true ↔ Holds schema "readOnly") → (writeOnly = true ↔ Holds schema "writeOnly") →
    Denotes bounded entry target →
    Contains bounded schema nullable (.override readOnly writeOnly title description) [target]
  /-- An array with a schema for its elements is a list or a set of them. -/
  | elements {schema : Document} {nullable : Bool} {form : Form} {element : Tree} :
    typeOf schema = .text "array" →
    (form = .set ∧ Holds schema "uniqueItems" ∨ form = .list ∧ ¬Holds schema "uniqueItems") →
    Denotes bounded ((schema.find? "items").getD .null) element →
    Contains bounded schema nullable form [element]
  /-- The elements of any other array are arbitrary. -/
  | anyElements {schema : Document} {nullable : Bool} {form : Form} :
    typeOf schema = .text "array" →
    (form = .set ∧ Holds schema "uniqueItems" ∨ form = .list ∧ ¬Holds schema "uniqueItems") →
    (schema.find? "items").getD .null = .null →
    Contains bounded schema nullable form [.leaf .any]
  /-- A map with a schema for its values has their type. -/
  | values {schema : Document} {nullable : Bool} {value : Tree} :
    typeOf schema = .text "object" →
    Denotes bounded ((schema.find? "additionalProperties").getD .null) value →
    Contains bounded schema nullable .map [value]
  /-- The values of any other map are arbitrary. -/
  | anyValues {schema : Document} {nullable : Bool} :
    typeOf schema = .text "object" →
    ((schema.find? "additionalProperties").getD .null = .bool true ∨
      (schema.find? "additionalProperties").getD .null = .object []) →
    Contains bounded schema nullable .map []
  /-- An object has one field for each property, in order. -/
  | fields {schema : Document} {nullable : Bool} {properties : List (Document × Document)}
    {required : List Document} {fields : List Field} {children : List Tree} :
    typeOf schema = .text "object" →
    (((schema.find? "properties").getD .null).orElse (.object [])).fields? = some properties →
    (((schema.find? "required").getD .null).orElse (.array [])).elements? = some required →
    List.Forall₂ (FieldOf required) properties fields →
    List.Forall₂ (Denotes bounded) (properties.map Prod.snd) children →
    Contains bounded schema nullable (.object fields) children
  | enumeration {schema : Document} {nullable : Bool} {variants : List String}
    {extensible : Bool} :
    typeOf schema = .text "string" →
    enumeration schema nullable = .ok (some (.stringEnum variants extensible)) →
    Contains bounded schema nullable (.stringEnum variants extensible) []
  | text {schema : Document} {nullable : Bool} {scalar : Scalar} :
    typeOf schema = .text "string" → enumeration schema nullable = .ok none →
    Scalar.ofFormat? ((schema.find? "format").getD .null) = some scalar →
    Contains bounded schema nullable (.scalar scalar) []
  | boolean {schema : Document} {nullable : Bool} :
    typeOf schema = .text "boolean" → Contains bounded schema nullable (.scalar .bool) []
  | number {schema : Document} {nullable : Bool} {scalar : Scalar} :
    typeOf schema = .text "number" → Scalar.ofNumber schema = .ok scalar →
    Contains bounded schema nullable (.scalar scalar) []
  | integer {schema : Document} {nullable : Bool} {reading : IntegerReading} :
    typeOf schema = .text "integer" → Scalar.ofInteger schema bounded = .ok reading →
    Contains bounded schema nullable (.scalar reading.scalar) []
  | unit {schema : Document} {nullable : Bool} :
    typeOf schema = .text "null" → Contains bounded schema nullable (.scalar .unit) []
  | any {schema : Document} {nullable : Bool} :
    typeOf schema = .null → Contains bounded schema nullable (.scalar .any) []
end

/-! ## Readings keep the rules -/

variable {bounded : Bool} {read : Reading}

theorem eq_some_of_need {α : Type} {o : Option α} {a : α} (h : need o = .ok a) : o = some a := by
  cases o with
  | none => cases h
  | some b =>
    cases h
    rfl

theorem eq_ok_of_classed {α : Type} {e : Except ShapeProblem α} {a : α} (h : classed e = .ok a) :
    e = .ok a := by
  cases e with
  | error p => cases h
  | ok b =>
    cases h
    rfl

theorem eq_text_of_text? {d : Document} {s : String} (h : d.text? = some s) : d = .text s := by
  cases d <;> cases h
  rfl

theorem eq_null_of_isNull {d : Document} (h : d.isNull = true) : d = .null := by
  cases d <;> first | rfl | cases h

theorem isText_iff {d : Document} {s : String} : d.isText s = true ↔ d = .text s := by
  cases d <;> simp [Document.isText]

/-- A way to read schemas that keeps the rules for those that are written out. -/
def KeepsRules (bounded : Bool) (read : Reading) : Prop :=
  ∀ schema placement tree, read schema placement = .ok tree → Spells bounded schema tree

theorem denotes_of_readReferred (hr : KeepsRules bounded read) {schema : Document}
    {placement : Option Placement} {tree : Tree}
    (h : readReferred read schema placement = .ok tree) : Denotes bounded schema tree := by
  unfold readReferred at h
  extract_lets reference at h
  split at h
  · rename_i hnull
    exact .written (eq_null_of_isNull hnull) (hr _ _ _ h)
  · obtain ⟨target, htarget, h⟩ := of_bind_eq_ok h
    have hpath : referenceOf schema = .text target := eq_text_of_text? (eq_some_of_need htarget)
    -- an address outside the document is a scalar if it is known, and a path like any other if not
    by_cases hexternal : WellKnown.isExternal target = true
    · rw [if_pos hexternal] at h
      cases hfind : WellKnown.find? target with
      | some scalar =>
        rw [hfind] at h
        cases h
        exact .wellKnown hpath hexternal hfind
      | none =>
        rw [hfind] at h
        cases h
        exact .reference hpath fun _ => hfind
    · rw [if_neg hexternal] at h
      cases h
      exact .reference hpath fun hyes => (hexternal hyes).elim

theorem contains_of_readArray (hr : KeepsRules bounded read) {schema : Document} {nullable : Bool}
    {form : Form} {children : List Tree} (htype : typeOf schema = .text "array")
    (h : readArray read schema = .ok (form, children)) :
    Contains bounded schema nullable form children := by
  obtain ⟨item, hitem, h⟩ := of_bind_eq_ok h
  cases h
  -- the keyword decides between the two forms and has no part in the rest
  have hform : ∀ c : Bool, ((if c = true then Form.set else .list) = .set ∧ c = true ∨
      (if c = true then Form.set else .list) = .list ∧ ¬c = true) := by
    rintro (_ | _)
    · exact .inr ⟨rfl, by simp⟩
    · exact .inl ⟨rfl, rfl⟩
  split at hitem
  · rename_i hnull
    cases hitem
    exact .anyElements htype (hform _) (eq_null_of_isNull hnull)
  · exact .elements htype (hform _) (denotes_of_readReferred hr hitem)

/-- The field that is read off a property is the property's, and the tree is that of its schema. -/
theorem fieldOf_of_readMember (hr : KeepsRules bounded read) {schema : Document}
    {required : List Document} {property : Document × Document} {p : Field × Tree}
    (h : readMember read schema required property = .ok p) :
    FieldOf required property p.1 ∧ Denotes bounded property.2 p.2 := by
  obtain ⟨key, declared⟩ := property
  obtain ⟨name, hname, h⟩ := of_bind_eq_ok h
  obtain ⟨tree, htree, h⟩ := of_bind_eq_ok h
  cases h
  refine ⟨⟨eq_text_of_text? (eq_some_of_need hname), ?_, ?_, ?_⟩, denotes_of_readReferred hr htree⟩
  · simp [Holds, and_assoc]
  · simp [Holds, and_assoc]
  · simp only [Bool.not_eq_true', List.any_eq_false, isText_iff]
    exact ⟨fun hall hmem => hall _ hmem rfl, fun hnot r hr heq => hnot (heq ▸ hr)⟩

theorem contains_of_readFields (hr : KeepsRules bounded read) {schema : Document} {nullable : Bool}
    {form : Form} {children : List Tree} (htype : typeOf schema = .text "object")
    (h : readFields read schema = .ok (form, children)) :
    Contains bounded schema nullable form children := by
  unfold readFields at h
  extract_lets properties at h
  split at h
  · cases h
  -- but for the schema that admits nothing, further fields are what the keyword says
  · have hfurther : ∀ d : Document, furtherFields schema = d → d ≠ .null →
        (schema.find? "additionalProperties").getD .null = d := by
      intro d hd hne
      rw [furtherFields] at hd
      split at hd
      · exact (hne hd.symm).elim
      · exact hd
    split at h
    · obtain ⟨required, hrequired, h⟩ := of_bind_eq_ok h
      obtain ⟨fields, hfields, h⟩ := of_bind_eq_ok h
      obtain ⟨members, hmembers, h⟩ := of_bind_eq_ok h
      cases h
      obtain ⟨names, hnames, hrequired⟩ := of_bind_eq_ok hrequired
      split at hrequired
      · cases hrequired
        -- one field and one tree for each property, in the order of the properties
        have hall := (forall₂_of_mapM hmembers).imp fun _ _ h => fieldOf_of_readMember hr h
        refine .fields htype (eq_some_of_need hfields) (eq_some_of_need hnames) ?_ ?_
        · exact List.forall₂_map_right_iff.mpr (hall.imp fun _ _ h => h.1)
        · exact List.forall₂_map_left_iff.mpr
            (List.forall₂_map_right_iff.mpr (hall.imp fun _ _ h => h.2))
      · cases hrequired
    · rename_i hall
      cases h
      exact .anyValues htype (.inl (hfurther _ hall (by simp)))
    · rename_i hall
      cases h
      exact .anyValues htype (.inr (hfurther _ hall (by simp)))
    · rename_i hall
      obtain ⟨value, hvalue, h⟩ := of_bind_eq_ok h
      cases h
      refine .values htype ?_
      rw [hfurther _ hall (by simp)]
      exact denotes_of_readReferred hr hvalue
    · cases h

theorem contains_of_readUnion (hr : KeepsRules bounded read) {schema : Document} {nullable : Bool}
    {form : Form} {children : List Tree} (h : readUnion read schema = .ok (form, children)) :
    Contains bounded schema nullable form children := by
  obtain ⟨discriminant, _, h⟩ := of_bind_eq_ok h
  obtain ⟨mapping, _, h⟩ := of_bind_eq_ok h
  obtain ⟨entries, hentries, h⟩ := of_bind_eq_ok h
  obtain ⟨variants, hvariants, h⟩ := of_bind_eq_ok h
  obtain ⟨name, _, h⟩ := of_bind_eq_ok h
  cases h
  have hall := forall₂_of_mapM hvariants
  refine .union (eq_some_of_need hentries) ?_ ?_
  · rw [List.length_map, hall.length_eq]
  · refine List.forall₂_map_right_iff.mpr (hall.imp fun entry variant h => ?_)
    obtain ⟨key, _, h⟩ := of_bind_eq_ok h
    obtain ⟨tree, htree, h⟩ := of_bind_eq_ok h
    obtain ⟨tag, _, h⟩ := of_bind_eq_ok h
    cases h
    exact denotes_of_readReferred hr htree

theorem contains_of_readOverride (hr : KeepsRules bounded read) {schema : Document}
    {nullable : Bool} {form : Form} {children : List Tree}
    (h : readOverride read schema = .ok (form, children)) :
    Contains bounded schema nullable form children := by
  obtain ⟨entry, hentry, h⟩ := of_bind_eq_ok h
  obtain ⟨target, htarget, h⟩ := of_bind_eq_ok h
  obtain ⟨title, _, h⟩ := of_bind_eq_ok h
  obtain ⟨description, _, h⟩ := of_bind_eq_ok h
  cases h
  split at hentry
  · rename_i hall
    cases hentry
    exact .override hall Iff.rfl Iff.rfl (denotes_of_readReferred hr htarget)
  · cases hentry

theorem contains_of_readString {schema : Document} {nullable : Bool} {form : Form}
    {children : List Tree} (htype : typeOf schema = .text "string")
    (h : readString schema nullable = .ok (form, children)) :
    Contains bounded schema nullable form children := by
  obtain ⟨enumerated, henum, h⟩ := of_bind_eq_ok h
  cases enumerated with
  | some shape =>
    cases h
    obtain ⟨variants, extensible, rfl⟩ := shape_of_enumeration (eq_ok_of_classed henum)
    exact .enumeration htype (eq_ok_of_classed henum)
  | none =>
    obtain ⟨scalar, hscalar, h⟩ := of_bind_eq_ok h
    cases h
    exact .text htype (eq_ok_of_classed henum) (eq_some_of_need hscalar)

theorem contains_of_readTyped (hr : KeepsRules bounded read) {schema : Document} {nullable : Bool}
    {form : Form} {children : List Tree}
    (h : readTyped bounded read schema nullable = .ok (form, children)) :
    Contains bounded schema nullable form children := by
  unfold readTyped at h
  split at h
  · cases h
    exact .boolean ‹_›
  · obtain ⟨scalar, hscalar, h⟩ := of_bind_eq_ok h
    cases h
    exact .number ‹_› (eq_ok_of_classed hscalar)
  · obtain ⟨reading, hreading, h⟩ := of_bind_eq_ok h
    cases h
    exact .integer ‹_› (eq_ok_of_classed hreading)
  · exact contains_of_readString ‹_› h
  · exact contains_of_readArray hr ‹_› h
  · exact contains_of_readFields hr ‹_› h
  · cases h
    exact .unit ‹_›
  · cases h
    exact .any ‹_›
  · cases h

theorem contains_of_readForm (hr : KeepsRules bounded read) {schema : Document}
    {nullable singleton : Bool} {form : Form} {children : List Tree}
    (h : readForm bounded read schema nullable singleton = .ok (form, children)) :
    Contains bounded schema nullable form children := by
  unfold readForm at h
  split at h
  · cases h
  · split at h
    · exact contains_of_readUnion hr h
    · split at h
      · split at h
        · exact contains_of_readOverride hr h
        · cases h
      · exact contains_of_readTyped hr h

theorem keepsRules_readWith (hr : KeepsRules bounded read) :
    KeepsRules bounded (readWith bounded read) := by
  intro schema placement tree h
  obtain ⟨object, hobject, h⟩ := of_bind_eq_ok h
  obtain ⟨singleton, _, h⟩ := of_bind_eq_ok h
  obtain ⟨⟨typed, nullable⟩, htyped, h⟩ := of_bind_eq_ok h
  obtain ⟨_, _, h⟩ := of_bind_eq_ok h
  obtain ⟨⟨form, children⟩, hform, h⟩ := of_bind_eq_ok h
  obtain ⟨docs, hdocs, h⟩ := of_bind_eq_ok h
  -- the form is read off the schema with one type, whether null is admitted besides or not
  have hcontains := contains_of_readForm hr hform
  have hremarks : Remarks typed
      { docs
        newtype := Newtype.ofExtension? ((typed.find? "x-newtype").getD .null)
        pubTypedef := ((typed.find? "x-pub-typedef").getD .null).isTrue } :=
    ⟨hdocs, rfl, rfl, rfl⟩
  cases nullable with
  | false =>
    cases h
    exact .bare ⟨object, hobject, htyped⟩ hremarks hcontains
  | true =>
    cases h
    exact .nullable ⟨object, hobject, htyped⟩ hremarks hcontains

/-- **The tree of a schema is derived by the rules.** The induction is on the bound of the
nesting. -/
theorem spells_of_treeOf {schema : Document} {placement : Option Placement} {tree : Tree}
    (h : treeOf bounded schema placement = .ok tree) : Spells bounded schema tree := by
  -- the rules know of no bound, so a reading may be under any
  have hnested : ∀ bound, KeepsRules bounded (readNested bounded bound) := by
    intro bound
    induction bound with
    | zero =>
      intro schema placement tree h
      cases h
    | succ bound ih => exact keepsRules_readWith ih
  exact hnested _ _ _ _ h

end TypedApi.Schema
